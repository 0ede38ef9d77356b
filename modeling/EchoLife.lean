import EchoLife.Aal5.Reassembly
import EchoLife.Hdlc.RoundTrip
import EchoLife.Board.MacPool
import EchoLife.Firmware.Crash
import EchoLife.Firmware.Report
import EchoLife.Psi.Directory
import EchoLife.Psi.SetFailure
import EchoLife.Xml.Chunks
import EchoLife.Xml.Brackets
import EchoLife.Xml.Verify
import EchoLife.Xml.Strings
import EchoLife.Xml.Ssid
import EchoLife.Db.SubnetMask
import EchoLife.Xml.Password
import EchoLife.Dsl.TxRuns
import EchoLife.Dsl.EocLink
import EchoLife.Dsl.OvhResend
import EchoLife.Dsl.OvhResponse
import EchoLife.Dsl.Mib
import EchoLife.Dsl.CircBuf
import EchoLife.Dsl.FrameCopy
import EchoLife.Dsl.OvhGiveBack
import EchoLife.Atm.TxService
import EchoLife.Dsl.StatusBuffer
import EchoLife.Dsl.CommandBuffer
import EchoLife.Flash.Lookup
import EchoLife.Flash.WriteLock
import EchoLife.Psi.TableExport
import EchoLife.Atm.RxPath
import EchoLife.SoftSar.PeakRate
import EchoLife.SoftSar.Priorities
import EchoLife.SoftSar.Semaphore
import EchoLife.SoftSar.Circuits
import EchoLife.Atm.VccTable
import EchoLife.Psi.Checksum
import EchoLife.Atm.Crc10
import EchoLife.Dsl.StretchRuns
import EchoLife.Dsl.RxRing
import EchoLife.Dsl.SharedMem
import EchoLife.SoftSar.HashTable
