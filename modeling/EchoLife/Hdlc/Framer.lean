import EchoLife.Lib.FlagFraming
import EchoLife.Lib.BitCrc

/-!
# Common definitions of the HDLC framer

Reserved bytes, frame states and the frame check sequence of the byte-oriented HDLC framer. The
framing is the instance `byteCode` of `FlagFraming.Code`. A receiver that runs over a payload and
its check sequence always ends with the constant `hdlc16GoodCrc` (`crc16_fcs`), and after a change
within sixteen consecutive bits it does not (`crc16_detects`).
-/

namespace EchoLife.Hdlc

open FlagFraming TableCrc

def kHdlcTxIdleStop : UInt32 := 0x00040000

def kHdlcSpecialAddrCtrl : UInt32 := 0x00080000

def hdlcByteFlag : UInt8 := 0x7E

def hdlcByteEsc : UInt8 := 0x7D

def byteCode : Code UInt8 where
  flag := hdlcByteFlag
  esc := hdlcByteEsc
  mask b := b ^^^ 0x20
  mask_mask b := by rw [UInt8.xor_assoc, UInt8.xor_self, UInt8.xor_zero]
  flag_ne_esc := by decide

inductive FrameState where
  | startFlag
  | address
  | control
  | data
  | fcs1
  | fcs2
  | endFlag
  deriving DecidableEq, Repr

/-! ## Frame check sequence -/

def hdlcCrc16Table : Array UInt32 :=
  #[0x0000, 0x1189, 0x2312, 0x329b, 0x4624, 0x57ad, 0x6536, 0x74bf,
   0x8c48, 0x9dc1, 0xaf5a, 0xbed3, 0xca6c, 0xdbe5, 0xe97e, 0xf8f7,
   0x1081, 0x0108, 0x3393, 0x221a, 0x56a5, 0x472c, 0x75b7, 0x643e,
   0x9cc9, 0x8d40, 0xbfdb, 0xae52, 0xdaed, 0xcb64, 0xf9ff, 0xe876,
   0x2102, 0x308b, 0x0210, 0x1399, 0x6726, 0x76af, 0x4434, 0x55bd,
   0xad4a, 0xbcc3, 0x8e58, 0x9fd1, 0xeb6e, 0xfae7, 0xc87c, 0xd9f5,
   0x3183, 0x200a, 0x1291, 0x0318, 0x77a7, 0x662e, 0x54b5, 0x453c,
   0xbdcb, 0xac42, 0x9ed9, 0x8f50, 0xfbef, 0xea66, 0xd8fd, 0xc974,
   0x4204, 0x538d, 0x6116, 0x709f, 0x0420, 0x15a9, 0x2732, 0x36bb,
   0xce4c, 0xdfc5, 0xed5e, 0xfcd7, 0x8868, 0x99e1, 0xab7a, 0xbaf3,
   0x5285, 0x430c, 0x7197, 0x601e, 0x14a1, 0x0528, 0x37b3, 0x263a,
   0xdecd, 0xcf44, 0xfddf, 0xec56, 0x98e9, 0x8960, 0xbbfb, 0xaa72,
   0x6306, 0x728f, 0x4014, 0x519d, 0x2522, 0x34ab, 0x0630, 0x17b9,
   0xef4e, 0xfec7, 0xcc5c, 0xddd5, 0xa96a, 0xb8e3, 0x8a78, 0x9bf1,
   0x7387, 0x620e, 0x5095, 0x411c, 0x35a3, 0x242a, 0x16b1, 0x0738,
   0xffcf, 0xee46, 0xdcdd, 0xcd54, 0xb9eb, 0xa862, 0x9af9, 0x8b70,
   0x8408, 0x9581, 0xa71a, 0xb693, 0xc22c, 0xd3a5, 0xe13e, 0xf0b7,
   0x0840, 0x19c9, 0x2b52, 0x3adb, 0x4e64, 0x5fed, 0x6d76, 0x7cff,
   0x9489, 0x8500, 0xb79b, 0xa612, 0xd2ad, 0xc324, 0xf1bf, 0xe036,
   0x18c1, 0x0948, 0x3bd3, 0x2a5a, 0x5ee5, 0x4f6c, 0x7df7, 0x6c7e,
   0xa50a, 0xb483, 0x8618, 0x9791, 0xe32e, 0xf2a7, 0xc03c, 0xd1b5,
   0x2942, 0x38cb, 0x0a50, 0x1bd9, 0x6f66, 0x7eef, 0x4c74, 0x5dfd,
   0xb58b, 0xa402, 0x9699, 0x8710, 0xf3af, 0xe226, 0xd0bd, 0xc134,
   0x39c3, 0x284a, 0x1ad1, 0x0b58, 0x7fe7, 0x6e6e, 0x5cf5, 0x4d7c,
   0xc60c, 0xd785, 0xe51e, 0xf497, 0x8028, 0x91a1, 0xa33a, 0xb2b3,
   0x4a44, 0x5bcd, 0x6956, 0x78df, 0x0c60, 0x1de9, 0x2f72, 0x3efb,
   0xd68d, 0xc704, 0xf59f, 0xe416, 0x90a9, 0x8120, 0xb3bb, 0xa232,
   0x5ac5, 0x4b4c, 0x79d7, 0x685e, 0x1ce1, 0x0d68, 0x3ff3, 0x2e7a,
   0xe70e, 0xf687, 0xc41c, 0xd595, 0xa12a, 0xb0a3, 0x8238, 0x93b1,
   0x6b46, 0x7acf, 0x4854, 0x59dd, 0x2d62, 0x3ceb, 0x0e70, 0x1ff9,
   0xf78f, 0xe606, 0xd49d, 0xc514, 0xb1ab, 0xa022, 0x92b9, 0x8330,
   0x7bc7, 0x6a4e, 0x58d5, 0x495c, 0x3de3, 0x2c6a, 0x1ef1, 0x0f78]

def hdlcCrc16Entry (i : UInt32) : UInt32 :=
  hdlcCrc16Table.getD i.toNat 0

def hdlc16CrcInit : UInt32 := 0xFFFF

def hdlc16CrcFinal (crc : UInt32) : UInt32 := crc ^^^ 0xFFFF

def hdlc16GoodCrc : UInt32 := 0xF0B8

def hdlc16UpdateCrc (crc : UInt32) (b : UInt8) : UInt32 :=
  (crc >>> 8) ^^^ hdlcCrc16Entry ((crc ^^^ b.toUInt32) &&& 0xFF)

def crc16 (bytes : List UInt8) : UInt32 :=
  bytes.foldl hdlc16UpdateCrc hdlc16CrcInit

def fcs (payload : List UInt8) : List UInt8 :=
  lsbBytes (hdlc16CrcFinal (crc16 payload))

theorem hdlcCrc16Entry_short (i : UInt32) : Short (hdlcCrc16Entry i) := by
  have entries : hdlcCrc16Table.toList.all (· >>> 8 >>> 8 == 0) := by decide +kernel
  rw [hdlcCrc16Entry, Array.getD_eq_getD_getElem?]
  by_cases inside : i.toNat < hdlcCrc16Table.size
  · rw [Array.getElem?_eq_getElem inside]
    exact eq_of_beq (List.all_eq_true.mp entries _ (Array.getElem_mem_toList inside))
  · rw [Array.getElem?_eq_none (by omega)]
    rfl

theorem crc16_fcs (payload : List UInt8) : crc16 (payload ++ fcs payload) = hdlc16GoodCrc := by
  have short : Short (crc16 payload) :=
    Short.foldl hdlcCrc16Entry_short (by rfl) payload
  have residue : [0, 0].foldl hdlc16UpdateCrc hdlc16CrcInit = hdlc16GoodCrc := by
    decide +kernel
  rw [crc16, List.foldl_append, ← residue]
  exact lsb_residue hdlcCrc16Entry (crc16 payload) short

def fcs16Poly : UInt32 := 0x8408

theorem tops_fcs16Poly : Tops fcs16Poly 15 where
  lead := by decide
  below := below_of_bits (by decide)

theorem hdlcCrc16Entry_eq (i : UInt8) :
    hdlcCrc16Entry i.toUInt32 = (byteBits i).foldl (pushBit fcs16Poly) 0 := by
  have entries : ∀ n : Fin 256, hdlcCrc16Entry (UInt8.ofFin n).toUInt32 =
      (byteBits (UInt8.ofFin n)).foldl (pushBit fcs16Poly) 0 := by decide +kernel
  exact entries i.toFin

/-- **Residue and error detection of the check sequence.** A frame as it was sent leaves the good
checksum, and a frame with a burst of at most sixteen changed bits does not. -/
theorem crc16_detects (payload : List UInt8) :
    crc16 (payload ++ fcs payload) = hdlc16GoodCrc ∧
      ∀ changed : List UInt8, changed.length = (payload ++ fcs payload).length →
        changed ≠ payload ++ fcs payload →
        (∃ start, AgreeOutside start 16 (lsbBits changed) (lsbBits (payload ++ fcs payload))) →
        crc16 changed ≠ hdlc16GoodCrc := by
  refine ⟨crc16_fcs payload, ?_⟩
  rintro changed length differs ⟨start, agree⟩ good
  have small : Below 16 hdlc16CrcInit := below_of_bits (by decide)
  exact differs (foldl_lsbStep_injOn tops_fcs16Poly hdlcCrc16Entry_eq small length start agree
    (good.trans (crc16_fcs payload).symm))

theorem crc16_nil_ne : crc16 [] ≠ hdlc16GoodCrc := by decide

end EchoLife.Hdlc
