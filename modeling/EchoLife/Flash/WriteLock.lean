import EchoLife.Flash.Program
import EchoLife.Lib.Semaphore

/-!
# The write lock of the flash

Outside of an interrupt the driver works under `write_sem_lock`, which has one permit. A write
keeps the permit while it erases a sector that did not verify, and the erase asks for it again
(`writeLock_free_iff`).
-/

namespace EchoLife.Flash

open BlockTable ByteStore Semaphore

/-- What each try makes of the chip, for any device. -/
structure Outcomes where
  write : Nat → Chip → Chip
  erase : Nat → Chip → Chip

inductive LockedCall where
  | sectorEraseInt
  | readBuf
  | writeBuf (a : Nat) (buffer : List UInt8)

def cfiFlashSectorEraseIntOps : List Op := critical []

def cfiFlashReadBufOps : List Op := critical []

def writeBufTries (device : Outcomes) (a : Nat) (buffer : List UInt8) :
    (i left : Nat) → Chip → List Op
  | _, 0, _ => []
  | i, left + 1, chip =>
    let chip := device.write i chip
    if load chip a buffer.length = buffer then []
    else cfiFlashSectorEraseIntOps ++
      writeBufTries device a buffer (i + 1) left (device.erase i chip)

def cfiFlashWriteBufOps (device : Outcomes) (a : Nat) (buffer : List UInt8) (chip : Chip) :
    List Op :=
  critical (writeBufTries device a buffer 0 3 chip)

def lockOps (device : Outcomes) (chip : Chip) : LockedCall → List Op
  | .sectorEraseInt => cfiFlashSectorEraseIntOps
  | .readBuf => cfiFlashReadBufOps
  | .writeBuf a buffer => cfiFlashWriteBufOps device a buffer chip

/-- A write whose first try does not verify. -/
def FailsFirst (device : Outcomes) (chip : Chip) : LockedCall → Prop
  | .writeBuf a buffer => load (device.write 0 chip) a buffer.length ≠ buffer
  | _ => False

/-- **The write lock** is taken only when it is free, and given back, exactly in the calls that do
not have to try a write again. -/
theorem writeLock_free_iff (device : Outcomes) (chip : Chip) (c : LockedCall) :
    run 1 (lockOps device chip c) = some 1 ↔ ¬ FailsFirst device chip c := by
  cases c with
  | sectorEraseInt => exact iff_of_true rfl id
  | readBuf => exact iff_of_true rfl id
  | writeBuf a buffer =>
    rw [lockOps, cfiFlashWriteBufOps, writeBufTries, FailsFirst, not_not]
    split
    next verified => exact iff_of_true rfl verified
    next differs =>
      -- the erase asks for the permit that the write holds
      have blocks := run_critical_blocks (run_critical_held []
        (writeBufTries device a buffer 1 2 (device.erase 0 (device.write 0 chip))))
      exact iff_of_false (fun free => nomatch blocks.symm.trans free) differs

/-- The device of the word-by-word model. -/
def wordOutcomes (failed : Failures) (sizes : List Nat) (sector offset : Nat)
    (buffer : List UInt8) : Outcomes where
  write i chip := (cfiFlashWrite (failed i) sizes sector offset buffer chip).2
  erase _ chip := cfiFlashSectorEraseInt sizes sector chip

/-- **One bit that is not programmed** makes the write wait for itself. -/
theorem writeLock_blocks :
    let device := wordOutcomes (fun i a => if i = 0 ∧ a = 0 then 1 else 0) [4] 0 0 [0, 0]
    lockOps device (fun _ => 0xFF) (.writeBuf 0 [0, 0]) =
        [.request, .request, .release, .release] ∧
      run 1 (lockOps device (fun _ => 0xFF) (.writeBuf 0 [0, 0])) = none := by
  decide

end EchoLife.Flash
