import EchoLife.Firmware.Write

/-!
# Updating the firmware

`flashFsKernelImage` compares the size of an image with what the flash has behind its address, less
64K; marks the update; writes the body and then the sector with the tag; makes the boot line ask for
the latest image; and marks the update as done.

`update_keeps_data` says what an update leaves alone when its sectors lie between the boot sector
and the partitions. The size check does not see to that: `accepted_image_overwrites_wlanparam`.
-/

namespace EchoLife.Firmware

open List Option BlockTable ByteStore CrashTrace TableCrc TextSearch EchoLife.Flash Traced

/-! ## Sequences of driver calls -/

def ifOk (call rest : DriverM (Option Int)) : DriverM (Option Int) := do
  let status ← call
  if status = some 0 then rest else pure status

def regardless (call rest : DriverM (Option Int)) : DriverM (Option Int) := do
  let status ← call
  if status = none then pure none else rest

section Calls

variable {call rest : DriverM (Option Int)} {chip t : Chip}

theorem crash_ifOk (crash : (ifOk call rest).Crash chip t) :
    call.Crash chip t ∨ call.value chip = some 0 ∧ rest.Crash (call.final chip) t := by
  rw [ifOk, crash_bind] at crash
  rcases crash with first | second
  · exact .inl first
  · split at second
    · exact .inr ⟨‹_›, second⟩
    · rw [crash_pure] at second
      exact .inl (second ▸ crash_final call chip)

theorem crash_regardless (crash : (regardless call rest).Crash chip t) :
    call.Crash chip t ∨ call.value chip ≠ none ∧ rest.Crash (call.final chip) t := by
  rw [regardless, crash_bind] at crash
  rcases crash with first | second
  · exact .inl first
  · split at second
    · rw [crash_pure] at second
      exact .inl (second ▸ crash_final call chip)
    · exact .inr ⟨‹_›, second⟩

theorem final_ifOk (ok : call.value chip = some 0) :
    (ifOk call rest).final chip = rest.final (call.final chip) := by
  rw [ifOk, final_bind, if_pos ok]

theorem final_regardless (returns : call.value chip ≠ none) :
    (regardless call rest).final chip = rest.final (call.final chip) := by
  rw [regardless, final_bind, if_neg returns]

end Calls

section Keeps

variable {x : Nat} {v : UInt8} {call rest : DriverM (Option Int)}

theorem keepsByte_ifOk (first : KeepsByte x v call) (second : KeepsByte x v rest) :
    KeepsByte x v (ifOk call rest) := by
  refine first.bind fun status => ?_
  split
  · exact second
  · exact keepsByte_pure _

theorem keepsByte_regardless (first : KeepsByte x v call) (second : KeepsByte x v rest) :
    KeepsByte x v (regardless call rest) := by
  refine first.bind fun status => ?_
  split
  · exact keepsByte_pure _
  · exact second

end Keeps

/-! ## The update -/

def flashReservedAtEnd : UInt32 := 64 * 1024

def signed (n : UInt32) : Int :=
  n.toBitVec.toInt

def availableSizeOneImg (board : Board) (tag : List UInt8) : UInt32 :=
  UInt32.ofNat (total board.sizes) - rootfsAddr tag - flashReservedAtEnd

def acFlag (digit : UInt8) : List UInt8 :=
  digit :: replicate 7 0

def flagOffset : Nat := 256

def tagAddr (tag : List UInt8) : UInt32 :=
  rootfsAddr tag - UInt32.ofNat tagLen

def fsBlk (board : Board) (tag : List UInt8) : Int :=
  cfiFlashGetBlk board.sizes (signed (tagAddr tag))

def ulSectorSize (board : Board) (tag : List UInt8) : Nat :=
  size board.sizes (fsBlk board tag).toNat

def bodyAddr (board : Board) (tag : List UInt8) : Int :=
  signed (tagAddr tag + UInt32.ofNat (ulSectorSize board tag))

def bodySize (board : Board) (tag : List UInt8) : Int :=
  signed (UInt32.ofNat tagLen + imgSize tag - UInt32.ofNat (ulSectorSize board tag))

/-- The NVRAM data with a boot line that asks for the latest image, at position `i` of the boot
line, and with its checksum. -/
def nvramLatest (nvram : List UInt8) (i : Nat) : List UInt8 :=
  let cleared := overwrite (nvram.set (szBootlineAt + (i + 2)) bootLatestImage) ulCheckSumAt
    (msbBytes 0)
  overwrite cleared ulCheckSumAt (msbBytes (getCrc32 cleared crc32InitValue))

def otherPartition (stack nvram : List UInt8) : Option Nat :=
  findBootPartition (fun p2 => p2 ≠ bootLatestImage) ((nvram ++ stack).drop szBootlineAt)

def setBootline (board : Board) (stack nvram : List UInt8) : DriverM (Option Int) :=
  match otherPartition stack nvram with
  | none => pure (some 0)
  | some i => kerSysNvRamSet board (nvramLatest nvram i) 0

def markDone (board : Board) (stack nvram : List UInt8) : DriverM (Option Int) :=
  regardless (setBootline board stack nvram) <|
    regardless (kerSysVariableSet board (acFlag 0x31) flagOffset) (pure (some 0))

def writeBody (board : Board) (image : Image) (sequence : UInt32) : DriverM (Option Int) :=
  kerSysBcmImageSet board (image.bytes sequence) (bodyAddr board image.tag)
    (ulSectorSize board image.tag) (bodySize board image.tag)

def writeTag (board : Board) (image : Image) (sequence : UInt32) : DriverM (Option Int) :=
  kerSysBcmImageSet board (image.bytes sequence) (signed (tagAddr image.tag)) 0
    (ulSectorSize board image.tag)

def writeImage (board : Board) (stack nvram : List UInt8) (image : Image) (sequence : UInt32) :
    DriverM (Option Int) :=
  if fsBlk board image.tag < 0 then pure none
  else ifOk (writeBody board image sequence) <| ifOk (writeTag board image sequence) <|
    markDone board stack nvram

/-- Update the firmware: `0`, `-1` when the image is too large, the sector that could not be
written, or `none` when the driver reads outside its sector table or overruns a buffer. -/
def flashFsKernelImage (board : Board) (stack : List UInt8) (image : Image) :
    DriverM (Option Int) := do
  let nvram ← .observe nvramData
  if imgSize image.tag > availableSizeOneImg board image.tag then pure (some (-1))
  else regardless (kerSysVariableSet board (acFlag 0x33) flagOffset) do
    let sequence ← .observe (newImageSequence board.sizes)
    writeImage board stack nvram image sequence

/-! ## What an update leaves alone -/

def dataBlk (board : Board) : Nat :=
  (kerSysFlashInit board).wlanparam.startBlk.toNat

structure WrittenBelow (board : Board) (tag : List UInt8) (e : Nat) : Prop where
  tag_pos : 0 < fsBlk board tag
  tag_lt : fsBlk board tag < e
  body_pos : 0 < cfiFlashGetBlk board.sizes (bodyAddr board tag)
  body_lt : cfiFlashGetBlk board.sizes (bodyAddr board tag) < e
  body_ends : start board.sizes (cfiFlashGetBlk board.sizes (bodyAddr board tag)).toNat +
    bodySize board tag ≤ start board.sizes e

def flagAddr (board : Board) : Nat :=
  (kerSysFlashInit board).variableArea.addr board.sizes + flagOffset

theorem variableArea_mem (board : Board) : (kerSysFlashInit board).variableArea ∈
    (kerSysFlashInit board).partitions := by
  simp [FlashAddrInfo.partitions, FlashAddrInfo.upper]

variable {x i : Nat} {image : Image} {chip : Chip} {nvram stack : List UInt8} {board : Board}

section Data

variable {board : Board} (ok : LookupsSucceed board)
include ok

theorem dataBlk_le {p : FlashPart} (mem : p ∈ (kerSysFlashInit board).partitions) :
    (dataBlk board : Int) ≤ p.startBlk := by
  have lowest := (descends_partitions ok).startBlk_le mem
  obtain ⟨b, e, placed, -⟩ := (descends_partitions ok).exists_placed mem
  have := placed.startBlk
  rw [dataBlk]
  omega

theorem start_dataBlk_le {p : FlashPart} (mem : p ∈ (kerSysFlashInit board).partitions) :
    start board.sizes (dataBlk board) ≤ p.addr board.sizes := by
  have lowest := dataBlk_le ok mem
  obtain ⟨b, e, placed, -⟩ := (descends_partitions ok).exists_placed mem
  have first := placed.startBlk
  have := start_mono board.sizes (show dataBlk board ≤ b by omega)
  rw [placed.addr_eq]
  omega

theorem kerSysVariableSet_flag (digit : UInt8) (chip : Chip) :
    (kerSysVariableSet board (acFlag digit) flagOffset).value chip = some 0 ∧
      (kerSysVariableSet board (acFlag digit) flagOffset).final chip =
        store chip (flagAddr board) (acFlag digit) := by
  obtain ⟨b, e, placed, -⟩ := (descends_partitions ok).exists_placed (variableArea_mem board)
  have addr := placed.addr_eq
  have ends := placed.addr_ends
  have length : (kerSysFlashInit board).variableArea.length = vaMaxLen := rfl
  have size : (acFlag digit).length = 8 := rfl
  have room : flagOffset + 8 ≤ vaMaxLen := by decide
  rw [flagAddr, addr, Nat.add_assoc]
  exact partSet_spec placed.owns (acFlag digit) flagOffset (by rw [length, size]; decide)
    (by omega) chip

theorem keepsByte_kerSysVariableSet (digit : UInt8) {v : UInt8}
    (apart : x < flagAddr board ∨ flagAddr board + 8 ≤ x) :
    KeepsByte x v (kerSysVariableSet board (acFlag digit) flagOffset) := by
  intro chip same
  rw [(kerSysVariableSet_flag ok digit chip).2, store_apply_outside apart, same]

theorem final_flashFsKernelImage
    (accepted : imgSize image.tag ≤ availableSizeOneImg board image.tag) (stack : List UInt8)
    (chip : Chip) :
    (flashFsKernelImage board stack image).final chip =
      (writeImage board stack (nvramData chip) image (newImageSequence board.sizes
        (store chip (flagAddr board) (acFlag 0x33)))).final
        (store chip (flagAddr board) (acFlag 0x33)) := by
  obtain ⟨value, final⟩ := kerSysVariableSet_flag ok 0x33 chip
  rw [flashFsKernelImage, final_bind, value_observe, final_observe,
    if_neg (UInt32.not_lt.mpr accepted), final_regardless (by rw [value]; exact some_ne_none _), final,
    final_bind, value_observe, final_observe]

end Data

section Writes

variable {board : Board} {image : Image} {e : Nat}
  (below : (e : Int) ≤ (kerSysFlashInit board).variableArea.startBlk)
  (clear : WrittenBelow board image.tag e) (sequence : UInt32)
include below clear

theorem within_writeBody :
    Within (start board.sizes 1) (start board.sizes e) (writeBody board image sequence) := by
  have found := Int.toNat_of_nonneg clear.body_pos.le
  have pos := clear.body_pos
  have lt := clear.body_lt
  exact (within_kerSysBcmImageSet _ below _ found.symm (by omega) (by omega) clear.body_ends).mono
    (start_mono board.sizes (by omega)) (le_refl _)

theorem within_writeTag :
    Within (start board.sizes (fsBlk board image.tag).toNat)
      (start board.sizes ((fsBlk board image.tag).toNat + 1)) (writeTag board image sequence) := by
  have found := Int.toNat_of_nonneg clear.tag_pos.le
  have pos := clear.tag_pos
  have lt := clear.tag_lt
  have next := start_succ board.sizes (fsBlk board image.tag).toNat
  exact within_kerSysBcmImageSet (e := (fsBlk board image.tag).toNat + 1) _ (by omega) _ found.symm
    (by omega) (by omega) (by rw [ulSectorSize]; omega)

theorem keepsByte_writes (v : UInt8) (outside : x < start board.sizes 1 ∨ start board.sizes e ≤ x) :
    KeepsByte x v (writeBody board image sequence) ∧
      KeepsByte x v (writeTag board image sequence) := by
  have pos := clear.tag_pos
  have lt := clear.tag_lt
  have lower := start_mono board.sizes (show 1 ≤ (fsBlk board image.tag).toNat by omega)
  have upper := start_mono board.sizes (show (fsBlk board image.tag).toNat + 1 ≤ e by omega)
  exact ⟨(within_writeBody below clear sequence).keepsByte outside,
    (within_writeTag below clear sequence).keepsByte (by omega)⟩

variable (nonneg : 0 ≤ bodySize board image.tag) (known : e ≤ board.sizes.length)
include nonneg known

theorem writes_succeed (chip : Chip) :
    (writeBody board image sequence).value chip = some 0 ∧
      (writeTag board image sequence).value chip = some 0 := by
  have foundBody := Int.toNat_of_nonneg clear.body_pos.le
  have foundTag := Int.toNat_of_nonneg clear.tag_pos.le
  obtain ⟨tag_pos, tag_lt, body_pos, body_lt, body_ends⟩ := clear
  have next := start_succ board.sizes (fsBlk board image.tag).toNat
  have last := start_mono board.sizes (show (fsBlk board image.tag).toNat + 1 ≤ e by omega)
  exact ⟨(kerSysBcmImageSet_spec _ below _ foundBody.symm (by omega) (by omega) body_ends nonneg
      known chip).1,
    (kerSysBcmImageSet_spec _ below _ foundTag.symm (by omega) (by omega)
      (by rw [ulSectorSize]; omega) (by omega) known chip).1⟩

theorem final_update (ok : LookupsSucceed board)
    (accepted : imgSize image.tag ≤ availableSizeOneImg board image.tag) (stack : List UInt8)
    {s : Chip} (marked : s = store chip (flagAddr board) (acFlag 0x33)) :
    (flashFsKernelImage board stack image).final chip =
      (markDone board stack (nvramData chip)).final
        ((writeTag board image (newImageSequence board.sizes s)).final
          ((writeBody board image (newImageSequence board.sizes s)).final s)) := by
  have pos := clear.tag_pos
  have written (t : Chip) :=
    writes_succeed below clear (newImageSequence board.sizes s) nonneg known t
  rw [final_flashFsKernelImage ok accepted, ← marked, writeImage, if_neg (by omega),
    final_ifOk (written _).1, final_ifOk (written _).2]

end Writes

section Nvram

variable {board : Board}

theorem kerSysNvRamSet_final (board : Board) {string : List UInt8}
    (length : string.length = sizeofNvramData) (chip : Chip) :
    (kerSysNvRamSet board string 0).final chip = chip ∨
      (kerSysNvRamSet board string 0).final chip = store chip nvramDataOffset string := by
  have short : (string.length : Int) ≤ (kerSysFlashInit board).nvram.length := by
    rw [length]
    change (sizeofNvramData : Int) ≤ (nvramLength : Int)
    decide
  by_cases inside : nvramDataOffset + 0 + string.length ≤
      start board.sizes 1 - start board.sizes 0
  · have stored := (partSet_spec (nvram_owns board) string 0 short inside chip).2
    rw [start_zero, Nat.zero_add] at stored
    exact .inr stored
  · exact .inl (partSet_overrun (nvram_owns board) string 0 short (by omega) chip).2

theorem length_nvramLatest (length : nvram.length = sizeofNvramData) (i : Nat) :
    (nvramLatest nvram i).length = sizeofNvramData := by
  have word (w : UInt32) : ulCheckSumAt + (msbBytes w).length = sizeofNvramData := rfl
  have cleared : (overwrite (nvram.set (szBootlineAt + (i + 2)) bootLatestImage) ulCheckSumAt
      (msbBytes 0)).length = sizeofNvramData := by
    rw [length_overwrite (by rw [word, length_set, length]), length_set, length]
  rw [nvramLatest, length_overwrite (by rw [word, cleared]), cleared]

theorem take_nvramLatest (length : nvram.length = sizeofNvramData) (i : Nat) :
    (nvramLatest nvram i).take ulCheckSumAt =
      (nvram.set (szBootlineAt + (i + 2)) bootLatestImage).take ulCheckSumAt := by
  have front : ((nvram.set (szBootlineAt + (i + 2)) bootLatestImage).take ulCheckSumAt).length =
      ulCheckSumAt := by
    rw [length_take, length_set, length]
    rfl
  simp only [nvramLatest, overwrite]
  rw [append_assoc, take_left' (by simp [front]), append_assoc,
    take_left' front]

theorem length_nvramData (chip : Chip) : (nvramData chip).length = sizeofNvramData :=
  length_load _ _ _

theorem nvramLatest_digit (length : nvram.length = sizeofNvramData)
    (inside : szBootlineAt + (i + 2) < ulCheckSumAt) :
    (nvramLatest nvram i)[szBootlineAt + (i + 2)]? = some bootLatestImage := by
  have small : ulCheckSumAt < sizeofNvramData := by decide
  rw [← getElem?_take_of_lt inside, take_nvramLatest length, getElem?_take_of_lt inside,
    getElem?_set_self (by omega)]

theorem nvramLatest_keeps (chip : Chip) (lower : nvramDataOffset ≤ x)
    (upper : x < nvramDataOffset + ulCheckSumAt)
    (ne : x ≠ nvramDataOffset + (szBootlineAt + (i + 2))) :
    store chip nvramDataOffset (nvramLatest (nvramData chip) i) x = chip x := by
  have length := length_nvramData chip
  have small : ulCheckSumAt < sizeofNvramData := by decide
  have byte : (nvramLatest (nvramData chip) i)[x - nvramDataOffset]? = some (chip x) := by
    have front := congrArg (fun l : List UInt8 => l[x - nvramDataOffset]?)
      (take_nvramLatest length i)
    rw [getElem?_take_of_lt (by omega), getElem?_take_of_lt (by omega),
      getElem?_set_ne (by omega)] at front
    rw [front, nvramData, getElem?_load, if_pos (by omega), Nat.add_sub_cancel' lower]
  rw [store, if_pos lower, List.getD, byte]
  rfl

theorem setBootline_spec (room : nvramDataOffset + sizeofNvramData ≤ start board.sizes 1)
    (stack : List UInt8) (length : nvram.length = sizeofNvramData) (chip : Chip) :
    (setBootline board stack nvram).value chip = some 0 ∧
      (setBootline board stack nvram).final chip =
        match otherPartition stack nvram with
        | none => chip
        | some i => store chip nvramDataOffset (nvramLatest nvram i) := by
  rw [setBootline]
  cases otherPartition stack nvram with
  | none => exact ⟨rfl, rfl⟩
  | some i =>
    have size := length_nvramLatest length i
    have short : ((nvramLatest nvram i).length : Int) ≤ (kerSysFlashInit board).nvram.length := by
      rw [size]
      change (sizeofNvramData : Int) ≤ (nvramLength : Int)
      decide
    obtain ⟨value, final⟩ := partSet_spec (nvram_owns board) (nvramLatest nvram i) 0 short
      (by rw [size, start_zero]; omega) chip
    exact ⟨value, final⟩

theorem within_setBootline (stack nvram : List UInt8) :
    Within (start board.sizes 0) (start board.sizes 1) (setBootline board stack nvram) := by
  rw [setBootline]
  split
  · exact within_pure _
  · exact (nvram_owns board).within_partSet _ 0

def BootlineByte (stack : List UInt8) (chip : Chip) (x : Nat) : Prop :=
  ∃ i, otherPartition stack (nvramData chip) = some i ∧
    (x = nvramDataOffset + (szBootlineAt + (i + 2)) ∨
      nvramDataOffset + ulCheckSumAt ≤ x ∧ x < nvramDataOffset + sizeofNvramData)

theorem keepsByte_setBootline (other : ¬ BootlineByte stack chip x) :
    KeepsByte x (chip x) (setBootline board stack (nvramData chip)) := by
  rw [setBootline]
  split
  · exact keepsByte_pure _
  · rename_i i asked
    intro s same
    have size := length_nvramLatest (length_nvramData chip) i
    rcases kerSysNvRamSet_final board size s with unchanged | stored
    · rw [unchanged, same]
    · rw [stored]
      by_cases inside : nvramDataOffset ≤ x ∧ x < nvramDataOffset + sizeofNvramData
      · have keep := nvramLatest_keeps chip inside.1
          (by by_contra late; exact other ⟨i, asked, .inr ⟨by omega, inside.2⟩⟩)
          (fun digit => other ⟨i, asked, .inl digit⟩)
        rw [← keep]
        have within : x - nvramDataOffset < (nvramLatest (nvramData chip) i).length := by
          omega
        rw [store_apply_inside inside.1 within, store_apply_inside inside.1 within]
      · rw [store_apply_outside (by rw [size]; omega), same]

end Nvram

theorem keepsByte_update
    (flag : ∀ digit, KeepsByte x (chip x) (kerSysVariableSet board (acFlag digit) flagOffset))
    (writes : ∀ sequence, KeepsByte x (chip x) (writeBody board image sequence) ∧
      KeepsByte x (chip x) (writeTag board image sequence))
    (bootline : KeepsByte x (chip x) (setBootline board stack (nvramData chip))) :
    (flashFsKernelImage board stack image).final chip x = chip x := by
  rw [flashFsKernelImage, final_bind, value_observe, final_observe]
  split
  · rfl
  · refine keepsByte_regardless (flag _) ((keepsByte_observe _).bind fun sequence => ?_) chip rfl
    rw [writeImage]
    split
    · exact keepsByte_pure _
    · exact keepsByte_ifOk (writes _).1 (keepsByte_ifOk (writes _).2
        (keepsByte_regardless bootline (keepsByte_regardless (flag _) (keepsByte_pure _))))

/-- **What an update leaves alone.** An update whose sectors lie between the boot sector and the
partitions changes no byte of a partition except the flag in the variable area. In the boot sector
it changes nothing unless the boot line asks for another image than the latest one, and then only
that digit and the checksum of the NVRAM data. -/
theorem update_keeps_data {board : Board} (ok : LookupsSucceed board) (stack : List UInt8)
    (image : Image) (clear : WrittenBelow board image.tag (dataBlk board)) (chip : Chip) :
    (∀ p ∈ (kerSysFlashInit board).partitions, ∀ x : Nat, (x : Int) ∈ p.bytes board.sizes →
      (x < flagAddr board ∨ flagAddr board + 8 ≤ x) →
      (flashFsKernelImage board stack image).final chip x = chip x) ∧
    (∀ x : Nat, (x : Int) ∈ bootSector board.sizes →
      (flashFsKernelImage board stack image).final chip x = chip x ∨
        BootlineByte stack chip x) := by
  have below := dataBlk_le ok (variableArea_mem board)
  have second : start board.sizes 1 ≤ start board.sizes (dataBlk board) := by
    have := clear.tag_pos
    have := clear.tag_lt
    exact start_mono board.sizes (by omega)
  constructor
  · intro p mem x inside apart
    have behind : start board.sizes (dataBlk board) ≤ x := by
      obtain ⟨b, e, placed, -⟩ := (descends_partitions ok).exists_placed mem
      have := start_dataBlk_le ok mem
      have lower := inside.1
      have offset := placed.blkOffset_nonneg
      rw [placed.first_eq] at lower
      rw [placed.addr_eq] at this
      omega
    exact keepsByte_update (fun digit => keepsByte_kerSysVariableSet ok digit apart)
      (fun sequence => keepsByte_writes below clear sequence _ (.inr behind))
      ((within_setBootline stack _).keepsByte (.inr (second.trans behind)))
  · intro x boot
    by_cases changed : BootlineByte stack chip x
    · exact .inr changed
    · left
      have early : x < start board.sizes 1 := by
        rw [show (1 : Nat) = 0 + 1 from rfl, start_succ, start_zero]
        have := boot.2
        omega
      have flag : x < flagAddr board := by
        have := start_dataBlk_le ok (variableArea_mem board)
        rw [flagAddr]
        omega
      exact keepsByte_update (fun digit => keepsByte_kerSysVariableSet ok digit (.inl flag))
        (fun sequence => keepsByte_writes below clear sequence _ (.inl early))
        (keepsByte_setBootline changed)

/-! ## An image of two sectors -/

def field (width : Nat) (text : String) : List UInt8 :=
  ascii text ++ replicate (width - (ascii text).length) 0

def sampleTag (rootfsLen : String) : List UInt8 :=
  replicate rootfsAddressAt 0 ++ field 12 "3217162496" ++ field 10 rootfsLen ++
    replicate 12 0 ++ field 10 "0" ++ replicate (tagLen - imageSequenceAt) 0

def twoSectors : Image :=
  ⟨sampleTag "65536", [], by decide +kernel⟩

theorem twoSectors_below :
    WrittenBelow sixteenSectors twoSectors.tag (dataBlk sixteenSectors) := by
  constructor <;> decide +kernel

theorem update_keeps_data_twoSectors :
    LookupsSucceed sixteenSectors ∧
      WrittenBelow sixteenSectors twoSectors.tag (dataBlk sixteenSectors) ∧
      (flashFsKernelImage sixteenSectors [] twoSectors).final (fun _ => 0x55) 0xFFFFF = 0x55 :=
  ⟨by decide, twoSectors_below,
    (update_keeps_data (by decide) [] twoSectors twoSectors_below fun _ => 0x55).1
      (kerSysFlashInit sixteenSectors).persistent (by decide) 0xFFFFF ⟨by decide, by decide⟩
      (.inr (by decide))⟩

theorem final_markDone (ok : LookupsSucceed board)
    (room : nvramDataOffset + sizeofNvramData ≤ start board.sizes 1) (stack : List UInt8)
    (length : nvram.length = sizeofNvramData) (chip : Chip) :
    (markDone board stack nvram).final chip =
      store ((setBootline board stack nvram).final chip) (flagAddr board) (acFlag 0x31) := by
  have bootline := (setBootline_spec room stack length chip).1
  obtain ⟨value, final⟩ := kerSysVariableSet_flag ok 0x31
    ((setBootline board stack nvram).final chip)
  rw [markDone, final_regardless (by rw [bootline]; exact some_ne_none _),
    final_regardless (by rw [value]; exact some_ne_none _), final, final_pure]

theorem update_sets_bootline (ok : LookupsSucceed board)
    (accepted : imgSize image.tag ≤ availableSizeOneImg board image.tag)
    (clear : WrittenBelow board image.tag (dataBlk board)) (nonneg : 0 ≤ bodySize board image.tag)
    (known : dataBlk board ≤ board.sizes.length)
    (room : nvramDataOffset + sizeofNvramData ≤ start board.sizes 1)
    (asked : otherPartition stack (nvramData chip) = some i)
    (inside : szBootlineAt + (i + 2) < ulCheckSumAt) :
    (flashFsKernelImage board stack image).final chip
      (nvramDataOffset + (szBootlineAt + (i + 2))) = bootLatestImage := by
  have below := dataBlk_le ok (variableArea_mem board)
  have length := length_nvramData chip
  have small : ulCheckSumAt < sizeofNvramData := by decide
  have flag : nvramDataOffset + (szBootlineAt + (i + 2)) < flagAddr board := by
    have first := start_dataBlk_le ok (variableArea_mem board)
    have pos := clear.tag_pos
    have lt := clear.tag_lt
    have boot := start_mono board.sizes (show 1 ≤ dataBlk board by omega)
    rw [flagAddr]
    omega
  rw [final_update below clear nonneg known ok accepted stack rfl,
    final_markDone ok room stack length, store_apply_of_lt _ flag,
    (setBootline_spec room stack length _).2, asked]
  dsimp only
  rw [store, if_pos (Nat.le_add_right _ _), Nat.add_sub_cancel_left, List.getD,
    nvramLatest_digit length inside]
  rfl

def asksForOther : Chip :=
  store (fun _ => 0) (nvramDataOffset + szBootlineAt) (ascii "p=1")

theorem update_changes_bootline :
    imgSize twoSectors.tag ≤ availableSizeOneImg sixteenSectors twoSectors.tag ∧
      ((nvramDataOffset + (szBootlineAt + 2) : Nat) : Int) ∈ bootSector sixteenSectors.sizes ∧
      asksForOther (nvramDataOffset + (szBootlineAt + 2)) = 0x31 ∧
      (flashFsKernelImage sixteenSectors [] twoSectors).final asksForOther
        (nvramDataOffset + (szBootlineAt + 2)) = 0x30 := by
  have accepted : imgSize twoSectors.tag ≤ availableSizeOneImg sixteenSectors twoSectors.tag := by
    decide +kernel
  have nonneg : 0 ≤ bodySize sixteenSectors twoSectors.tag := by
    decide +kernel
  have asked : otherPartition [] (nvramData asksForOther) = some 0 := by
    decide +kernel
  refine ⟨accepted, ⟨by decide, by decide⟩, by decide +kernel, ?_⟩
  exact update_sets_bootline (by decide) accepted twoSectors_below nonneg (by decide) (by decide)
    asked (by decide)

/-! ## What the size check lets through -/

def reachingData : Image :=
  ⟨sampleTag "400000", [], by decide +kernel⟩

theorem reachingData_below : WrittenBelow sixteenSectors reachingData.tag 9 := by
  constructor <;> decide +kernel

/-- **The reserve of 64K is less than the partitions take.** An image that passes the size check
overwrites the wireless parameters. -/
theorem accepted_image_overwrites_wlanparam :
    imgSize reachingData.tag ≤ availableSizeOneImg sixteenSectors reachingData.tag ∧
      (516096 : Int) ∈ (kerSysFlashInit sixteenSectors).wlanparam.bytes sixteenSectors.sizes ∧
      (flashFsKernelImage sixteenSectors [] reachingData).final (fun _ => 0x55) 516096 = 0 := by
  have accepted : imgSize reachingData.tag ≤
      availableSizeOneImg sixteenSectors reachingData.tag := by
    decide +kernel
  have nonneg : 0 ≤ bodySize sixteenSectors reachingData.tag := by
    decide +kernel
  have ok : LookupsSucceed sixteenSectors := by decide
  have below : ((9 : Nat) : Int) ≤ (kerSysFlashInit sixteenSectors).variableArea.startBlk := by
    decide
  have found : cfiFlashGetBlk sixteenSectors.sizes (bodyAddr sixteenSectors reachingData.tag) =
      (3 : Nat) := by
    decide +kernel
  refine ⟨accepted, ⟨by decide, by decide⟩, ?_⟩
  generalize marked : store (fun _ => 0x55) (flagAddr sixteenSectors) (acFlag 0x33) = s
  rw [final_update below reachingData_below nonneg (by decide) ok accepted [] marked.symm,
    final_markDone ok (by decide) [] (length_nvramData _), store_apply_of_lt _ (by decide),
    (within_setBootline [] _).final _ (.inr (by decide)),
    (within_writeTag below reachingData_below _).final _ (.inr (by decide +kernel))]
  have written := (kerSysBcmImageSet_spec (reachingData.bytes
    (newImageSequence sixteenSectors.sizes s)) below
    (ulSectorSize sixteenSectors reachingData.tag) found (by decide) (by decide)
    (by decide +kernel) nonneg (by decide) s).2 319488 (by decide +kernel)
  have position : start sixteenSectors.sizes 3 + 319488 = 516096 := by decide
  rw [position] at written
  have behind : (reachingData.newTag (newImageSequence sixteenSectors.sizes s) ++
      reachingData.body).length ≤ ulSectorSize sixteenSectors reachingData.tag + 319488 := by
    rw [length_append, Image.length_newTag]
    decide +kernel
  rw [writeBody, written, Image.bytes, List.getD, getElem?_eq_none behind]
  rfl

end EchoLife.Firmware
