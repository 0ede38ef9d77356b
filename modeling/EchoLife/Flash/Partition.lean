import EchoLife.Flash.Layout

/-!
# Reading and writing partitions

Four pairs of functions with one body read and write partitions: the call is refused when the length
exceeds the partition's, otherwise all its sectors are read into a buffer, the range is copied, and
the sectors are written back. Nothing compares the offset with the partition's length; a copy that
leaves the buffer is `none`.

`partSet_spec` and `partGet_spec` read the two bodies as one store and one load, and `frameLaw_iff`
says when the code provides the `FrameLaw`.
-/

namespace EchoLife.Flash

open List Option BlockTable ByteStore CrashTrace Traced

/-! ## The common bodies -/

def memcpyTo (pBuf : List UInt8) (pos : Int) (string : List UInt8) : Option (List UInt8) :=
  if 0 ≤ pos ∧ pos + string.length ≤ pBuf.length then some (overwrite pBuf pos.toNat string)
  else none

def memcpyFrom (pBuf : List UInt8) (pos : Int) (strLen : Nat) : Option (List UInt8) :=
  if 0 ≤ pos ∧ pos + strLen ≤ pBuf.length then some ((pBuf.drop pos.toNat).take strLen)
  else none

def partSet (sizes : List Nat) (part : FlashPart) (string : List UInt8) (offset : Nat) :
    DriverM (Option Int) := do
  if string.length > part.length then return some (-1)
  let pBuf ← .observe (getSharedBlks sizes part.startBlk (part.startBlk + part.numberBlk))
  match memcpyTo pBuf (part.blkOffset + offset) string with
  | none => return none
  | some pBuf =>
    let sts ← setSharedBlks sizes part.startBlk (part.numberBlk + part.startBlk) pBuf
    return some (if sts ≠ 0 then -1 else 0)

def partGet (sizes : List Nat) (part : FlashPart) (strLen offset : Nat) (chip : Chip) :
    Option (Int × List UInt8) :=
  if strLen > part.length then some (-1, [])
  else
    let pBuf := getSharedBlks sizes part.startBlk (part.startBlk + part.numberBlk) chip
    match memcpyFrom pBuf (part.blkOffset + offset) strLen with
    | none => none
    | some string => some (0, string)

/-! ## The calls -/

def kerSysNvRamSet (board : Board) (string : List UInt8) (offset : Nat) : DriverM (Option Int) :=
  partSet board.sizes (kerSysFlashInit board).nvram string offset

def kerSysNvRamGet (board : Board) (strLen offset : Nat) (chip : Chip) :
    Option (Int × List UInt8) :=
  partGet board.sizes (kerSysFlashInit board).nvram strLen offset chip

def kerSysPersistentSet (board : Board) (string : List UInt8) (offset : Nat) :
    DriverM (Option Int) :=
  partSet board.sizes (kerSysFlashInit board).persistent string offset

def kerSysPersistentGet (board : Board) (strLen offset : Nat) (chip : Chip) :
    Option (Int × List UInt8) :=
  partGet board.sizes (kerSysFlashInit board).persistent strLen offset chip

def kerSysPsiBackupSet (board : Board) (string : List UInt8) (offset : Nat) :
    DriverM (Option Int) :=
  partSet board.sizes (kerSysFlashInit board).psiBackup string offset

def kerSysPsiBackupGet (board : Board) (strLen offset : Nat) (chip : Chip) :
    Option (Int × List UInt8) :=
  partGet board.sizes (kerSysFlashInit board).psiBackup strLen offset chip

def kerSysVariableSet (board : Board) (string : List UInt8) (offset : Nat) :
    DriverM (Option Int) :=
  partSet board.sizes (kerSysFlashInit board).variableArea string offset

def kerSysVariableGet (board : Board) (strLen offset : Nat) (chip : Chip) :
    Option (Int × List UInt8) :=
  partGet board.sizes (kerSysFlashInit board).variableArea strLen offset chip

inductive PartCall where
  | nvRam
  | persistent
  | psiBackup
  | variableArea
  deriving Repr, DecidableEq

namespace PartCall

def part (board : Board) : PartCall → FlashPart
  | nvRam => (kerSysFlashInit board).nvram
  | persistent => (kerSysFlashInit board).persistent
  | psiBackup => (kerSysFlashInit board).psiBackup
  | variableArea => (kerSysFlashInit board).variableArea

def set (board : Board) : PartCall → List UInt8 → Nat → DriverM (Option Int)
  | nvRam => kerSysNvRamSet board
  | persistent => kerSysPersistentSet board
  | psiBackup => kerSysPsiBackupSet board
  | variableArea => kerSysVariableSet board

def get (board : Board) : PartCall → Nat → Nat → Chip → Option (Int × List UInt8)
  | nvRam => kerSysNvRamGet board
  | persistent => kerSysPersistentGet board
  | psiBackup => kerSysPsiBackupGet board
  | variableArea => kerSysVariableGet board

theorem set_eq (board : Board) (call : PartCall) :
    call.set board = partSet board.sizes (call.part board) := by
  cases call <;> rfl

theorem get_eq (board : Board) (call : PartCall) :
    call.get board = partGet board.sizes (call.part board) := by
  cases call <;> rfl

end PartCall

/-! ## The bodies as one store and one load -/

section Bodies

variable {sizes : List Nat} {part : FlashPart} {b e off : Nat}

structure Owns (sizes : List Nat) (part : FlashPart) (b e off : Nat) : Prop where
  startBlk : part.startBlk = b
  numberBlk : part.numberBlk = e - b
  blk_le : b ≤ e
  blkOffset : part.blkOffset = off

theorem Placed.owns (placed : Placed sizes part b e) :
    Owns sizes part b e part.blkOffset.toNat :=
  ⟨placed.startBlk, placed.numberBlk, placed.blk_le,
    (Int.toNat_of_nonneg placed.blkOffset_nonneg).symm⟩

theorem Owns.getSharedBlks_eq (owns : Owns sizes part b e off) (chip : Chip) :
    getSharedBlks sizes part.startBlk (part.startBlk + part.numberBlk) chip =
      load chip (start sizes b) (start sizes e - start sizes b) := by
  have count : (part.startBlk + part.numberBlk - part.startBlk).toNat = e - b := by
    rw [owns.numberBlk]
    omega
  have span := start_add_spanSize sizes b (e - b)
  rw [Nat.add_sub_cancel' owns.blk_le] at span
  rw [getSharedBlks, count, owns.startBlk, Int.toNat_natCast, readBlks_eq]
  congr 1
  omega

theorem Owns.setSharedBlks_eq (owns : Owns sizes part b e off) (pBuf : List UInt8) :
    setSharedBlks sizes part.startBlk (part.numberBlk + part.startBlk) pBuf =
      writeBlks sizes b (e - b) pBuf := by
  have count : (part.numberBlk + part.startBlk - part.startBlk).toNat = e - b := by
    rw [owns.numberBlk]
    omega
  rw [setSharedBlks, count, owns.startBlk, Int.toNat_natCast]

def sharedBuffer (sizes : List Nat) (b e pos : Nat) (string : List UInt8) (chip : Chip) :
    List UInt8 :=
  overwrite (load chip (start sizes b) (start sizes e - start sizes b)) pos string

theorem Owns.length_sharedBuffer (owns : Owns sizes part b e off) {pos : Nat}
    {string : List UInt8} (inside : pos + string.length ≤ start sizes e - start sizes b)
    (chip : Chip) :
    (sharedBuffer sizes b e pos string chip).length = spanSize sizes b (e - b) := by
  have span := start_add_spanSize sizes b (e - b)
  rw [Nat.add_sub_cancel' owns.blk_le] at span
  rw [sharedBuffer, length_overwrite (by simpa using inside), length_load]
  omega

theorem partSet_refused {string : List UInt8} {offset : Nat} (long : part.length < string.length) :
    partSet sizes part string offset = pure (some (-1)) := by
  simp only [partSet, gt_iff_lt, long, if_true]

section

variable (owns : Owns sizes part b e off)
include owns

theorem partSet_overrun (string : List UInt8) (offset : Nat)
    (short : string.length ≤ part.length)
    (outside : start sizes e - start sizes b < off + offset + string.length) (chip : Chip) :
    (partSet sizes part string offset).value chip = none ∧
      (partSet sizes part string offset).final chip = chip := by
  simp only [partSet, gt_iff_lt, not_lt.mpr short, if_false, value_bind, final_bind,
    value_observe, final_observe, owns.getSharedBlks_eq, owns.blkOffset, memcpyTo,
    length_load]
  rw [if_neg (by omega)]
  exact ⟨rfl, rfl⟩

theorem partSet_run {string : List UInt8} {offset : Nat}
    (short : string.length ≤ part.length)
    (inside : off + offset + string.length ≤ start sizes e - start sizes b) (chip : Chip) :
    (partSet sizes part string offset).value chip = some 0 ∧
      (partSet sizes part string offset).steps chip =
        (writeBlks sizes b (e - b) (sharedBuffer sizes b e (off + offset) string chip)).steps
          chip := by
  have full := owns.length_sharedBuffer inside chip
  have copied : memcpyTo (load chip (start sizes b) (start sizes e - start sizes b))
      (off + offset) string = some (sharedBuffer sizes b e (off + offset) string chip) := by
    rw [memcpyTo, length_load, if_pos (by omega)]
    rfl
  simp only [partSet, gt_iff_lt, not_lt.mpr short, if_false, value_bind, steps_bind,
    value_observe, final_observe, steps_observe, owns.getSharedBlks_eq,
    owns.blkOffset, copied, owns.setSharedBlks_eq, nil_append]
  simp [(writeBlks_spec chip b (e - b) _ full).1]

theorem partSet_spec (string : List UInt8) (offset : Nat)
    (short : string.length ≤ part.length)
    (inside : off + offset + string.length ≤ start sizes e - start sizes b) (chip : Chip) :
    (partSet sizes part string offset).value chip = some 0 ∧
      (partSet sizes part string offset).final chip =
        store chip (start sizes b + (off + offset)) string := by
  have run := partSet_run owns short inside chip
  have full := owns.length_sharedBuffer inside chip
  refine ⟨run.1, ?_⟩
  rw [final, run.2, ← final, (writeBlks_spec chip b (e - b) _ full).2, sharedBuffer,
    store_overwrite_load _ _ _ _ _ inside]

theorem partGet_spec {strLen offset : Nat}
    (short : strLen ≤ part.length)
    (inside : off + offset + strLen ≤ start sizes e - start sizes b) (chip : Chip) :
    partGet sizes part strLen offset chip =
      some (0, load chip (start sizes b + (off + offset)) strLen) := by
  have copied : memcpyFrom (load chip (start sizes b) (start sizes e - start sizes b))
      (off + offset) strLen = some (load chip (start sizes b + (off + offset)) strLen) := by
    rw [memcpyFrom, length_load, if_pos (by omega), ← Nat.cast_add, Int.toNat_natCast,
      drop_load _ _ _ _ (by omega), take_load _ _ _ _ (by omega)]
  simp only [partGet, gt_iff_lt, not_lt.mpr short, if_false, owns.getSharedBlks_eq, owns.blkOffset,
    copied]

theorem Owns.within_partSet (string : List UInt8)
    (offset : Nat) : Within (start sizes b) (start sizes e) (partSet sizes part string offset) := by
  have blk_le := owns.blk_le
  rw [partSet]
  split
  · exact within_pure _
  · refine Within.bind (within_observe _) fun pBuf => ?_
    split
    · exact within_pure _
    · refine Within.bind ?_ fun _ => within_pure _
      rw [owns.setSharedBlks_eq]
      have inside := @within_writeBlks sizes b (e - b)
      rw [Nat.add_sub_cancel' blk_le] at inside
      exact inside _

end

end Bodies

/-! ## Power failures -/

section Power

variable {sizes : List Nat} {p : FlashPart} {b e : Nat}

def FlashPart.addr (sizes : List Nat) (p : FlashPart) : Nat :=
  (p.first sizes).toNat

def FlashPart.contents (sizes : List Nat) (p : FlashPart) (chip : Chip) : List UInt8 :=
  load chip (p.addr sizes) p.length.toNat

@[simp] theorem FlashPart.length_contents (chip : Chip) :
    (p.contents sizes chip).length = p.length.toNat :=
  length_load _ _ _

section

variable (placed : Placed sizes p b e)
include placed

theorem Placed.addr_eq : p.addr sizes = start sizes b + p.blkOffset.toNat := by
  have nonneg := placed.blkOffset_nonneg
  rw [FlashPart.addr, placed.first_eq]
  omega

theorem Placed.addr_ends : p.addr sizes + p.length.toNat = start sizes e := by
  have offset := placed.blkOffset_nonneg
  have length := placed.length_nonneg
  have ends := placed.ends
  rw [placed.addr_eq]
  omega

theorem Placed.partGet_whole (chip : Chip) :
    partGet sizes p p.length.toNat 0 chip = some (0, p.contents sizes chip) := by
  have length := placed.length_nonneg
  have addr := placed.addr_eq
  have ends := placed.addr_ends
  rw [partGet_spec placed.owns (by omega) (by omega), FlashPart.contents, addr]
  rfl

theorem Placed.partSet_front {string : List UInt8} (fits : string.length ≤ p.length.toNat)
    (chip : Chip) :
    (partSet sizes p string 0).value chip = some 0 ∧
      (partSet sizes p string 0).final chip = store chip (p.addr sizes) string := by
  have length := placed.length_nonneg
  have addr := placed.addr_eq
  have ends := placed.addr_ends
  rw [addr]
  exact partSet_spec placed.owns string 0 (by omega) (by omega) chip

end

theorem FlashPart.contents_store {string : List UInt8} (fits : string.length ≤ p.length.toNat)
    (chip : Chip) : p.contents sizes (store chip (p.addr sizes) string) =
      overwrite (p.contents sizes chip) 0 string := by
  rw [contents, load_store_front _ _ _ fits, overwrite, take_zero, nil_append,
    Nat.zero_add, contents, drop_load _ _ _ _ fits]

theorem FlashPart.contents_congr {chip t : Chip}
    (same : ∀ x, p.addr sizes ≤ x → x < p.addr sizes + p.length.toNat → t x = chip x) :
    p.contents sizes t = p.contents sizes chip :=
  load_congr same

theorem Placed.drop_sectors (placed : Placed sizes p b e) (chip : Chip) :
    (load chip (start sizes b) (start sizes e - start sizes b)).drop p.blkOffset.toNat =
      p.contents sizes chip := by
  have addr := placed.addr_eq
  have ends := placed.addr_ends
  rw [drop_load _ _ _ _ (by omega), FlashPart.contents, addr]
  congr 1
  omega

def FlashPart.newSectors (sizes : List Nat) (p : FlashPart) (b e : Nat) (string : List UInt8)
    (chip : Chip) : List UInt8 :=
  sharedBuffer sizes b e (p.blkOffset.toNat + 0) string chip

section Written

variable (placed : Placed sizes p b e) {string : List UInt8}
  (fits : string.length ≤ p.length.toNat) {chip t : Chip}
include placed fits

theorem Placed.length_newSectors :
    (p.newSectors sizes b e string chip).length = spanSize sizes b (e - b) := by
  have addr := placed.addr_eq
  have ends := placed.addr_ends
  exact placed.owns.length_sharedBuffer (by omega) chip

theorem Placed.crash_partSet_iff : (partSet sizes p string 0).Crash chip t ↔
    ∃ j m, (j ≤ e - b ∧ m = 0 ∨ j < e - b ∧ m = size sizes (b + j)) ∧
      t = store chip (start sizes b) ((p.newSectors sizes b e string chip).take
        (spanSize sizes b j) ++ replicate m 0xFF) := by
  have length := placed.length_nonneg
  have addr := placed.addr_eq
  have ends := placed.addr_ends
  rw [← crash_writeBlks (placed.length_newSectors fits), Traced.Crash, Traced.Crash,
    (partSet_run placed.owns (by omega) (by omega) chip).2]
  rfl

theorem Placed.contents_stopped {n m : Nat} (covered : n + m ≤ start sizes e - start sizes b) :
    p.contents sizes (store chip (start sizes b)
        ((p.newSectors sizes b e string chip).take n ++ replicate m 0xFF)) =
      interrupted 0xFF (p.contents sizes chip) (overwrite (p.contents sizes chip) 0 string)
        (n - p.blkOffset.toNat) (m - (p.blkOffset.toNat - n)) := by
  have addr := placed.addr_eq
  have ends := placed.addr_ends
  have whole := start_add_spanSize sizes b (e - b)
  rw [Nat.add_sub_cancel' placed.blk_le] at whole
  have full : (p.newSectors sizes b e string chip).length = spanSize sizes b (e - b) :=
    placed.length_newSectors fits
  set buffer := p.newSectors sizes b e string chip with buffer_eq
  have size : (buffer.take n ++ replicate m (0xFF : UInt8)).length = n + m := by grind
  have sectors : load (store chip (start sizes b) (buffer.take n ++ replicate m 0xFF))
      (start sizes b) (start sizes e - start sizes b) =
      interrupted 0xFF (load chip (start sizes b) (start sizes e - start sizes b)) buffer n m := by
    rw [load_store_front _ _ _ (by omega), size, ← drop_load _ _ _ _ covered, interrupted]
  rw [← placed.drop_sectors, sectors, drop_interrupted _ _ _ _ (by omega), placed.drop_sectors,
    buffer_eq, FlashPart.newSectors, sharedBuffer, overwrite, overwrite, Nat.add_zero,
    append_assoc, drop_left' (by simp; omega), ← drop_drop, placed.drop_sectors,
    take_zero, nil_append, Nat.zero_add]

/-- **A power failure while a partition is written from its start on.** Nothing outside its
sectors changes, and the partition holds an interrupted rewrite; one that has begun and is not
complete takes two sectors. -/
theorem Placed.crash_partSet (crash : (partSet sizes p string 0).Crash chip t) :
    (∀ x, x < start sizes b ∨ start sizes e ≤ x → t x = chip x) ∧
      ∃ k m, k + m ≤ p.length.toNat ∧
        p.contents sizes t = interrupted 0xFF (p.contents sizes chip)
          (overwrite (p.contents sizes chip) 0 string) k m ∧
        (0 < k → k < p.length.toNat → b + 1 < e) := by
  obtain ⟨j, m, range, rfl⟩ := (placed.crash_partSet_iff fits).mp crash
  have addr := placed.addr_eq
  have ends := placed.addr_ends
  have blk_le := placed.blk_le
  have upTo := start_add_spanSize sizes b j
  have covered : spanSize sizes b j + m ≤ start sizes e - start sizes b := by
    rcases range with ⟨le, rfl⟩ | ⟨lt, rfl⟩
    · have := start_mono sizes (show b + j ≤ e by omega)
      omega
    · have next := start_succ sizes (b + j)
      have := start_mono sizes (show b + j + 1 ≤ e by omega)
      omega
  refine ⟨?_, _, _, ?_, placed.contents_stopped fits covered, ?_⟩
  · exact fun x outside => (placed.owns.within_partSet string 0).crash crash outside
  · omega
  · grind

end Written

end Power

/-! ## The frame law -/

def PartCall.named (board : Board) (call : PartCall) (strLen offset : Nat) : Set Int :=
  Set.Ico ((call.part board).first board.sizes + offset)
    ((call.part board).first board.sizes + offset + strLen)

/-- What a caller may expect from writing `strLen` bytes at `offset`, whatever the chip and the
bytes are. -/
structure FrameLaw (board : Board) (call : PartCall) (strLen offset : Nat) : Prop where
  returns : ∀ (chip : Chip) (string : List UInt8), string.length = strLen →
    (call.set board string offset).value chip ≠ none
  /-- A call that returns `0` changes the named bytes only. -/
  only : ∀ (chip : Chip) (string : List UInt8), string.length = strLen →
    (call.set board string offset).value chip = some 0 →
    ∀ x : Nat, (x : Int) ∉ call.named board strLen offset →
      (call.set board string offset).final chip x = chip x
  others : ∀ (chip : Chip) (string : List UInt8), string.length = strLen →
    (call.set board string offset).value chip = some 0 →
    ∀ q ∈ (kerSysFlashInit board).partitions, q ≠ call.part board →
      ∀ x : Nat, (x : Int) ∈ q.bytes board.sizes →
        (call.set board string offset).final chip x = chip x
  boot : ∀ (chip : Chip) (string : List UInt8), string.length = strLen →
    (call.set board string offset).value chip = some 0 →
    ∀ x : Nat, (x : Int) ∈ bootSector board.sizes →
      (x : Int) ∉ (kerSysFlashInit board).nvram.bytes board.sizes →
      (call.set board string offset).final chip x = chip x
  readBack : ∀ (chip : Chip) (string : List UInt8), string.length = strLen →
    (call.set board string offset).value chip = some 0 →
    call.get board strLen offset ((call.set board string offset).final chip) = some (0, string)
  /-- A range that does not fit is refused and nothing changes. -/
  refused : ¬ offset + strLen ≤ (call.part board).length →
    ∀ (chip : Chip) (string : List UInt8), string.length = strLen →
      (call.set board string offset).value chip = some (-1) ∧
        (call.set board string offset).final chip = chip

def CallOk (board : Board) (call : PartCall) (strLen offset : Nat) : Prop :=
  (call.part board).length < strLen ∨
    offset + strLen ≤ (call.part board).length ∧
      (call = .nvRam → nvramDataOffset + offset + strLen ≤ size board.sizes 0 ∧
        ∀ q ∈ (kerSysFlashInit board).partitions,
          Disjoint (q.bytes board.sizes) (call.named board strLen offset))

theorem nvram_owns (board : Board) :
    Owns board.sizes (kerSysFlashInit board).nvram 0 1 nvramDataOffset :=
  ⟨rfl, rfl, by omega, rfl⟩

open PartCall

theorem PartCall.part_mem_upper (board : Board) {call : PartCall} (h : call ≠ .nvRam) :
    call.part board ∈ (kerSysFlashInit board).upper := by
  cases call <;> simp [part, FlashAddrInfo.upper] at h ⊢

theorem ne_nvram_of_mem {board : Board} (ok : LookupsSucceed board) {q : FlashPart}
    (h : q ∈ (kerSysFlashInit board).partitions) : q ≠ (kerSysFlashInit board).nvram := by
  rintro rfl
  rcases mem_append.mp h with upper | last
  · have : (0 : Int) < 0 := startBlk_pos_of_upper ok upper
    omega
  · have same : (kerSysFlashInit board).nvram.length = (kerSysFlashInit board).wlanparam.length :=
      congrArg FlashPart.length (mem_singleton.mp last)
    have : (nvramLength : Int) = board.wlanparamLength := same
    unfold Board.wlanparamLength at this
    split at this
    · exact absurd this (by decide)
    · exact absurd this (by decide)

section Law

variable {board : Board} {call : PartCall} {strLen offset b e off : Nat}

theorem Owns.named_eq (owns : Owns board.sizes (call.part board) b e off) :
    call.named board strLen offset = Set.Ico ((start board.sizes b + (off + offset) : Nat) : Int)
      ((start board.sizes b + (off + offset) + strLen : Nat) : Int) := by
  rw [named, FlashPart.first, owns.startBlk, owns.blkOffset, sectorAddr,
    Int.toNat_natCast]
  push_cast
  rw [← add_assoc]

theorem frameLaw_of_inside (owns : Owns board.sizes (call.part board) b e off)
    (fits : offset + strLen ≤ (call.part board).length)
    (inside : off + offset + strLen ≤ start board.sizes e - start board.sizes b)
    (apart : ∀ q ∈ (kerSysFlashInit board).partitions, q ≠ call.part board →
      Disjoint (q.bytes board.sizes) (call.named board strLen offset))
    (boot : Disjoint (bootSector board.sizes \ (kerSysFlashInit board).nvram.bytes board.sizes)
      (call.named board strLen offset)) : FrameLaw board call strLen offset := by
  have spec (chip : Chip) (string : List UInt8) (len : string.length = strLen) :
      (call.set board string offset).value chip = some 0 ∧
        (call.set board string offset).final chip =
          store chip (start board.sizes b + (off + offset)) string := by
    rw [call.set_eq]
    exact partSet_spec owns string offset (by omega) (by omega) chip
  have unchanged (chip : Chip) (string : List UInt8) (len : string.length = strLen) (x : Nat)
      (h : (x : Int) ∉ call.named board strLen offset) :
      (call.set board string offset).final chip x = chip x := by
    rw [(spec chip string len).2]
    rw [owns.named_eq, Set.mem_Ico] at h
    exact store_apply_outside (by omega)
  constructor
  case returns =>
    intro chip string len
    rw [(spec chip string len).1]
    exact some_ne_none _
  case only => exact fun chip string len _ => unchanged chip string len
  case others =>
    intro chip string len _ q hq ne x hx
    exact unchanged chip string len x (Set.disjoint_left.mp (apart q hq ne) hx)
  case boot =>
    intro chip string len _ x hx hn
    exact unchanged chip string len x (Set.disjoint_left.mp boot ⟨hx, hn⟩)
  case readBack =>
    intro chip string len _
    rw [(spec chip string len).2, call.get_eq, partGet_spec owns (by omega) inside, ← len,
      load_store_self]
  case refused => exact fun h => absurd fits h

theorem frameLaw_of_long (long : (call.part board).length < strLen) :
    FrameLaw board call strLen offset := by
  have refused (string : List UInt8) (len : string.length = strLen) :
      call.set board string offset = pure (some (-1)) := by
    rw [call.set_eq]
    exact partSet_refused (by omega)
  have value (chip : Chip) (string : List UInt8) (len : string.length = strLen) :
      (call.set board string offset).value chip = some (-1) := by
    rw [refused string len, value_pure]
  have never (chip : Chip) (string : List UInt8) (len : string.length = strLen) :
      (call.set board string offset).value chip ≠ some 0 := by
    rw [value chip string len]
    decide
  constructor
  case returns =>
    intro chip string len
    rw [value chip string len]
    exact some_ne_none _
  case only => exact fun chip string len zero => absurd zero (never chip string len)
  case others => exact fun chip string len zero => absurd zero (never chip string len)
  case boot => exact fun chip string len zero => absurd zero (never chip string len)
  case readBack => exact fun chip string len zero => absurd zero (never chip string len)
  case refused =>
    intro _ chip string len
    exact ⟨value chip string len, by rw [refused string len, final_pure]⟩

theorem frameLaw_of_placed (ok : LookupsSucceed board) (ne : call ≠ .nvRam)
    (fits : offset + strLen ≤ (call.part board).length) : FrameLaw board call strLen offset := by
  have upper := call.part_mem_upper board ne
  have member : call.part board ∈ (kerSysFlashInit board).partitions :=
    mem_append_left _ upper
  obtain ⟨b, e, placed, -⟩ := (descends_partitions ok).exists_placed member
  have first := startBlk_pos_of_upper ok upper
  have ends := placed.ends
  have nonneg := placed.blkOffset_nonneg
  have sub : call.named board strLen offset ⊆ (call.part board).bytes board.sizes :=
    Set.Ico_subset_Ico (by omega) (by omega)
  refine frameLaw_of_inside placed.owns fits (by omega) ?_ ?_
  · intro q hq ne'
    exact ((descends_partitions ok).disjoint hq member ne').mono_right sub
  · have clear := placed.disjoint_bootSector (by rw [placed.startBlk] at first; omega)
    exact (clear.mono_left sub).symm.mono_left Set.sdiff_subset

theorem frameLaw_of_nvRam (fits : offset + strLen ≤ ((nvRam).part board).length)
    (inFirst : nvramDataOffset + offset + strLen ≤ size board.sizes 0)
    (apart : ∀ q ∈ (kerSysFlashInit board).partitions,
      Disjoint (q.bytes board.sizes) ((nvRam).named board strLen offset)) :
    FrameLaw board .nvRam strLen offset := by
  have sub : (nvRam).named board strLen offset ⊆
      (kerSysFlashInit board).nvram.bytes board.sizes := by
    have fits : offset + strLen ≤ (kerSysFlashInit board).nvram.length := fits
    exact Set.Ico_subset_Ico (by dsimp only [part]; omega)
      (by dsimp only [part]; omega)
  refine frameLaw_of_inside (nvram_owns board) fits ?_ (fun q hq _ => apart q hq) ?_
  · rw [show (1 : Nat) = 0 + 1 from rfl, start_succ, start_zero]
    omega
  · exact Set.disjoint_left.mpr fun x hx hn => hx.2 (sub hn)

theorem Owns.value_ne_refused (owns : Owns board.sizes (call.part board) b e off)
    {string : List UInt8} (short : string.length ≤ (call.part board).length) (chip : Chip) :
    (call.set board string offset).value chip ≠ some (-1) := by
  rw [call.set_eq]
  by_cases inside : off + offset + string.length ≤ start board.sizes e - start board.sizes b
  · rw [(partSet_spec owns string offset short inside chip).1]
    decide
  · rw [(partSet_overrun owns string offset short (by omega) chip).1]
    exact (some_ne_none _).symm

theorem PartCall.exists_owns (ok : LookupsSucceed board) (call : PartCall) :
    ∃ b e off, Owns board.sizes (call.part board) b e off := by
  by_cases nvRam : call = .nvRam
  · subst nvRam
    exact ⟨_, _, _, nvram_owns board⟩
  · obtain ⟨b, e, placed, -⟩ := (descends_partitions ok).exists_placed
      (mem_append_left _ (call.part_mem_upper board nvRam))
    exact ⟨b, e, _, placed.owns⟩

theorem FrameLaw.nvRam_apart (ok : LookupsSucceed board)
    (law : FrameLaw board .nvRam strLen offset)
    (fits : offset + strLen ≤ ((nvRam).part board).length) :
    nvramDataOffset + offset + strLen ≤ size board.sizes 0 ∧
      ∀ q ∈ (kerSysFlashInit board).partitions,
        Disjoint (q.bytes board.sizes) ((nvRam).named board strLen offset) := by
  have span : start board.sizes 1 - start board.sizes 0 = size board.sizes 0 := by
    rw [show (1 : Nat) = 0 + 1 from rfl, start_succ, start_zero]
    omega
  have inFirst : nvramDataOffset + offset + strLen ≤ size board.sizes 0 := by
    by_contra outside
    have overrun := partSet_overrun (nvram_owns board) (replicate strLen 0) offset
      (by simp only [length_replicate]; exact le_trans (by omega) fits)
      (by simp only [length_replicate, span]; omega) (fun _ => 0)
    exact law.returns (fun _ => 0) (replicate strLen 0) (by simp) overrun.1
  refine ⟨inFirst, ?_⟩
  -- Writing ones over a chip of zeros changes every named byte, so none belongs to a partition.
  intro q hq
  have write := partSet_spec (nvram_owns board) (replicate strLen 1) offset
    (by simp only [length_replicate]; exact le_trans (by omega) fits)
    (by simp only [length_replicate, span]; omega) (fun _ => 0)
  rw [Set.disjoint_right]
  intro x named hx
  have owns : Owns board.sizes ((nvRam).part board) 0 1 nvramDataOffset :=
    nvram_owns board
  rw [owns.named_eq, Set.mem_Ico] at named
  obtain ⟨y, rfl⟩ : ∃ y : Nat, x = y := ⟨x.toNat, by omega⟩
  have kept := law.others (fun _ => 0) (replicate strLen 1) (by simp) write.1 q hq
    (ne_nvram_of_mem ok hq) y hx
  have changed : store (fun _ => (0 : UInt8))
      (start board.sizes 0 + (nvramDataOffset + offset)) (replicate strLen 1) y = 1 := by
    rw [store_apply_inside (by omega) (by simp only [length_replicate]; omega),
      getElem_replicate]
  exact absurd ((congrFun write.2 y).symm.trans kept) (by rw [changed]; decide)

end Law

/-- **When the frame law holds.** On every board whose lookups succeed, writing `strLen` bytes at
`offset` keeps the law exactly when the length alone is refused or the range fits, where for the
NVRAM data the first sector must hold the range and no partition may meet it. -/
theorem frameLaw_iff (board : Board) (ok : LookupsSucceed board) (call : PartCall)
    (strLen offset : Nat) :
    FrameLaw board call strLen offset ↔ CallOk board call strLen offset := by
  constructor
  · intro law
    by_cases long : (call.part board).length < strLen
    · exact .inl long
    · have fits : offset + strLen ≤ (call.part board).length := by
        by_contra outside
        obtain ⟨b, e, off, owns⟩ := call.exists_owns ok
        exact owns.value_ne_refused (by simpa using long) (fun _ => 0)
          (law.refused outside (fun _ => 0) (replicate strLen 0) (by simp)).1
      refine .inr ⟨fits, ?_⟩
      rintro rfl
      exact law.nvRam_apart ok fits
  · rintro (long | ⟨fits, nvRam⟩)
    · exact frameLaw_of_long long
    · by_cases isNvRam : call = .nvRam
      · subst isNvRam
        exact frameLaw_of_nvRam fits (nvRam rfl).1 (nvRam rfl).2
      · exact frameLaw_of_placed ok isNvRam fits

theorem frameLaw_persistent_sixteenSectors :
    LookupsSucceed sixteenSectors ∧ FrameLaw sixteenSectors .persistent 16 128 :=
  ⟨by decide, (frameLaw_iff sixteenSectors (by decide) .persistent 16 128).mpr
    (.inr ⟨by decide, nofun⟩)⟩

/-- One byte past the NVRAM data is written into the boot sector, and the call reports success. -/
theorem kerSysNvRamSet_past_end :
    LookupsSucceed sixteenSectors ∧
      ((kerSysNvRamSet sixteenSectors [1] nvramLength).value fun _ => 0) = some 0 ∧
      ((kerSysNvRamSet sixteenSectors [1] nvramLength).final fun _ => 0) 0x980 = 1 ∧
      ¬ FrameLaw sixteenSectors .nvRam 1 nvramLength := by
  have run := partSet_spec (nvram_owns sixteenSectors) [1] nvramLength (by decide) (by decide)
    fun _ => 0
  refine ⟨by decide, run.1, (congrFun run.2 0x980).trans (by decide), ?_⟩
  intro law
  have refused := (law.refused (by decide) (fun _ => 0) [1] rfl).1
  exact absurd (run.1.symm.trans refused) (by decide)

end EchoLife.Flash
