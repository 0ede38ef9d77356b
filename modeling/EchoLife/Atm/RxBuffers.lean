import EchoLife.Atm.RxQueue

/-!
# The buffers of a free queue

`CreateBdQ` allocates descriptors and buffers of a free queue. The buffers are carved out of blocks
of 128 KByte (`carved`, `carveBlock_ok`, `carve_reaches`), which are entered in a table of sixteen
places.

`createBdQ_iff` says when the call builds the queue (`Built`) or undoes everything (`Undone`). It
does neither when the buffers have no size, when the table is too small, and when the allocation of
the descriptors fails: the test for that looks at the address of the pointer.
-/

namespace EchoLife.Atm

open List

/-! ## The source -/

/-- What was asked of `pfnAlloc` and `pfnFree`. A block is known by the number of the call that
gave it. -/
structure BlockMemory where
  calls : Nat
  allocated : List (Nat × Nat)
  freed : List Nat
deriving DecidableEq, Repr

def BlockMemory.alloc (ok : Nat → Bool) (mem : BlockMemory) (size : Nat) :
    Option Nat × BlockMemory :=
  if ok mem.calls then
    (some mem.calls,
      { mem with calls := mem.calls + 1, allocated := mem.allocated ++ [(mem.calls, size)] })
  else (none, { mem with calls := mem.calls + 1 })

def BlockMemory.free (mem : BlockMemory) (block : Nat) : BlockMemory :=
  { mem with freed := mem.freed ++ [block] }

structure BlockAddr where
  block : Nat
  offset : Nat
deriving DecidableEq, Repr

structure RxBd where
  place : Nat
  bufPtr : BlockAddr
deriving DecidableEq, Repr

inductive Fault where
  | divideByZero
  | nullWrite
  | tableOverrun
deriving DecidableEq, Repr

def maxQSize : Nat := 512

def allocBlockSize : Nat := 128 * 1024

def bufMemPlaces : Nat := 16

def qBufAllocSize (usQBufSize usQBufOffset : Nat) : Nat :=
  (usQBufSize + usQBufOffset + 0x0f) / 16 * 16

structure Carving where
  ulSize : Nat
  mem : BlockMemory
  ppBufMem : List (Option Nat)
  pcBufAddrs : List BlockAddr
deriving DecidableEq, Repr

def carveBlock (ok : Nat → Bool) (ulBufsPerBlock ulQBufAllocSize : Nat) (s : Carving) :
    Option Nat × Carving :=
  let ulCurr := if s.ulSize < ulBufsPerBlock then s.ulSize else ulBufsPerBlock
  let ulAlloc := if ulCurr = s.ulSize then ulCurr * ulQBufAllocSize else allocBlockSize
  match s.mem.alloc ok ulAlloc with
  | (some p, mem) =>
    (some p, {
      ulSize := s.ulSize - ulCurr
      mem := mem
      ppBufMem := s.ppBufMem ++ [some p]
      pcBufAddrs := s.pcBufAddrs ++
        (List.range ulCurr).map fun i => ⟨p, i * ulQBufAllocSize⟩ })
  | (none, mem) => (none, { s with mem := mem, ppBufMem := s.ppBufMem ++ [none] })

def carve (ok : Nat → Bool) (ulBufsPerBlock ulQBufAllocSize : Nat) :
    (turns : Nat) → Carving → Except Fault (RxStatus × Carving)
  | 0, s => .ok (.success, s)
  | turns + 1, s =>
    if s.ulSize = 0 then .ok (.success, s)
    else if s.ppBufMem.length ≥ bufMemPlaces then .error .tableOverrun
    else
      match carveBlock ok ulBufsPerBlock ulQBufAllocSize s with
      | (some _, s') => carve ok ulBufsPerBlock ulQBufAllocSize turns s'
      | (none, s') => .ok (.allocError, s')

def fillBds (usQBufOffset : Nat) (pcBufAddrs : List BlockAddr) : List RxBd :=
  pcBufAddrs.zipIdx.map fun (pBuf, i) => ⟨i, ⟨pBuf.block, pBuf.offset + usQBufOffset⟩⟩

def addBds (pBdQ : AtmRxBdq RxBd) : List RxBd → RxStatus × AtmRxBdq RxBd
  | [] => (.success, pBdQ)
  | pBd :: rest =>
    match pBdQ.add pBd with
    | (.success, pBdQ') => addBds pBdQ' rest
    | (_, pBdQ') => (.resourceError, pBdQ')

structure BdQOutcome where
  status : RxStatus
  pBdQ : AtmRxBdq RxBd
  mem : BlockMemory
  ppBufMem : List (Option Nat)

/-- The end of `CreateBdQ`: after an error the blocks are freed up to the first empty place of the
table. -/
def freeBlocks (status : RxStatus) (pBdQ : AtmRxBdq RxBd) (ppQMem : Option Nat) (mem : BlockMemory)
    (ppBufMem : List (Option Nat)) : Except Fault BdQOutcome :=
  if status = .success then .ok ⟨status, pBdQ, mem, ppBufMem⟩
  else
    let blocks := ppBufMem.takeWhile (·.isSome)
    if blocks.length ≥ bufMemPlaces then .error .tableOverrun
    else
      let mem := ppQMem.toList.foldl .free mem
      let mem := (blocks.filterMap id).foldl .free mem
      .ok ⟨status, pBdQ, mem, blocks.map (fun _ => none) ++ ppBufMem.drop blocks.length⟩

def BlockMemory.start : BlockMemory := ⟨0, [], []⟩

/-- `ATM_PROCESSOR::CreateBdQ`; `ulElementSize` is the size of a descriptor with the structures
behind it. -/
def createBdQ (ok : Nat → Bool) (ulElementSize : Nat) (pBdQ : AtmRxBdq RxBd)
    (ulQSize usQBufSize usQBufOffset : Nat) : Except Fault BdQOutcome :=
  let ulQBufAllocSize := qBufAllocSize usQBufSize usQBufOffset
  -- one element of the queue stays open
  let ulQSize := ulQSize - 1
  if ulQSize < maxQSize then
    let (ppQMem, mem) := BlockMemory.start.alloc ok (ulElementSize * ulQSize + 0x10)
    if ulQBufAllocSize = 0 then .error .divideByZero
    else
      let ulBufsPerBlock := allocBlockSize / ulQBufAllocSize
      match carve ok ulBufsPerBlock ulQBufAllocSize ulQSize ⟨ulQSize, mem, [], []⟩ with
      | .error fault => .error fault
      | .ok (.success, s) =>
        -- the descriptors are cleared and filled in, wherever they are
        if ppQMem = none ∧ ulQSize > 0 then .error .nullWrite
        else
          let (status, pBdQ) := addBds pBdQ (fillBds usQBufOffset s.pcBufAddrs)
          freeBlocks status pBdQ ppQMem s.mem s.ppBufMem
      | .ok (status, s) => freeBlocks status pBdQ ppQMem s.mem s.ppBufMem
  else freeBlocks .parameterError pBdQ none BlockMemory.start []

/-! ## The blocks in closed form -/

section Carving

variable (n perBlock allocSize : Nat)

def buffersIn (j : Nat) : Nat := min (n - j * perBlock) perBlock

def blockSize (j : Nat) : Nat :=
  if n - j * perBlock ≤ perBlock then (n - j * perBlock) * allocSize else allocBlockSize

def bufferAt (i : Nat) : BlockAddr := ⟨i / perBlock + 1, i % perBlock * allocSize⟩

def carved (descriptors : List (Nat × Nat)) (k : Nat) : Carving where
  ulSize := n - k * perBlock
  mem := {
    calls := k + 1
    allocated := descriptors ++
      (List.range k).map fun j => (j + 1, blockSize n perBlock allocSize j)
    freed := [] }
  ppBufMem := (List.range k).map fun j => some (j + 1)
  pcBufAddrs := (List.range (min (k * perBlock) n)).map (bufferAt perBlock allocSize)

variable {n perBlock allocSize}

theorem bufferAt_block {k i : Nat} (inside : i < perBlock) :
    bufferAt perBlock allocSize (k * perBlock + i) = ⟨k + 1, i * allocSize⟩ := by
  have positive : 0 < perBlock := by omega
  rw [bufferAt, Nat.mul_comm k perBlock, Nat.mul_add_div positive, Nat.div_eq_of_lt inside,
    Nat.mul_add_mod, Nat.mod_eq_of_lt inside, Nat.add_zero]

theorem range_bufferAt_succ {k : Nat} (left : k * perBlock < n) :
    (List.range (min ((k + 1) * perBlock) n)).map (bufferAt perBlock allocSize) =
      (List.range (min (k * perBlock) n)).map (bufferAt perBlock allocSize) ++
        (List.range (buffersIn n perBlock k)).map fun i => ⟨k + 1, i * allocSize⟩ := by
  have more : min ((k + 1) * perBlock) n = k * perBlock + buffersIn n perBlock k := by
    rw [buffersIn, Nat.add_mul, Nat.one_mul]
    omega
  rw [more, Nat.min_eq_left left.le, range_add, map_append, List.map_map]
  congr 1
  refine map_congr_left fun i member => ?_
  have inside := mem_range.mp member
  rw [buffersIn] at inside
  exact bufferAt_block (by omega)

variable {ok : Nat → Bool} {descriptors : List (Nat × Nat)}

theorem ulCurr_eq (left : Nat) :
    (if left < perBlock then left else perBlock) = min left perBlock := by
  split <;> omega

theorem ulAlloc_eq (k : Nat) :
    (if min (n - k * perBlock) perBlock = n - k * perBlock then
      min (n - k * perBlock) perBlock * allocSize else allocBlockSize) =
      blockSize n perBlock allocSize k := by
  rw [blockSize]
  by_cases last : n - k * perBlock ≤ perBlock
  · rw [if_pos (Nat.min_eq_left last), if_pos last, Nat.min_eq_left last]
  · rw [if_neg (by omega), if_neg last]

theorem carveBlock_ok {k : Nat} (left : k * perBlock < n) (good : ok (k + 1) = true) :
    carveBlock ok perBlock allocSize (carved n perBlock allocSize descriptors k) =
      (some (k + 1), carved n perBlock allocSize descriptors (k + 1)) := by
  have rest : n - k * perBlock - min (n - k * perBlock) perBlock = n - (k + 1) * perBlock := by
    rw [Nat.add_mul, Nat.one_mul]
    omega
  have buffers := @range_bufferAt_succ n perBlock allocSize k left
  rw [buffersIn] at buffers
  rw [carveBlock, carved]
  simp only [carved, BlockMemory.alloc, good, if_true, ulCurr_eq, ulAlloc_eq, rest,
    buffers, range_succ, map_append, append_assoc, map_cons, map_nil]

def carvedFailed (n perBlock allocSize : Nat) (descriptors : List (Nat × Nat)) (k : Nat) :
    Carving :=
  let s := carved n perBlock allocSize descriptors k
  { s with mem := { s.mem with calls := k + 2 }, ppBufMem := s.ppBufMem ++ [none] }

theorem carveBlock_failed {k : Nat} (bad : ok (k + 1) = false) :
    carveBlock ok perBlock allocSize (carved n perBlock allocSize descriptors k) =
      (none, carvedFailed n perBlock allocSize descriptors k) := by
  simp only [carveBlock, carvedFailed, carved, BlockMemory.alloc, bad, if_false,
    Bool.false_eq_true]

theorem carve_turn (positive : 0 < perBlock) {k : Nat} (left : k * perBlock < n) :
    carve ok perBlock allocSize (n - k) (carved n perBlock allocSize descriptors k) =
      if bufMemPlaces ≤ k then .error .tableOverrun
      else
        match carveBlock ok perBlock allocSize (carved n perBlock allocSize descriptors k) with
        | (some _, s) => carve ok perBlock allocSize (n - (k + 1)) s
        | (none, s) => .ok (.allocError, s) := by
  have few : k ≤ k * perBlock := Nat.le_mul_of_pos_right k positive
  have more : n - k = n - (k + 1) + 1 := by omega
  have some_left : ¬ (carved n perBlock allocSize descriptors k).ulSize = 0 := by
    show ¬ n - k * perBlock = 0
    omega
  have entered : (carved n perBlock allocSize descriptors k).ppBufMem.length = k := by
    rw [carved, length_map, length_range]
  rw [more, carve, if_neg some_left, entered]

def blocks (n perBlock : Nat) : Nat := n ⌈/⌉ perBlock

section

variable (positive : 0 < perBlock)
include positive

theorem lt_blocks_iff {k : Nat} : k < blocks n perBlock ↔ k * perBlock < n := by
  rw [blocks, ← not_le, ceilDiv_le_iff_le_mul positive, not_le, Nat.mul_comm]

theorem carve_reaches {k : Nat} (table : k ≤ bufMemPlaces) (inside : k ≤ blocks n perBlock)
    (good : ∀ j < k, ok (j + 1) = true) :
    carve ok perBlock allocSize n (carved n perBlock allocSize descriptors 0) =
      carve ok perBlock allocSize (n - k) (carved n perBlock allocSize descriptors k) := by
  induction k with
  | zero => rfl
  | succ k ih =>
    have left := (lt_blocks_iff positive).mp (Nat.lt_of_succ_le inside)
    rw [ih (by omega) (by omega) fun j below => good j (by omega), carve_turn positive left,
      if_neg (by omega), carveBlock_ok left (good k (Nat.lt_succ_self k))]

theorem carve_all (table : blocks n perBlock ≤ bufMemPlaces)
    (good : ∀ j < blocks n perBlock, ok (j + 1) = true) :
    carve ok perBlock allocSize n (carved n perBlock allocSize descriptors 0) =
      .ok (.success, carved n perBlock allocSize descriptors (blocks n perBlock)) := by
  have last := mt (lt_blocks_iff (n := n) positive).mpr (lt_irrefl (blocks n perBlock))
  have done : (carved n perBlock allocSize descriptors (blocks n perBlock)).ulSize = 0 :=
    Nat.sub_eq_zero_of_le (not_lt.mp last)
  rw [carve_reaches positive table le_rfl good]
  cases n - blocks n perBlock with
  | zero => rfl
  | succ turns => rw [carve, if_pos done]

theorem carve_failed {k : Nat} (table : k < bufMemPlaces) (inside : k < blocks n perBlock)
    (good : ∀ j < k, ok (j + 1) = true) (bad : ok (k + 1) = false) :
    carve ok perBlock allocSize n (carved n perBlock allocSize descriptors 0) =
      .ok (.allocError, carvedFailed n perBlock allocSize descriptors k) := by
  rw [carve_reaches positive table.le inside.le good,
    carve_turn positive ((lt_blocks_iff positive).mp inside), if_neg table.not_ge,
    carveBlock_failed bad]

theorem carve_overrun (table : bufMemPlaces < blocks n perBlock)
    (good : ∀ j < bufMemPlaces, ok (j + 1) = true) :
    carve ok perBlock allocSize n (carved n perBlock allocSize descriptors 0) =
      .error .tableOverrun := by
  rw [carve_reaches positive le_rfl table.le good,
    carve_turn positive ((lt_blocks_iff positive).mp table), if_pos le_rfl]

end

end Carving

/-! ## What the call is for -/

def BlockAddr.Apart (size : Nat) (p q : BlockAddr) : Prop :=
  p.block ≠ q.block ∨ p.offset + size ≤ q.offset ∨ q.offset + size ≤ p.offset

def BlockMemory.Contains (mem : BlockMemory) (size : Nat) (p : BlockAddr) : Prop :=
  ∃ whole, (p.block, whole) ∈ mem.allocated ∧ p.offset + size ≤ whole

/-- The queue was built: `n` descriptors were added whose buffers are disjoint and lie in blocks
that are still there, and the table has a free place. -/
structure Built (n usQBufSize : Nat) (out : BdQOutcome) : Prop where
  status : out.status = .success
  added : ∃ bds, Holds out.pBdQ n 0 bds ∧
    bds.Pairwise (fun a b => a.bufPtr.Apart usQBufSize b.bufPtr) ∧
    ∀ bd ∈ bds, out.mem.Contains usQBufSize bd.bufPtr
  kept : out.mem.freed = []
  table : out.ppBufMem.length < bufMemPlaces

structure Undone (out : BdQOutcome) : Prop where
  status : out.status ≠ .success
  freed : ∀ block ∈ out.mem.allocated.map Prod.fst, out.mem.freed.count block = 1
  queue : Holds out.pBdQ 0 0 []

/-! ### Built -/

theorem AtmRxBdq.add_ulLength {β : Type} (q : AtmRxBdq β) (pBd : β) :
    (q.add pBd).2.ulLength = q.ulLength := by
  rw [AtmRxBdq.add]
  split <;> rfl

theorem addBds_holds {q : AtmRxBdq RxBd} {added removed : Nat} {queued bds : List RxBd}
    (holds : Holds q added removed queued) (room : queued.length + bds.length < q.ulLength) :
    (addBds q bds).1 = .success ∧
      Holds (addBds q bds).2 (added + bds.length) removed (queued ++ bds) := by
  induction bds generalizing q added queued with
  | nil =>
    rw [append_nil]
    exact ⟨rfl, holds⟩
  | cons bd bds ih =>
    rw [length_cons] at room
    obtain ⟨status, here⟩ := by
      have step := holds.add bd
      rwa [if_pos (by omega)] at step
    have rest := ih here (by
      rw [AtmRxBdq.add_ulLength, length_append, length_singleton]
      omega)
    have same : addBds q (bd :: bds) = addBds (q.add bd).2 bds := by
      rw [addBds]
      generalize q.add bd = result at status
      obtain ⟨_, _⟩ := result
      cases status
      rfl
    rw [same, length_cons, Nat.add_comm bds.length 1, ← Nat.add_assoc]
    rw [append_assoc] at rest
    exact rest

theorem addBds_ulLength (q : AtmRxBdq RxBd) (bds : List RxBd) :
    (addBds q bds).2.ulLength = q.ulLength := by
  induction bds generalizing q with
  | nil => rfl
  | cons bd bds ih =>
    have same := q.add_ulLength bd
    rw [addBds]
    generalize q.add bd = result at same
    obtain ⟨status, q'⟩ := result
    cases status
    case success => exact (ih q').trans same
    all_goals exact same

section Buffers

variable {n perBlock allocSize usQBufSize usQBufOffset : Nat}

def bdsOf (n perBlock allocSize usQBufOffset : Nat) : List RxBd :=
  fillBds usQBufOffset ((List.range n).map (bufferAt perBlock allocSize))

theorem length_bdsOf : (bdsOf n perBlock allocSize usQBufOffset).length = n := by
  rw [bdsOf, fillBds, length_map, length_zipIdx, length_map, length_range]

theorem bufPtr_bdsOf {i : Nat} {bd : RxBd}
    (at_place : (bdsOf n perBlock allocSize usQBufOffset)[i]? = some bd) :
    i < n ∧ bd.bufPtr = ⟨i / perBlock + 1, i % perBlock * allocSize + usQBufOffset⟩ := by
  have inside : i < n := by
    have below := (List.getElem?_eq_some_iff.mp at_place).1
    rwa [length_bdsOf] at below
  rw [bdsOf, fillBds, getElem?_map, getElem?_zipIdx, getElem?_map,
    getElem?_range inside] at at_place
  cases at_place
  exact ⟨inside, rfl⟩

theorem nodup_bdsOf : (bdsOf n perBlock allocSize usQBufOffset).Nodup := by
  refine List.Nodup.of_map RxBd.place ?_
  have places : (bdsOf n perBlock allocSize usQBufOffset).map RxBd.place = List.range n := by
    rw [bdsOf, fillBds, List.map_map, range_eq_range']
    exact (zipIdx_map_snd ..).trans (by rw [length_map, length_range'])
  rw [places]
  exact nodup_range

theorem pairwise_bdsOf (wide : usQBufSize ≤ allocSize) :
    (bdsOf n perBlock allocSize usQBufOffset).Pairwise
      fun a b => a.bufPtr.Apart usQBufSize b.bufPtr := by
  rw [pairwise_iff_getElem]
  intro i j first second before
  obtain ⟨-, at_i⟩ := bufPtr_bdsOf (getElem?_eq_getElem first)
  obtain ⟨-, at_j⟩ := bufPtr_bdsOf (getElem?_eq_getElem second)
  rw [at_i, at_j]
  by_cases same : i / perBlock = j / perBlock
  · refine .inr (.inl ?_)
    have later : i % perBlock + 1 ≤ j % perBlock := by
      have left := Nat.div_add_mod i perBlock
      have right := Nat.div_add_mod j perBlock
      rw [same] at left
      omega
    have apart := Nat.mul_le_mul_right allocSize later
    rw [Nat.add_mul, Nat.one_mul] at apart
    show i % perBlock * allocSize + usQBufOffset + usQBufSize ≤
      j % perBlock * allocSize + usQBufOffset
    omega
  · exact .inl fun equal => same (Nat.succ.inj equal)

theorem contains_bdsOf (positive : 0 < perBlock) (wide : usQBufOffset + usQBufSize ≤ allocSize)
    (fits : perBlock * allocSize ≤ allocBlockSize) (descriptors : List (Nat × Nat)) :
    ∀ bd ∈ bdsOf n perBlock allocSize usQBufOffset,
      (carved n perBlock allocSize descriptors (blocks n perBlock)).mem.Contains usQBufSize
        bd.bufPtr := by
  intro bd member
  obtain ⟨i, at_place⟩ := getElem?_of_mem member
  obtain ⟨inside, address⟩ := bufPtr_bdsOf at_place
  have whole := Nat.div_add_mod i perBlock
  have rest := Nat.mod_lt i positive
  rw [Nat.mul_comm] at whole
  refine ⟨blockSize n perBlock allocSize (i / perBlock), ?_, ?_⟩
  · refine mem_append_right _ (mem_map.mpr ⟨i / perBlock, ?_, ?_⟩)
    · exact mem_range.mpr ((lt_blocks_iff positive).mpr (by omega))
    · rw [address]
  · rw [address]
    show i % perBlock * allocSize + usQBufOffset + usQBufSize ≤ _
    have next : (i % perBlock + 1) * allocSize ≤ blockSize n perBlock allocSize (i / perBlock) := by
      rw [blockSize]
      split
      next last => exact Nat.mul_le_mul_right _ (by omega)
      next more => exact (Nat.mul_le_mul_right _ rest).trans fits
    rw [Nat.add_mul, Nat.one_mul] at next
    omega

end Buffers

/-! ### Undone -/

theorem freed_foldl_free (blocks : List Nat) (mem : BlockMemory) :
    (blocks.foldl .free mem) = { mem with freed := mem.freed ++ blocks } := by
  induction blocks generalizing mem with
  | nil => rw [foldl_nil, append_nil]
  | cons block blocks ih =>
    rw [foldl_cons, ih]
    simp only [BlockMemory.free, append_assoc, singleton_append]

def descriptorBlock (ok : Nat → Bool) (size : Nat) : List (Nat × Nat) :=
  if ok 0 then [(0, size)] else []

def descriptorPtr (ok : Nat → Bool) : Option Nat := if ok 0 then some 0 else none

theorem takeWhile_entered (k : Nat) :
    ((List.range k).map (fun j => some (j + 1)) ++ [none]).takeWhile (·.isSome) =
      (List.range k).map fun j => some (j + 1) := by
  rw [takeWhile_append_of_pos, takeWhile_cons_of_neg, append_nil]
  · exact Bool.false_ne_true
  · grind

theorem filterMap_entered (k : Nat) :
    ((List.range k).map fun j => some (j + 1)).filterMap id = (List.range k).map (· + 1) := by
  rw [filterMap_map, ← filterMap_eq_map]
  rfl

theorem undone_freeBlocks {ok : Nat → Bool} {n perBlock allocSize size k : Nat}
    {pBdQ : AtmRxBdq RxBd} (empty : Holds pBdQ 0 0 []) (table : k < bufMemPlaces) :
    ∃ out, freeBlocks .allocError pBdQ (descriptorPtr ok)
        (carvedFailed n perBlock allocSize (descriptorBlock ok size) k).mem
        (carvedFailed n perBlock allocSize (descriptorBlock ok size) k).ppBufMem = .ok out ∧
      Undone out := by
  have entered : (carvedFailed n perBlock allocSize (descriptorBlock ok size) k).ppBufMem =
      (List.range k).map (fun j => some (j + 1)) ++ [none] := rfl
  have few : ¬ ((List.range k).map fun j => some (j + 1)).length ≥ bufMemPlaces := by
    rw [length_map, length_range]
    omega
  rw [freeBlocks, if_neg (by decide), entered, takeWhile_entered]
  dsimp only
  rw [if_neg few, freed_foldl_free, freed_foldl_free, filterMap_entered]
  refine ⟨_, rfl, nofun, ?_, empty⟩
  -- the blocks are freed in the order in which they were allocated
  have order : (descriptorPtr ok).toList ++ (List.range k).map (· + 1) =
      (carvedFailed n perBlock allocSize (descriptorBlock ok size) k).mem.allocated.map
        Prod.fst := by
    show _ = (descriptorBlock ok size ++ (List.range k).map _).map Prod.fst
    rw [map_append, List.map_map, descriptorPtr, descriptorBlock]
    split <;> rfl
  have distinct : ((descriptorPtr ok).toList ++ (List.range k).map (· + 1)).Nodup := by
    refine nodup_append.mpr ⟨?_, ?_, ?_⟩
    · rw [descriptorPtr]
      split <;> simp
    · exact nodup_range.map (add_left_injective 1)
    · intro a first b second
      obtain ⟨j, -, rfl⟩ := mem_map.mp second
      rw [descriptorPtr] at first
      split at first
      next => rw [Option.toList_some, mem_singleton] at first; omega
      next => exact absurd first not_mem_nil
  intro block member
  rw [← order] at member
  show (([] ++ (descriptorPtr ok).toList) ++ (List.range k).map (· + 1)).count block = 1
  exact count_eq_one_of_mem distinct member

/-! ## The call -/

section Call

variable {ok : Nat → Bool} {ulElementSize ulQSize : Nat} {usQBufSize usQBufOffset : UInt16}

def bufsPerBlock (usQBufSize usQBufOffset : Nat) : Nat :=
  allocBlockSize / qBufAllocSize usQBufSize usQBufOffset

theorem qBufAllocSize_eq_zero_iff {size offset : Nat} :
    qBufAllocSize size offset = 0 ↔ size + offset = 0 := by
  rw [qBufAllocSize]
  omega

abbrev blocksFor (ulQSize : Nat) (usQBufSize usQBufOffset : UInt16) : Nat :=
  blocks (ulQSize - 1) (bufsPerBlock usQBufSize.toNat usQBufOffset.toNat)

theorem bufsPerBlock_pos (sized : 0 < usQBufSize.toNat + usQBufOffset.toNat) :
    0 < bufsPerBlock usQBufSize.toNat usQBufOffset.toNat := by
  have first := usQBufSize.toNat_lt
  have second := usQBufOffset.toNat_lt
  refine Nat.div_pos ?_ (Nat.pos_of_ne_zero (mt qBufAllocSize_eq_zero_iff.mp sized.ne'))
  rw [qBufAllocSize, allocBlockSize]
  omega

theorem createBdQ_carve (pBdQ : AtmRxBdq RxBd) {size offset : Nat}
    (small : ulQSize - 1 < maxQSize) (sized : 0 < size + offset) :
    createBdQ ok ulElementSize pBdQ ulQSize size offset =
      match carve ok (bufsPerBlock size offset) (qBufAllocSize size offset) (ulQSize - 1)
        (carved (ulQSize - 1) (bufsPerBlock size offset) (qBufAllocSize size offset)
          (descriptorBlock ok (ulElementSize * (ulQSize - 1) + 0x10)) 0) with
      | .error fault => .error fault
      | .ok (.success, s) =>
        if descriptorPtr ok = none ∧ ulQSize - 1 > 0 then .error .nullWrite
        else
          freeBlocks (addBds pBdQ (fillBds offset s.pcBufAddrs)).1
            (addBds pBdQ (fillBds offset s.pcBufAddrs)).2 (descriptorPtr ok) s.mem s.ppBufMem
      | .ok (status, s) => freeBlocks status pBdQ (descriptorPtr ok) s.mem s.ppBufMem := by
  have start : (⟨ulQSize - 1,
      (BlockMemory.start.alloc ok (ulElementSize * (ulQSize - 1) + 0x10)).2, [], []⟩ : Carving) =
      carved (ulQSize - 1) (bufsPerBlock size offset) (qBufAllocSize size offset)
        (descriptorBlock ok (ulElementSize * (ulQSize - 1) + 0x10)) 0 := by
    rw [carved, BlockMemory.alloc, descriptorBlock, Nat.zero_mul, Nat.zero_min]
    show (⟨_, (if ok 0 then _ else _ : Option Nat × BlockMemory).2, _, _⟩ : Carving) = _
    split <;> rfl
  have pointer : (BlockMemory.start.alloc ok (ulElementSize * (ulQSize - 1) + 0x10)).1 =
      descriptorPtr ok := by
    rw [BlockMemory.alloc, descriptorPtr]
    show (if ok 0 then _ else _ : Option Nat × BlockMemory).1 = _
    split <;> rfl
  rw [createBdQ, if_pos small, ← start, ← pointer]
  dsimp only
  rw [if_neg (mt qBufAllocSize_eq_zero_iff.mp sized.ne')]
  rfl

theorem createBdQ_large (large : maxQSize ≤ ulQSize - 1) :
    ∃ out, createBdQ ok ulElementSize (.create ulQSize) ulQSize usQBufSize.toNat
      usQBufOffset.toNat = .ok out ∧ Undone out := by
  have pos : 0 < ulQSize := by
    rw [maxQSize] at large
    omega
  rw [createBdQ, if_neg large.not_gt]
  exact ⟨_, rfl, nofun, fun block member => absurd member not_mem_nil, holds_create pos⟩

theorem createBdQ_failed (pos : 1 ≤ ulQSize) (small : ulQSize - 1 < maxQSize)
    (sized : 0 < usQBufSize.toNat + usQBufOffset.toNat)
    (fails : ∃ k < blocksFor ulQSize usQBufSize usQBufOffset,
      k < bufMemPlaces ∧ ok (k + 1) = false) :
    ∃ out, createBdQ ok ulElementSize (.create ulQSize) ulQSize usQBufSize.toNat
      usQBufOffset.toNat = .ok out ∧ Undone out := by
  classical
  obtain ⟨inside, table, bad⟩ := Nat.find_spec fails
  have good : ∀ j < Nat.find fails, ok (j + 1) = true := by
    intro j below
    have earlier := Nat.find_min fails below
    rw [← Bool.not_eq_false]
    exact fun failed => earlier ⟨below.trans inside, below.trans table, failed⟩
  rw [createBdQ_carve _ small sized, carve_failed (bufsPerBlock_pos sized) table inside good bad]
  exact undone_freeBlocks (holds_create pos) table

theorem createBdQ_all (pos : 1 ≤ ulQSize) (small : ulQSize - 1 < maxQSize)
    (sized : 0 < usQBufSize.toNat + usQBufOffset.toNat)
    (table : blocksFor ulQSize usQBufSize usQBufOffset ≤ bufMemPlaces)
    (good : ∀ k < blocksFor ulQSize usQBufSize usQBufOffset, ok (k + 1) = true)
    (descriptors : ulQSize - 1 = 0 ∨ ok 0 = true) :
    ∃ out, createBdQ ok ulElementSize (.create ulQSize) ulQSize usQBufSize.toNat
        usQBufOffset.toNat = .ok out ∧
      out.pBdQ.ulLength = ulQSize ∧ Holds out.pBdQ (ulQSize - 1) 0 (bdsOf (ulQSize - 1)
        (bufsPerBlock usQBufSize.toNat usQBufOffset.toNat)
        (qBufAllocSize usQBufSize.toNat usQBufOffset.toNat) usQBufOffset.toNat) ∧
      (Built (ulQSize - 1) usQBufSize.toNat out ∨ Undone out ↔
        blocksFor ulQSize usQBufSize usQBufOffset < bufMemPlaces) := by
  have perBlock := bufsPerBlock_pos sized
  have there : ¬ (descriptorPtr ok = none ∧ ulQSize - 1 > 0) := by
    rintro ⟨missing, some_bd⟩
    rw [descriptorPtr, if_pos (descriptors.resolve_left some_bd.ne')] at missing
    cases missing
  rw [createBdQ_carve _ small sized, carve_all perBlock table good]
  dsimp only
  rw [if_neg there]
  unfold blocksFor at *
  generalize usQBufSize.toNat = size at *
  generalize usQBufOffset.toNat = offset at *
  have every : min (blocks (ulQSize - 1) (bufsPerBlock size offset) * bufsPerBlock size offset)
      (ulQSize - 1) = ulQSize - 1 := by
    have last := mt (lt_blocks_iff (n := ulQSize - 1) perBlock).mpr (lt_irrefl _)
    omega
  have filled : fillBds offset (carved (ulQSize - 1) (bufsPerBlock size offset)
      (qBufAllocSize size offset) (descriptorBlock ok (ulElementSize * (ulQSize - 1) + 0x10))
      (blocks (ulQSize - 1) (bufsPerBlock size offset))).pcBufAddrs =
      bdsOf (ulQSize - 1) (bufsPerBlock size offset) (qBufAllocSize size offset) offset := by
    rw [carved, every, bdsOf]
  have room : ([] : List RxBd).length + (bdsOf (ulQSize - 1) (bufsPerBlock size offset)
      (qBufAllocSize size offset) offset).length <
        (AtmRxBdq.create ulQSize : AtmRxBdq RxBd).ulLength := by
    show 0 + _ < if ulQSize = 0 then 128 else ulQSize
    rw [length_bdsOf, if_neg (by omega)]
    omega
  obtain ⟨status, holds⟩ := addBds_holds (holds_create pos) room
  rw [filled, freeBlocks, if_pos status]
  rw [length_bdsOf, Nat.zero_add, nil_append] at holds
  refine ⟨_, rfl, (addBds_ulLength _ _).trans (if_neg (by omega)), holds, ?_, fun free => .inl ?_⟩
  · rintro (built | undone)
    · have free := built.table
      rwa [carved, length_map, length_range] at free
    · exact absurd status undone.status
  · refine ⟨status, ⟨_, holds, pairwise_bdsOf ?_, contains_bdsOf perBlock ?_ ?_ _⟩, rfl, ?_⟩
    · rw [qBufAllocSize]
      omega
    · rw [qBufAllocSize]
      omega
    · exact Nat.div_mul_le_self _ _
    · rwa [carved, length_map, length_range]

theorem createBdQ_fault (pBdQ : AtmRxBdq RxBd) (small : ulQSize - 1 < maxQSize)
    (good : 0 < usQBufSize.toNat + usQBufOffset.toNat →
      ∀ k < blocksFor ulQSize usQBufSize usQBufOffset, k < bufMemPlaces → ok (k + 1) = true)
    (wrong : 0 < usQBufSize.toNat + usQBufOffset.toNat →
      blocksFor ulQSize usQBufSize usQBufOffset ≤ bufMemPlaces → 0 < ulQSize - 1 ∧ ok 0 = false) :
    ∃ fault, createBdQ ok ulElementSize pBdQ ulQSize usQBufSize.toNat usQBufOffset.toNat =
      .error fault := by
  by_cases sized : 0 < usQBufSize.toNat + usQBufOffset.toNat
  swap
  · refine ⟨.divideByZero, ?_⟩
    rw [createBdQ, if_pos small]
    dsimp only
    rw [if_pos (qBufAllocSize_eq_zero_iff.mpr (Nat.eq_zero_of_not_pos sized))]
  have perBlock := bufsPerBlock_pos sized
  rw [createBdQ_carve _ small sized]
  by_cases table : blocksFor ulQSize usQBufSize usQBufOffset ≤ bufMemPlaces
  · have missing := wrong sized table
    refine ⟨.nullWrite, ?_⟩
    rw [carve_all perBlock table fun j below => good sized j below (below.trans_le table)]
    dsimp only
    rw [if_pos ⟨by rw [descriptorPtr, missing.2]; rfl, missing.1⟩]
  · have overrun := not_le.mp table
    refine ⟨.tableOverrun, ?_⟩
    rw [carve_overrun perBlock overrun fun j below => good sized j (below.trans overrun) below]

theorem createBdQ_ok {out : BdQOutcome} (pos : 1 ≤ ulQSize)
    (is : createBdQ ok ulElementSize (.create ulQSize) ulQSize usQBufSize.toNat
      usQBufOffset.toNat = .ok out) :
    Undone out ∧
        (maxQSize ≤ ulQSize - 1 ∨
          0 < usQBufSize.toNat + usQBufOffset.toNat ∧
            ∃ k < blocksFor ulQSize usQBufSize usQBufOffset,
              k < bufMemPlaces ∧ ok (k + 1) = false) ∨
      ulQSize - 1 < maxQSize ∧ 0 < usQBufSize.toNat + usQBufOffset.toNat ∧
        blocksFor ulQSize usQBufSize usQBufOffset ≤ bufMemPlaces ∧
        (∀ k < blocksFor ulQSize usQBufSize usQBufOffset, ok (k + 1) = true) ∧
        (ulQSize - 1 = 0 ∨ ok 0 = true) := by
  have ends {out' : BdQOutcome} (is' : createBdQ ok ulElementSize (.create ulQSize) ulQSize
      usQBufSize.toNat usQBufOffset.toNat = .ok out') (undone : Undone out') : Undone out := by
    rw [is] at is'
    exact Except.ok.inj is' ▸ undone
  by_cases large : maxQSize ≤ ulQSize - 1
  · obtain ⟨out', is', undone⟩ := createBdQ_large large
    exact .inl ⟨ends is' undone, .inl large⟩
  have small := not_le.mp large
  by_cases fails : 0 < usQBufSize.toNat + usQBufOffset.toNat ∧
      ∃ k < blocksFor ulQSize usQBufSize usQBufOffset, k < bufMemPlaces ∧ ok (k + 1) = false
  · obtain ⟨out', is', undone⟩ := createBdQ_failed pos small fails.1 fails.2
    exact .inl ⟨ends is' undone, .inr fails⟩
  have good : 0 < usQBufSize.toNat + usQBufOffset.toNat →
      ∀ k < blocksFor ulQSize usQBufSize usQBufOffset, k < bufMemPlaces → ok (k + 1) = true := by
    intro sized k inside table
    rw [← Bool.not_eq_false]
    exact fun bad => fails ⟨sized, k, inside, table, bad⟩
  by_cases wrong : 0 < usQBufSize.toNat + usQBufOffset.toNat →
      blocksFor ulQSize usQBufSize usQBufOffset ≤ bufMemPlaces → 0 < ulQSize - 1 ∧ ok 0 = false
  · obtain ⟨fault, stops⟩ := createBdQ_fault (.create ulQSize) small good wrong
    exact nomatch stops.symm.trans is
  · grind

/-- **When the call builds the queue or undoes everything**: too many descriptors are refused; the
buffers must have a size; and either a block among the first sixteen cannot be allocated, or all
can, there are fewer than sixteen of them and the descriptors were allocated as well. -/
theorem createBdQ_iff (ok : Nat → Bool) (ulElementSize ulQSize : Nat)
    (usQBufSize usQBufOffset : UInt16) (pos : 1 ≤ ulQSize) :
    (∃ out, createBdQ ok ulElementSize (.create ulQSize) ulQSize usQBufSize.toNat
        usQBufOffset.toNat = .ok out ∧
      (Built (ulQSize - 1) usQBufSize.toNat out ∨ Undone out)) ↔
    maxQSize ≤ ulQSize - 1 ∨
      0 < usQBufSize.toNat + usQBufOffset.toNat ∧
      ((∃ k < blocksFor ulQSize usQBufSize usQBufOffset, k < bufMemPlaces ∧ ok (k + 1) = false) ∨
        blocksFor ulQSize usQBufSize usQBufOffset < bufMemPlaces ∧
        (∀ k < blocksFor ulQSize usQBufSize usQBufOffset, ok (k + 1) = true) ∧
        (ulQSize - 1 = 0 ∨ ok 0 = true)) := by
  constructor
  · rintro ⟨out, is, result⟩
    rcases createBdQ_ok pos is with
      ⟨-, large | fails⟩ | ⟨small, sized, table, good, descriptors⟩
    · exact .inl large
    · exact .inr ⟨fails.1, .inl fails.2⟩
    · obtain ⟨out', is', -, -, built⟩ := createBdQ_all pos small sized table good descriptors
      have same : out = out' := Except.ok.inj (is.symm.trans is')
      subst same
      exact .inr ⟨sized, .inr ⟨built.mp result, good, descriptors⟩⟩
  · rintro (large | ⟨sized, fails | ⟨table, good, descriptors⟩⟩)
    · obtain ⟨out, is, undone⟩ := createBdQ_large large
      exact ⟨out, is, .inr undone⟩
    all_goals by_cases small : ulQSize - 1 < maxQSize
    · obtain ⟨out, is, undone⟩ := createBdQ_failed pos small sized fails
      exact ⟨out, is, .inr undone⟩
    · obtain ⟨out, is, undone⟩ := createBdQ_large (not_lt.mp small)
      exact ⟨out, is, .inr undone⟩
    · obtain ⟨out, is, -, -, result⟩ := createBdQ_all pos small sized table.le good descriptors
      exact ⟨out, is, result.mpr table⟩
    · obtain ⟨out, is, undone⟩ := createBdQ_large (not_lt.mp small)
      exact ⟨out, is, .inr undone⟩

theorem createBdQ_success {out : BdQOutcome} (pos : 1 ≤ ulQSize)
    (is : createBdQ ok ulElementSize (.create ulQSize) ulQSize usQBufSize.toNat
      usQBufOffset.toNat = .ok out)
    (success : out.status = .success) :
    out.pBdQ.ulLength = ulQSize ∧
      ∃ bds, Holds out.pBdQ (ulQSize - 1) 0 bds ∧ bds.length = ulQSize - 1 ∧ bds.Nodup := by
  rcases createBdQ_ok pos is with ⟨undone, -⟩ | ⟨small, sized, table, good, descriptors⟩
  · exact absurd success undone.status
  · obtain ⟨out', is', length, holds, -⟩ :=
      createBdQ_all pos small sized table good descriptors
    have same : out = out' := Except.ok.inj (is.symm.trans is')
    subst same
    exact ⟨length, _, holds, length_bdsOf, nodup_bdsOf⟩

/-- Three descriptors with buffers of 1600 bytes, and every allocation succeeds. -/
theorem createBdQ_three :
    ∃ out, createBdQ (fun _ => true) 64 (.create 4) 4 (1600 : UInt16).toNat (0 : UInt16).toNat =
        .ok out ∧
      (Built 3 (1600 : UInt16).toNat out ∨ Undone out) :=
  (createBdQ_iff (fun _ => true) 64 4 1600 0 (by decide)).mpr
    (.inr ⟨by decide, .inr ⟨by decide, fun _ _ => rfl, .inr rfl⟩⟩)

/-- The allocation of the descriptors fails, that of the buffers does not: the descriptors are
written at the address zero. -/
theorem createBdQ_without_descriptors :
    createBdQ (· != 0) 64 (.create 4) 4 (1600 : UInt16).toNat (0 : UInt16).toNat =
        .error .nullWrite ∧
      ¬ ∃ out, createBdQ (· != 0) 64 (.create 4) 4 (1600 : UInt16).toNat (0 : UInt16).toNat =
          .ok out ∧
        (Built 3 (1600 : UInt16).toNat out ∨ Undone out) := by
  have stops : createBdQ (· != 0) 64 (.create 4) 4 (1600 : UInt16).toNat (0 : UInt16).toNat =
      .error .nullWrite := rfl
  refine ⟨stops, ?_⟩
  rintro ⟨out, is, -⟩
  exact nomatch stops.symm.trans is

end Call

end EchoLife.Atm
