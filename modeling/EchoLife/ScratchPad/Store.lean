import EchoLife.Flash.Partition
import EchoLife.Lib.History
import EchoLife.ScratchPad.Contents

/-!
# The scratch pad in flash

The calls on the scratch pad read the sectors of its partition into a buffer, work on the pad at the
end of the buffer, and write the sectors back. A scan that leaves the pad reads `heap`, the kernel
memory behind it. A run of calls keeps a finite map from ids to data (`scratchPad_map`), provided
that no stored id is deleted while fewer than 20 bytes are free, and up to a full pad.
-/

namespace EchoLife.ScratchPad

open List BlockTable ByteStore CrashTrace History EchoLife.Flash Traced

/-! ## The calls -/

def padPart (board : Board) : FlashPart :=
  (kerSysFlashInit board).scratchPad

def readPad (board : Board) : DriverM (List UInt8) :=
  .observe (getSharedBlks board.sizes (padPart board).startBlk
    ((padPart board).startBlk + (padPart board).numberBlk))

def writePad (board : Board) (pShareBuf : List UInt8) : DriverM Int :=
  setSharedBlks board.sizes (padPart board).startBlk
    ((padPart board).numberBlk + (padPart board).startBlk) pShareBuf

def kerSysScratchPadClearAll (board : Board) : DriverM Int := do
  let part := padPart board
  if part.length = 0 then return -1
  let pShareBuf ← readPad board
  writePad board
    (overwrite pShareBuf part.blkOffset.toNat (replicate part.length.toNat 0))

/-- The return value and the bytes copied to the caller's buffer, whatever its size `bufLen` is.
The comparison with `bufLen` is unsigned. -/
def kerSysScratchPadGet (board : Board) (heap tokenId : List UInt8) (bufLen : Int) :
    DriverM (Int × List UInt8) := do
  let part := padPart board
  if part.length = 0 then return (-1, [])
  if bufLen < 0 ∨ bufLen ≥ part.length - sizeofSpHeader - sizeofSpToken then return (-1, [])
  let pShareBuf ← readPad board
  match padGet part.length.toNat heap tokenId (pShareBuf.drop part.blkOffset.toNat) with
  | some result => return result
  | none =>
    let _ ← kerSysScratchPadClearAll board
    return (-1, [])

def kerSysScratchPadSet (board : Board) (heap tokenId : List UInt8)
    (tokBuf : Option (List UInt8)) : DriverM Int := do
  let part := padPart board
  if part.length = 0 then return -1
  if ((tokBuf.getD []).length : Int) ≥ part.length - sizeofSpHeader - sizeofSpToken then return -1
  let pShareBuf ← readPad board
  let pBuf := pShareBuf.drop part.blkOffset.toNat
  if pBuf.take magicNumLen ≠ magicNumber then
    let _ ← kerSysScratchPadClearAll board
  match padUpdate part.length.toNat heap tokenId tokBuf pBuf with
  | none => return -1
  | some pBuf => writePad board (pShareBuf.take part.blkOffset.toNat ++ pBuf)

/-! ## The calls as stores -/

structure PadAt (board : Board) (b e off : Nat) : Prop where
  owns : Owns board.sizes (padPart board) b e off
  length : (padPart board).length = spMaxLen
  ends : start board.sizes b + off + spMaxLen = start board.sizes e

variable {board : Board} {pad : List UInt8} {tokBuf : Option (List UInt8)} {chip origin : Chip}

theorem exists_padAt (ok : LookupsSucceed board) : ∃ b e off, PadAt board b e off := by
  have mem : padPart board ∈ (kerSysFlashInit board).partitions := by
    simp [padPart, FlashAddrInfo.partitions, FlashAddrInfo.upper]
  obtain ⟨b, e, placed, -⟩ := (descends_partitions ok).exists_placed mem
  have nonneg := placed.blkOffset_nonneg
  have ends := placed.ends
  have length : (padPart board).length = spMaxLen := rfl
  refine ⟨b, e, (padPart board).blkOffset.toNat, placed.owns, length, ?_⟩
  omega

def padAddr (board : Board) : Nat :=
  ((padPart board).first board.sizes).toNat

def padBytes (board : Board) (chip : Chip) : List UInt8 :=
  load chip (padAddr board) spMaxLen

theorem drop_load_append (a n : Nat) (bytes : List UInt8) :
    (load chip a n ++ bytes).drop n = bytes := drop_left' (length_load _ _ _)

theorem take_load_append (a n : Nat) (bytes : List UInt8) :
    (load chip a n ++ bytes).take n = load chip a n := take_left' (length_load _ _ _)

section Calls

variable {board : Board} {b e off : Nat} (at_pad : PadAt board b e off)
include at_pad

theorem PadAt.addr : padAddr board = start board.sizes b + off := by
  rw [padAddr, FlashPart.first, at_pad.owns.startBlk, at_pad.owns.blkOffset, sectorAddr,
    Int.toNat_natCast]
  omega

theorem PadAt.blkOffset : (padPart board).blkOffset.toNat = off := by
  rw [at_pad.owns.blkOffset, Int.toNat_natCast]

theorem PadAt.spLen : (padPart board).length.toNat = spMaxLen := by
  rw [at_pad.length, Int.toNat_natCast]

theorem readPad_value (chip : Chip) : (readPad board).value chip =
    load chip (start board.sizes b) off ++ padBytes board chip := by
  have size : start board.sizes e - start board.sizes b = off + spMaxLen := by
    have := at_pad.ends
    omega
  rw [readPad, value_observe, at_pad.owns.getSharedBlks_eq, size, load_add, padBytes,
    at_pad.addr]

theorem writePad_spec (chip : Chip) (length : pad.length = spMaxLen) :
    (writePad board (load chip (start board.sizes b) off ++ pad)).value chip = 0 ∧
      (writePad board (load chip (start board.sizes b) off ++ pad)).final chip =
        store chip (padAddr board) pad := by
  have full : (load chip (start board.sizes b) off ++ pad).length =
      spanSize board.sizes b (e - b) := by
    have span := start_add_spanSize board.sizes b (e - b)
    have ends := at_pad.ends
    rw [Nat.add_sub_cancel' at_pad.owns.blk_le] at span
    rw [length_append, length_load, length]
    omega
  obtain ⟨value, final⟩ := writeBlks_spec chip b (e - b) _ full
  rw [writePad, at_pad.owns.setSharedBlks_eq]
  refine ⟨value, ?_⟩
  rw [final, store_append, store_load_self, length_load, at_pad.addr]

theorem PadAt.length_ne_zero : (padPart board).length ≠ 0 := by
  rw [at_pad.length]
  decide

theorem kerSysScratchPadClearAll_spec (chip : Chip) :
    (kerSysScratchPadClearAll board).value chip = 0 ∧
      (kerSysScratchPadClearAll board).final chip =
        store chip (padAddr board) (replicate spMaxLen 0) := by
  have zeroed : overwrite (load chip (start board.sizes b) off ++ padBytes board chip) off
      (replicate spMaxLen 0) =
      load chip (start board.sizes b) off ++ replicate spMaxLen 0 := by
    have := overwrite_append (load chip (start board.sizes b) off) (padBytes board chip)
      (replicate spMaxLen 0)
    rwa [length_load, drop_of_length_le (by simp [padBytes]), append_nil] at this
  have zeros : (replicate spMaxLen (0 : UInt8)).length = spMaxLen := length_replicate
  have written := writePad_spec at_pad chip zeros
  simp only [kerSysScratchPadClearAll, at_pad.length_ne_zero, if_false, value_bind, final_bind,
    readPad_value at_pad, at_pad.blkOffset, at_pad.spLen, zeroed]
  exact written

omit at_pad in
theorem padBytes_store (chip : Chip) (length : pad.length = spMaxLen) :
    padBytes board (store chip (padAddr board) pad) = pad := by
  rw [padBytes, ← length, load_store_self]

theorem PadAt.guard (n : Int) :
    n ≥ (padPart board).length - sizeofSpHeader - sizeofSpToken ↔ 8140 ≤ n := by
  rw [at_pad.length]
  simp only [spMaxLen, onek, sizeofSpHeader, sizeofSpToken]
  omega

theorem kerSysScratchPadGet_value (chip : Chip) (heap tokenId : List UInt8) {bufLen : Int}
    (nonneg : 0 ≤ bufLen) (small : bufLen < 8140) :
    (kerSysScratchPadGet board heap tokenId bufLen).value chip =
      (padGet spMaxLen heap tokenId (padBytes board chip)).getD (-1, []) := by
  have accepted : ¬ (bufLen < 0 ∨
      bufLen ≥ (padPart board).length - sizeofSpHeader - sizeofSpToken) := by
    rw [at_pad.guard]
    omega
  simp only [kerSysScratchPadGet, at_pad.length_ne_zero, if_false, accepted, value_bind,
    readPad_value at_pad, at_pad.blkOffset, at_pad.spLen, drop_load_append]
  cases padGet spMaxLen heap tokenId (padBytes board chip) <;> rfl

omit at_pad in
theorem magic_of_refused {spLen : Nat} {heap tokenId pBuf : List UInt8}
    (refused : padUpdate spLen heap tokenId tokBuf pBuf = none) :
    pBuf.take magicNumLen = magicNumber := by
  by_contra magic
  rw [padUpdate, if_pos magic] at refused
  simp at refused

theorem kerSysScratchPadSet_refused (chip : Chip) (heap tokenId : List UInt8)
    (refused : 8140 ≤ (tokBuf.getD []).length ∨
      padUpdate spMaxLen heap tokenId tokBuf (padBytes board chip) = none) :
    (kerSysScratchPadSet board heap tokenId tokBuf).value chip = -1 ∧
      (kerSysScratchPadSet board heap tokenId tokBuf).final chip = chip := by
  have guard := at_pad.guard (tokBuf.getD []).length
  by_cases long : 8140 ≤ (tokBuf.getD []).length
  · have exceeds := guard.mpr (by omega)
    simp only [kerSysScratchPadSet, at_pad.length_ne_zero, if_false, exceeds, if_true]
    exact ⟨rfl, rfl⟩
  · have accepted : ¬ ((tokBuf.getD []).length : Int) ≥
        (padPart board).length - sizeofSpHeader - sizeofSpToken := by
      omega
    have refused' := refused.resolve_left long
    have magic := magic_of_refused refused'
    simp only [kerSysScratchPadSet, at_pad.length_ne_zero, if_false, accepted, value_bind,
      final_bind, readPad_value at_pad, at_pad.blkOffset, at_pad.spLen, drop_load_append,
      magic, ne_eq, not_true_eq_false, refused']
    exact ⟨rfl, rfl⟩

theorem kerSysScratchPadSet_stored {heap tokenId : List UInt8}
    (short : (tokBuf.getD []).length < 8140)
    (updated : padUpdate spMaxLen heap tokenId tokBuf (padBytes board chip) = some pad)
    (length : pad.length = spMaxLen) :
    (kerSysScratchPadSet board heap tokenId tokBuf).value chip = 0 ∧
      (kerSysScratchPadSet board heap tokenId tokBuf).final chip =
        store chip (padAddr board) pad := by
  have guard := at_pad.guard (tokBuf.getD []).length
  have accepted : ¬ ((tokBuf.getD []).length : Int) ≥
      (padPart board).length - sizeofSpHeader - sizeofSpToken := by
    omega
  have read : (readPad board).final chip = chip := final_observe _ _
  by_cases magic : (padBytes board chip).take magicNumLen = magicNumber
  · simp only [kerSysScratchPadSet, at_pad.length_ne_zero, if_false, accepted, value_bind,
      final_bind, readPad_value at_pad, at_pad.blkOffset, at_pad.spLen, drop_load_append,
      take_load_append, magic, ne_eq, not_true_eq_false, updated, read]
    exact writePad_spec at_pad chip length
  · -- The pad has been cleared in between; the write covers that.
    obtain ⟨-, cleared⟩ := kerSysScratchPadClearAll_spec at_pad chip
    simp only [kerSysScratchPadSet, at_pad.length_ne_zero, if_false, accepted, value_bind,
      final_bind, readPad_value at_pad, at_pad.blkOffset, at_pad.spLen, drop_load_append,
      take_load_append, magic, ne_eq, not_false_eq_true, if_true, updated, read, cleared]
    have kept : load (store chip (padAddr board) (replicate spMaxLen 0))
        (start board.sizes b) off = load chip (start board.sizes b) off :=
      load_store_of_disjoint (by rw [at_pad.addr]; omega)
    have written := writePad_spec at_pad (store chip (padAddr board) (replicate spMaxLen 0))
      length
    rw [kept, store_store (by simp [length])] at written
    exact written

end Calls

/-! ## Runs -/

inductive PadCall where
  | set (heap : List UInt8) (id : TokenId) (data : List UInt8) (nonempty : data ≠ [])
  | delete (heap : List UInt8) (id : TokenId)
  | clearAll

def PadCall.run (board : Board) : PadCall → DriverM Int
  | .set heap id data _ => kerSysScratchPadSet board heap id.name (some data)
  | .delete heap id => kerSysScratchPadSet board heap id.name none
  | .clearAll => kerSysScratchPadClearAll board

def padStep (board : Board) (chip : Chip) (call : PadCall) : Int × Chip :=
  ((call.run board).value chip, (call.run board).final chip)

abbrev PadTransition : Type := Transition Chip PadCall Int

abbrev Stored : Type := TokenId → Option (List UInt8)

def Stored.after (stored : Stored) (t : PadTransition) : Stored :=
  match t.call with
  | .set _ id data _ =>
    if t.out = 0 then fun k => if k = id then some data else stored k else stored
  | .delete _ id => fun k => if k = id then none else stored k
  | .clearAll => fun _ => none

def lastStored (run : List PadTransition) : Stored :=
  run.foldl Stored.after fun _ => none

def RoomToDelete (board : Board) (stored : Stored) (t : PadTransition) : Prop :=
  match t.call with
  | .delete _ id =>
    stored id ≠ none → padUsed spMaxLen [] (padBytes board t.before) + sizeofSpToken ≤ spMaxLen
  | _ => True

def RoomToDeleteAll (board : Board) : Stored → List PadTransition → Prop
  | _, [] => True
  | stored, t :: run => RoomToDelete board stored t ∧ RoomToDeleteAll board (stored.after t) run

def answer : Option (List UInt8) → Int × List UInt8
  | some data => (data.length, data)
  | none => (-1, [])

theorem PadState.length_eq {spLen : Nat} {entries : List Entry}
    (state : PadState spLen pad entries) : pad.length = spLen := by
  cases state with
  | cleared => simp
  | tokens ok total distinct =>
    rw [length_append, length_append, length_spHeader]
    exact total

structure Represents (board : Board) (origin : Chip) (stored : Stored) (chip : Chip) : Prop where
  state : ∃ entries, PadState spMaxLen (padBytes board chip) entries ∧
    ∀ k, lookup entries k = stored k
  outside : ∀ a, (a < padAddr board ∨ padAddr board + spMaxLen ≤ a) → chip a = origin a

theorem tokBuf_nonempty {data : List UInt8} (nonempty : data ≠ []) :
    ∀ d, some data = some d → d ≠ [] := by
  rintro _ ⟨⟩
  exact nonempty

section Run

variable {board : Board} {b e off : Nat} (at_pad : PadAt board b e off)

variable {stored : Stored}

theorem Represents.store {stored' : Stored} (represents : Represents board origin stored chip)
    {entries : List Entry} (state : PadState spMaxLen pad entries)
    (holds : ∀ k, lookup entries k = stored' k) :
    Represents board origin stored' (store chip (padAddr board) pad) := by
  have length := state.length_eq
  refine ⟨⟨entries, ?_, holds⟩, fun a out => ?_⟩
  · rw [padBytes_store chip length]
    exact state
  · rw [store_apply_outside (by rw [length]; exact out), represents.outside a out]

include at_pad

theorem represents_clearAll (chip : Chip) :
    Represents board chip (fun _ => none) ((kerSysScratchPadClearAll board).final chip) := by
  rw [(kerSysScratchPadClearAll_spec at_pad chip).2]
  refine ⟨⟨[], ?_, fun _ => rfl⟩, fun a out => ?_⟩
  · rw [padBytes_store chip (by simp)]
    exact .cleared
  · rw [store_apply_outside (by simpa using out)]

section

variable (represents : Represents board origin stored chip)
include represents

theorem represents_set (heap : List UInt8) (id : TokenId)
    (nonempty : ∀ data, tokBuf = some data → data ≠ []) :
    ((kerSysScratchPadSet board heap id.name tokBuf).value chip = 0 ∧
      Represents board origin (fun k => if k = id then tokBuf else stored k)
        ((kerSysScratchPadSet board heap id.name tokBuf).final chip)) ∨
    ((kerSysScratchPadSet board heap id.name tokBuf).value chip = -1 ∧
      (kerSysScratchPadSet board heap id.name tokBuf).final chip = chip ∧
      (tokBuf = none →
        padUsed spMaxLen [] (padBytes board chip) + sizeofSpToken > spMaxLen)) := by
  obtain ⟨entries, state, holds⟩ := represents.state
  by_cases long : 8140 ≤ (tokBuf.getD []).length
  · right
    obtain ⟨value, final⟩ := kerSysScratchPadSet_refused at_pad chip heap id.name
      (Or.inl long)
    refine ⟨value, final, ?_⟩
    rintro rfl
    simp at long
  · rcases padUpdate_spec (by decide) (by decide) (by decide) state heap id nonempty (by
        simp only [sizeofSpHeader, sizeofSpToken, spMaxLen, onek]; omega) with
      ⟨pad, updated, entries', state', holds'⟩ | ⟨refused, full⟩
    · left
      obtain ⟨value, final⟩ := kerSysScratchPadSet_stored at_pad (by omega) updated
        state'.length_eq
      rw [value, final]
      refine ⟨rfl, represents.store state' fun k => ?_⟩
      rw [holds', holds]
    · right
      obtain ⟨value, final⟩ := kerSysScratchPadSet_refused at_pad chip heap id.name
        (Or.inr refused)
      refine ⟨value, final, ?_⟩
      rintro rfl
      rw [padUsed_eq (by decide) (by decide) state] at full ⊢
      simpa using full

theorem Represents.step (call : PadCall)
    (room : RoomToDelete board stored
      ⟨chip, call, (padStep board chip call).1, (padStep board chip call).2⟩) :
    Represents board origin
      (stored.after ⟨chip, call, (padStep board chip call).1, (padStep board chip call).2⟩)
      (padStep board chip call).2 := by
  cases call with
  | clearAll =>
    refine ⟨(represents_clearAll at_pad chip).state, fun a outside => ?_⟩
    exact ((represents_clearAll at_pad chip).outside a outside).trans
      (represents.outside a outside)
  | set heap id data nonempty =>
    rcases represents_set at_pad represents heap id (tokBuf_nonempty nonempty) with
      ⟨value, done⟩ | ⟨value, same, -⟩
    · simpa [Stored.after, padStep, PadCall.run, value] using done
    · simpa [Stored.after, padStep, PadCall.run, value, same] using represents
  | delete heap id =>
    rcases represents_set at_pad represents heap id (show ∀ data, none = some data → data ≠ []
        by simp) with ⟨-, done⟩ | ⟨-, same, full⟩
    · exact done
    · -- The delete was refused, so the id is not stored.
      have absent : stored id = none := by
        by_contra present
        have free := room present
        have := full rfl
        simp only at free
        omega
      have unchanged : (fun k => if k = id then none else stored k) = stored := by grind
      have kept : (padStep board chip (.delete heap id)).2 = chip := same
      simp only [Stored.after, unchanged]
      rw [kept]
      exact represents

theorem represents_run (calls : List PadCall)
    (room : RoomToDeleteAll board stored (history (padStep board) chip calls)) :
    Represents board origin ((history (padStep board) chip calls).foldl Stored.after stored)
      (final (padStep board) chip calls) := by
  induction calls generalizing chip stored with
  | nil => exact represents
  | cons c calls ih =>
    exact ih (represents.step at_pad c room.1) room.2

theorem Represents.get (heap : List UInt8) (id : TokenId) {bufLen : Int} (nonneg : 0 ≤ bufLen)
    (small : bufLen < 8140)
    (here : stored id ≠ none ∨ padUsed spMaxLen [] (padBytes board chip) ≠ spMaxLen) :
    (kerSysScratchPadGet board heap id.name bufLen).value chip = answer (stored id) := by
  obtain ⟨entries, state, holds⟩ := represents.state
  rw [padUsed_eq (by decide) (by decide) state, ← holds] at here
  rw [kerSysScratchPadGet_value at_pad chip heap id.name nonneg small,
    padGet_spec (by decide) state heap id here, ← holds]
  cases lookup entries id <;> rfl

end

end Run

/-! ## The finite map -/

def padRun (board : Board) (chip : Chip) (calls : List PadCall) : List PadTransition :=
  history (padStep board) ((kerSysScratchPadClearAll board).final chip) calls

def padEnd (board : Board) (chip : Chip) (calls : List PadCall) : Chip :=
  final (padStep board) ((kerSysScratchPadClearAll board).final chip) calls

def PadCall.Concerns (id : TokenId) : PadCall → Prop
  | .set _ k _ _ => k = id
  | .delete _ k => k = id
  | .clearAll => True

def ReadEnds (board : Board) (stored : Stored) (id : TokenId) (chip : Chip) : Prop :=
  stored id ≠ none ∨ padUsed spMaxLen [] (padBytes board chip) ≠ spMaxLen

theorem represents_padEnd (ok : LookupsSucceed board) (chip : Chip) {calls : List PadCall}
    (room : RoomToDeleteAll board (fun _ => none) (padRun board chip calls)) :
    Represents board chip (lastStored (padRun board chip calls)) (padEnd board chip calls) := by
  obtain ⟨b, e, off, at_pad⟩ := exists_padAt ok
  exact represents_run at_pad (represents_clearAll at_pad chip) calls room

theorem represents_other (ok : LookupsSucceed board) {stored : Stored}
    (represents : Represents board origin stored chip) {call : PadCall} {id : TokenId}
    (other : ¬ call.Concerns id) :
    ∃ stored', Represents board origin stored' (padStep board chip call).2 ∧
      stored' id = stored id := by
  obtain ⟨b, e, off, at_pad⟩ := exists_padAt ok
  have changed : ∀ heap (k : TokenId) tokBuf, (∀ data, tokBuf = some data → data ≠ []) → k ≠ id →
      ∃ stored', Represents board origin stored'
        ((kerSysScratchPadSet board heap k.name tokBuf).final chip) ∧ stored' id = stored id := by
    intro heap k tokBuf nonempty ne
    rcases represents_set at_pad represents heap k nonempty with ⟨-, done⟩ | ⟨-, same, -⟩
    · exact ⟨_, done, if_neg ne.symm⟩
    · exact ⟨stored, same.symm ▸ represents, rfl⟩
  cases call with
  | set heap k data nonempty => exact changed heap k _ (tokBuf_nonempty nonempty) other
  | delete heap k => exact changed heap k none (by simp) other
  | clearAll => exact (other trivial).elim

/-- **The scratch pad is a finite map.** After a run from a cleared pad a read gives the data of
the last successful set that no delete and no clear has followed; a call about one id changes the
answer for no other id; and nothing outside the pad changes. -/
theorem scratchPad_map {board : Board} (ok : LookupsSucceed board) (chip : Chip)
    {calls : List PadCall}
    (room : RoomToDeleteAll board (fun _ => none) (padRun board chip calls)) :
    (∀ heap id bufLen, 0 ≤ bufLen → bufLen < 8140 →
      ReadEnds board (lastStored (padRun board chip calls)) id (padEnd board chip calls) →
      (kerSysScratchPadGet board heap id.name bufLen).value (padEnd board chip calls) =
        answer (lastStored (padRun board chip calls) id)) ∧
    (∀ call heap heap' id bufLen, ¬ call.Concerns id → 0 ≤ bufLen → bufLen < 8140 →
      ReadEnds board (lastStored (padRun board chip calls)) id (padEnd board chip calls) →
      ReadEnds board (lastStored (padRun board chip calls)) id
        (padStep board (padEnd board chip calls) call).2 →
      (kerSysScratchPadGet board heap id.name bufLen).value
          (padStep board (padEnd board chip calls) call).2 =
        (kerSysScratchPadGet board heap' id.name bufLen).value (padEnd board chip calls)) ∧
    (∀ a, (a < padAddr board ∨ padAddr board + spMaxLen ≤ a) →
      padEnd board chip calls a = chip a) := by
  obtain ⟨b, e, off, at_pad⟩ := exists_padAt ok
  have represents := represents_padEnd ok chip room
  refine ⟨?_, ?_, represents.outside⟩
  · intro heap id bufLen nonneg small ends
    exact represents.get at_pad heap id nonneg small ends
  · intro call heap heap' id bufLen other nonneg small ends ends'
    obtain ⟨stored', represents', same⟩ := represents_other ok represents other
    rw [represents.get at_pad heap' id nonneg small ends,
      represents'.get at_pad heap id nonneg small (by rw [same]; exact ends'), same]

/-! ## Two tokens -/

def tokenA : TokenId := ⟨[0x41], by decide, by decide, 0x41, [], rfl, by decide⟩

def tokenB : TokenId := ⟨[0x42], by decide, by decide, 0x42, [], rfl, by decide⟩

theorem set_cleared (ok : LookupsSucceed board) (chip : Chip) (heap : List UInt8) (entry : Entry)
    (short : entry.data.length < 8140) :
    let cleared := (kerSysScratchPadClearAll board).final chip
    (kerSysScratchPadSet board heap entry.id.name (some entry.data)).value cleared = 0 ∧
      padBytes board
        ((kerSysScratchPadSet board heap entry.id.name (some entry.data)).final cleared) =
        spHeader ++ encodeAll [entry] ++
          replicate (spMaxLen - sizeofSpHeader - entry.encode.length) 0 := by
  intro cleared
  obtain ⟨b, e, off, at_pad⟩ := exists_padAt ok
  have zeros : padBytes board cleared = replicate spMaxLen 0 := by
    rw [show cleared = _ from (kerSysScratchPadClearAll_spec at_pad chip).2,
      padBytes_store chip (by simp)]
  have size := length_encode entry
  have guard : sizeofSpHeader + sizeofSpToken + entry.data.length ≤ spMaxLen := by
    simp only [sizeofSpHeader, sizeofSpToken, spMaxLen, onek]
    omega
  have updated := padUpdate_cleared (by decide) heap entry guard
  rw [← zeros] at updated
  have length : (spHeader ++ encodeAll [entry] ++
      replicate (spMaxLen - sizeofSpHeader - entry.encode.length) 0).length = spMaxLen := by
    simp only [length_append, length_spHeader, encodeAll_cons, encodeAll_nil, append_nil,
      length_replicate, sizeofSpHeader, sizeofSpToken, round4, spMaxLen, onek] at *
    omega
  obtain ⟨value, final⟩ := kerSysScratchPadSet_stored at_pad
    (show (Option.getD (some entry.data) []).length < 8140
    from short) updated length
  rw [final]
  exact ⟨value, padBytes_store cleared length⟩

/-- Two bytes are stored and read back on a board with sixteen sectors of 64K. -/
theorem scratchPad_map_sixteenSectors :
    LookupsSucceed sixteenSectors ∧
      RoomToDeleteAll sixteenSectors (fun _ => none)
        (padRun sixteenSectors (fun _ => 0xFF) [.set [] tokenA [1, 2] (by decide)]) ∧
      (kerSysScratchPadGet sixteenSectors [] tokenA.name 2).value
        (padEnd sixteenSectors (fun _ => 0xFF) [.set [] tokenA [1, 2] (by decide)]) =
          (2, [1, 2]) := by
  have ok : LookupsSucceed sixteenSectors := by decide
  have room : RoomToDeleteAll sixteenSectors (fun _ => none)
      (padRun sixteenSectors (fun _ => 0xFF) [.set [] tokenA [1, 2] (by decide)]) :=
    ⟨trivial, trivial⟩
  have success := (set_cleared ok (fun _ => 0xFF) [] ⟨tokenA, [1, 2], by decide⟩ (by decide)).1
  have stored : lastStored (padRun sixteenSectors (fun _ => 0xFF)
      [.set [] tokenA [1, 2] (by decide)]) tokenA = some [1, 2] := by
    simp [lastStored, padRun, history, Stored.after, padStep, PadCall.run, success]
  refine ⟨ok, room, ?_⟩
  rw [(scratchPad_map ok _ room).1 [] tokenA 2 (by decide) (by decide)
    (Or.inl (by rw [stored]; simp)), stored]
  rfl

def fullEntry : Entry :=
  ⟨tokenA, replicate 8139 1,
    ne_nil_of_length_pos (by rw [length_replicate]; decide)⟩

def strayEntry : Entry := ⟨tokenB, [1, 2, 3, 4], by decide⟩

/-- One set of 8139 bytes fills the pad. Then a delete of the id is refused and the data stays, and
a read of an id that was never stored gives bytes from behind the pad. -/
theorem full_pad_reads_on :
    let cleared := (kerSysScratchPadClearAll sixteenSectors).final (fun _ => 0xFF)
    let set := kerSysScratchPadSet sixteenSectors [] tokenA.name (some fullEntry.data)
    let delete := kerSysScratchPadSet sixteenSectors [] tokenA.name none
    set.value cleared = 0 ∧
      delete.value (set.final cleared) = -1 ∧
      (kerSysScratchPadGet sixteenSectors [] tokenA.name 8139).value
        (delete.final (set.final cleared)) = (8139, fullEntry.data) ∧
      (kerSysScratchPadGet sixteenSectors strayEntry.encode tokenB.name 4).value
        (set.final cleared) = (4, [1, 2, 3, 4]) := by
  intro cleared set delete
  have ok : LookupsSucceed sixteenSectors := by decide
  obtain ⟨b, e, off, at_pad⟩ := exists_padAt ok
  have length : fullEntry.data.length = 8139 := length_replicate
  have size : fullEntry.encode.length = 8160 := by
    rw [length_encode, length]
    rfl
  obtain ⟨success, bytes⟩ := set_cleared ok (fun _ => 0xFF) [] fullEntry (by rw [length]; decide)
  rw [size] at bytes
  have pad : padBytes sixteenSectors (set.final cleared) =
      spHeader ++ encodeAll [fullEntry] ++ [] := bytes
  have tail : TailOk [] := tailOk_replicate 0
  have total : sizeofSpHeader + (encodeAll [fullEntry]).length + ([] : List UInt8).length =
      spMaxLen := by
    simp [size]
    rfl
  have distinct : ([fullEntry].map Entry.id).Nodup := by simp
  have refused : padUpdate spMaxLen [] tokenA.name none (padBytes sixteenSectors
      (set.final cleared)) = none := by
    rw [pad]
    refine padUpdate_refused (by decide) (by decide) tail total distinct [] tokenA.name ?_
    simp [size]
    decide
  obtain ⟨kept_value, kept⟩ := kerSysScratchPadSet_refused at_pad _ [] tokenA.name (Or.inr refused)
  refine ⟨success, kept_value, ?_, ?_⟩
  · have state : PadState spMaxLen (padBytes sixteenSectors (set.final cleared)) [fullEntry] := by
      rw [pad]
      exact .tokens tail total distinct
    have found : lookup [fullEntry] tokenA = some fullEntry.data := by
      rw [lookup_cons, if_pos (show fullEntry.id = tokenA from rfl)]
    rw [kept, kerSysScratchPadGet_value at_pad _ _ _ (by decide) (by decide),
      padGet_spec (by decide) state [] tokenA (Or.inl (by rw [found]; simp)), found]
    simp only [length]
    rfl
  · rw [kerSysScratchPadGet_value at_pad _ _ _ (by decide) (by decide), pad]
    have behind := padGet_behind (show spMaxLen ≤ 2 ^ 31 by decide) fullEntry strayEntry (by decide)
      (by rw [size]; rfl) (by decide)
    rw [show tokenB.name = strayEntry.id.name from rfl, behind]
    rfl
end EchoLife.ScratchPad
