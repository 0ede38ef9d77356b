import EchoLife.Lib.History
import EchoLife.Lib.Ring

/-!
# The receive queues of the ATM processor

`ATM_RX_FREE_BDQ` is a ring of pointers to buffer descriptors, in which a slot always stays empty.
It is a first-in first-out queue in every run (`rxBdq_run`), but `getNumFilledElements` counts one
element too few whenever the head index is below the tail index.
-/

namespace EchoLife.Atm

open List History

/-! ## The source -/

inductive RxStatus where
  | success
  | resourceError
  | notFound
  | allocError
  | parameterError
deriving DecidableEq, Repr

structure AtmRxBdq (β : Type) where
  ulLength : Nat
  ppStart : Nat → Option β
  headIdx : Nat
  tailIdx : Nat

namespace AtmRxBdq

variable {β : Type}

def create (ulLength : Nat) : AtmRxBdq β where
  ulLength := if ulLength = 0 then 128 else ulLength
  ppStart _ := none
  headIdx := 0
  tailIdx := 0

def add (q : AtmRxBdq β) (pBd : β) : RxStatus × AtmRxBdq β :=
  let ulNextHeadIdx := (q.headIdx + 1) % q.ulLength
  if ulNextHeadIdx ≠ q.tailIdx then
    (.success, { q with
      ppStart := Function.update q.ppStart q.headIdx (some pBd)
      headIdx := ulNextHeadIdx })
  else (.resourceError, q)

def remove (q : AtmRxBdq β) : (RxStatus × Option β) × AtmRxBdq β :=
  if q.headIdx ≠ q.tailIdx then
    ((.success, q.ppStart q.tailIdx), { q with tailIdx := (q.tailIdx + 1) % q.ulLength })
  else ((.notFound, none), q)

def getSize (q : AtmRxBdq β) : Nat := q.ulLength

def getNumFilledElements (q : AtmRxBdq β) : Nat := Ring.filled (q.ulLength - 1) q.headIdx q.tailIdx

def getNumAvailableElements (q : AtmRxBdq β) : Nat :=
  (q.ulLength - 1) - Ring.filled (q.ulLength - 1) q.headIdx q.tailIdx

end AtmRxBdq

inductive RxBdqCall (β : Type) where
  | add (pBd : β)
  | remove

def rxBdqStep {β : Type} (q : AtmRxBdq β) :
    RxBdqCall β → (RxStatus × Option β) × AtmRxBdq β
  | .add pBd => (((q.add pBd).1, none), (q.add pBd).2)
  | .remove => q.remove

/-! ## A bounded queue -/

def fifoStep {β : Type} (places : Nat) (queued : List β) :
    RxBdqCall β → (RxStatus × Option β) × List β
  | .add pBd =>
    if queued.length < places then ((.success, none), queued ++ [pBd])
    else ((.resourceError, none), queued)
  | .remove =>
    match queued with
    | [] => ((.notFound, none), [])
    | pBd :: rest => ((.success, some pBd), rest)

/-! ## The ring holds a queue -/

section Ring

variable {β : Type}

structure Holds (q : AtmRxBdq β) (added removed : Nat) (queued : List β) : Prop where
  head : q.headIdx = added % q.ulLength
  tail : q.tailIdx = removed % q.ulLength
  count : added = removed + queued.length
  room : queued.length < q.ulLength
  stored : ∀ i < queued.length, q.ppStart ((removed + i) % q.ulLength) = queued[i]?

theorem holds_create {ulLength : Nat} (pos : 0 < ulLength) :
    Holds (AtmRxBdq.create ulLength : AtmRxBdq β) 0 0 [] where
  head := (Nat.zero_mod _).symm
  tail := (Nat.zero_mod _).symm
  count := rfl
  room := by
    show 0 < if ulLength = 0 then 128 else ulLength
    rw [if_neg pos.ne']
    exact pos
  stored i inside := absurd inside (Nat.not_lt_zero i)

namespace Holds

variable {q : AtmRxBdq β} {added removed : Nat} {queued : List β}

section

variable (holds : Holds q added removed queued)
include holds

theorem full_iff : (q.headIdx + 1) % q.ulLength = q.tailIdx ↔ queued.length + 1 = q.ulLength := by
  have count := holds.count
  have room := holds.room
  rw [holds.head, holds.tail, Nat.mod_add_mod]
  constructor
  · intro same
    by_contra more
    have apart := (Ring.mod_eq_mod_iff (show removed ≤ added + 1 by omega)
      (show added + 1 - removed < q.ulLength by omega)).mp same
    omega
  · intro last
    rw [count, Nat.add_assoc, last, Nat.add_mod_right]

theorem empty_iff : q.headIdx = q.tailIdx ↔ queued = [] := by
  have count := holds.count
  have room := holds.room
  rw [holds.head, holds.tail, Ring.mod_eq_mod_iff (by omega) (by omega), ← length_eq_zero_iff]
  omega

theorem add (pBd : β) :
    if queued.length < q.ulLength - 1 then
      (q.add pBd).1 = .success ∧ Holds (q.add pBd).2 (added + 1) removed (queued ++ [pBd])
    else q.add pBd = (.resourceError, q) := by
  have full := holds.full_iff
  have count := holds.count
  split
  next free =>
    have open_slot : (q.headIdx + 1) % q.ulLength ≠ q.tailIdx := by
      intro same
      omega
    rw [AtmRxBdq.add, if_pos open_slot]
    refine ⟨rfl, ?_, holds.tail, ?_, ?_, ?_⟩
    · show (q.headIdx + 1) % q.ulLength = (added + 1) % q.ulLength
      rw [holds.head, Nat.mod_add_mod]
    · rw [length_append, length_singleton, count, Nat.add_assoc]
    · grind
    · intro i inside
      rw [length_append, length_singleton] at inside
      show Function.update q.ppStart q.headIdx (some pBd) ((removed + i) % q.ulLength) = _
      rw [holds.head]
      by_cases last : i = queued.length
      · grind
      · have earlier : i < queued.length := by omega
        have other : (removed + i) % q.ulLength ≠ added % q.ulLength := by
          intro same
          have equal := (Ring.mod_eq_mod_iff (show removed + i ≤ added by omega)
            (show added - (removed + i) < q.ulLength by omega)).mp same.symm
          omega
        rw [Function.update_of_ne other, holds.stored i earlier,
          getElem?_append_left earlier]
  next taken =>
    have room := holds.room
    have closed : ¬ (q.headIdx + 1) % q.ulLength ≠ q.tailIdx := not_not.mpr (full.mpr (by omega))
    rw [AtmRxBdq.add, if_neg closed]

end

theorem remove {pBd : β} {rest : List β} (holds : Holds q added removed (pBd :: rest)) :
    q.remove.1 = (.success, some pBd) ∧ Holds q.remove.2 added (removed + 1) rest := by
  have count := holds.count
  have room := holds.room
  rw [length_cons] at count room
  have filled : q.headIdx ≠ q.tailIdx := by
    intro same
    exact absurd (holds.empty_iff.mp same) (cons_ne_nil _ _)
  have first := holds.stored 0 (by rw [length_cons]; omega)
  rw [Nat.add_zero, ← holds.tail] at first
  rw [AtmRxBdq.remove, if_pos filled]
  refine ⟨congrArg (RxStatus.success, ·) first, holds.head, ?_, ?_, ?_, ?_⟩
  · show (q.tailIdx + 1) % q.ulLength = (removed + 1) % q.ulLength
    rw [holds.tail, Nat.mod_add_mod]
  · omega
  · show rest.length < q.ulLength
    omega
  · intro i inside
    have next := holds.stored (i + 1) (by rw [length_cons]; omega)
    rw [getElem?_cons_succ] at next
    show q.ppStart ((removed + 1 + i) % q.ulLength) = _
    rw [← next, Nat.add_assoc, Nat.add_comm 1 i]

theorem remove_nil (holds : Holds q added removed []) : q.remove = ((.notFound, none), q) := by
  have empty : ¬ q.headIdx ≠ q.tailIdx := not_not.mpr (holds.empty_iff.mpr rfl)
  rw [AtmRxBdq.remove, if_neg empty]

section

variable (holds : Holds q added removed queued)
include holds

theorem getNumFilledElements_eq :
    q.getNumFilledElements =
      if q.tailIdx ≤ q.headIdx then queued.length else queued.length - 1 := by
  have count := holds.count
  have room := holds.room
  have whole := Ring.filled_mod (show removed ≤ added by omega)
    (show added - removed < q.ulLength by omega)
  have inside : removed % q.ulLength < q.ulLength := Nat.mod_lt _ (by omega)
  rw [AtmRxBdq.getNumFilledElements, holds.head, holds.tail]
  rw [Ring.filled] at whole ⊢
  split
  next ahead =>
    rw [if_pos ahead] at whole
    omega
  next behind =>
    rw [if_neg behind] at whole
    omega

theorem length_of_behind (behind : ¬ q.tailIdx ≤ q.headIdx) : 0 < queued.length := by
  refine length_pos_of_ne_nil fun empty => ?_
  exact behind (holds.empty_iff.mpr empty).ge

theorem getNumFilledElements_eq_iff :
    q.getNumFilledElements = queued.length ↔ q.tailIdx ≤ q.headIdx := by
  rw [holds.getNumFilledElements_eq]
  split
  next ahead => exact iff_of_true rfl ahead
  next behind =>
    have some_element := holds.length_of_behind behind
    exact iff_of_false (by omega) behind

theorem filled_add_available :
    q.getNumFilledElements + q.getNumAvailableElements = q.ulLength - 1 := by
  have filled := holds.getNumFilledElements_eq
  have room := holds.room
  have below : q.getNumFilledElements ≤ q.ulLength - 1 := by
    rw [filled]
    split
    next => omega
    next => omega
  exact Nat.add_sub_cancel' below

theorem step (call : RxBdqCall β) :
    (rxBdqStep q call).1 = (fifoStep (q.ulLength - 1) queued call).1 ∧
      (rxBdqStep q call).2.ulLength = q.ulLength ∧
      ∃ added removed, Holds (rxBdqStep q call).2 added removed
        (fifoStep (q.ulLength - 1) queued call).2 := by
  cases call with
  | add pBd =>
    have added_one := holds.add pBd
    have length : (q.add pBd).2.ulLength = q.ulLength := by
      rw [AtmRxBdq.add]
      split
      next => rfl
      next => rfl
    rw [rxBdqStep, fifoStep]
    by_cases free : queued.length < q.ulLength - 1
    · grind
    · grind
  | remove =>
    cases queued with
    | nil =>
      rw [rxBdqStep, holds.remove_nil]
      exact ⟨rfl, rfl, _, _, holds⟩
    | cons pBd rest =>
      have length : q.remove.2.ulLength = q.ulLength := by
        rw [AtmRxBdq.remove]
        split
        next => rfl
        next => rfl
      exact ⟨holds.remove.1, length, _, _, holds.remove.2⟩

end

end Holds

/-- **A receive queue is a queue of `ulLength - 1` places** in every run, and the numbers of filled
and of free places add up. The number of filled places is the number of queued elements exactly
while the head index is not below the tail index. -/
theorem rxBdq_run (ulLength : Nat) (long : 2 ≤ ulLength) (calls : List (RxBdqCall β)) :
    let q := final rxBdqStep (AtmRxBdq.create ulLength) calls
    let queued := final (fifoStep (ulLength - 1)) [] calls
    (history rxBdqStep (AtmRxBdq.create ulLength) calls).map (·.out) =
        (history (fifoStep (ulLength - 1)) [] calls).map (·.out) ∧
      q.getNumFilledElements + q.getNumAvailableElements = ulLength - 1 ∧
      (q.getNumFilledElements = queued.length ↔ q.tailIdx ≤ q.headIdx) := by
  intro q queued
  have length : (AtmRxBdq.create ulLength : AtmRxBdq β).ulLength = ulLength := if_neg (by omega)
  have alike (q : AtmRxBdq β) (queued : List β) (call : RxBdqCall β)
      (related : q.ulLength = ulLength ∧ ∃ added removed, Holds q added removed queued) :
      (rxBdqStep q call).1 = (fifoStep (ulLength - 1) queued call).1 ∧
        (rxBdqStep q call).2.ulLength = ulLength ∧
        ∃ added removed, Holds (rxBdqStep q call).2 added removed
          (fifoStep (ulLength - 1) queued call).2 := by
    obtain ⟨same, added, removed, holds⟩ := related
    have stepped := holds.step call
    rwa [same] at stepped
  obtain ⟨answers, same_length, added, removed, holds⟩ :=
    simulates_final alike ⟨length, 0, 0, holds_create (by omega)⟩ calls
  refine ⟨answers, ?_, holds.getNumFilledElements_eq_iff⟩
  rw [holds.filled_add_available, same_length]

end Ring

/-- Five calls on a ring of three slots. -/
theorem rxBdq_run_three :
    let calls : List (RxBdqCall Nat) := [.add 1, .remove, .add 2, .add 3, .remove]
    let q := final rxBdqStep (AtmRxBdq.create 3) calls
    let queued := final (fifoStep (3 - 1)) [] calls
    (history rxBdqStep (AtmRxBdq.create 3) calls).map (·.out) =
        (history (fifoStep (3 - 1)) [] calls).map (·.out) ∧
      q.getNumFilledElements + q.getNumAvailableElements = 3 - 1 ∧
      (q.getNumFilledElements = queued.length ↔ q.tailIdx ≤ q.headIdx) :=
  rxBdq_run 3 (by decide) _

/-- After the third element, the head index of a ring of three slots is 0 again: one element is
queued and none is counted. -/
theorem rxBdq_wrapped :
    let calls : List (RxBdqCall Nat) := [.add 1, .add 2, .remove, .remove, .add 3]
    let q := final rxBdqStep (AtmRxBdq.create 3) calls
    final (fifoStep (3 - 1)) [] calls = [3] ∧ q.getNumFilledElements = 0 ∧
      (q.remove).1 = (.success, some 3) := by
  decide

end EchoLife.Atm
