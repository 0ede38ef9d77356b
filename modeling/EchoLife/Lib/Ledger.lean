import Mathlib

/-!
# A ledger of things that are handed in and given back

Things are numbered as they are handed in, and are given back in this order, or all at once; then
the ones behind the first `current` come first. Along every run nothing is given back twice, and
everything is pending or was given back (`Balanced.steps`).
-/

namespace Ledger

open List Function

inductive Entry where
  | inTurn (k : Nat)
  | behind (k : Nat)
  | first (k : Nat)
  deriving DecidableEq

def Entry.number : Entry → Nat
  | .inTurn k => k
  | .behind k => k
  | .first k => k

structure Book where
  handedIn : Nat
  pending : List Nat
  log : List Entry

inductive Step : Book → Book → Prop
  | handIn (b : Book) :
      Step b { b with handedIn := b.handedIn + 1, pending := b.pending ++ [b.handedIn] }
  | giveBack {b : Book} {k : Nat} {rest : List Nat} (head : b.pending = k :: rest) :
      Step b { b with pending := rest, log := b.log ++ [.inTurn k] }
  | giveAllBack {b : Book} {current waiting : List Nat} (all : b.pending = current ++ waiting) :
      Step b { b with pending := [], log := b.log ++ waiting.map .behind ++ current.map .first }

abbrev Steps : Book → Book → Prop := Relation.ReflTransGen Step

def InOrder (a b : Entry) : Prop :=
  a.number < b.number ∨ (∃ k, a = .behind k) ∧ ∃ k, b = .first k

structure Balanced (b : Book) : Prop where
  sorted : b.pending.Pairwise (· < ·)
  pending_lt : ∀ k ∈ b.pending, k < b.handedIn
  log_lt : ∀ e ∈ b.log, e.number < b.handedIn
  before : ∀ e ∈ b.log, ∀ k ∈ b.pending, e.number < k
  once : (b.log.map Entry.number).Nodup
  ordered : b.log.Pairwise InOrder
  complete : ∀ k < b.handedIn, k ∈ b.pending ∨ k ∈ b.log.map Entry.number

namespace Balanced

variable {b : Book} (balanced : Balanced b)

include balanced

theorem handIn :
    Balanced { b with handedIn := b.handedIn + 1, pending := b.pending ++ [b.handedIn] } where
  sorted := by
    rw [pairwise_append]
    refine ⟨balanced.sorted, pairwise_singleton _ _, ?_⟩
    intro k mem l last
    rw [mem_singleton.mp last]
    exact balanced.pending_lt k mem
  pending_lt := by
    intro k mem
    obtain mem | mem := mem_append.mp mem
    · exact Nat.lt_succ_of_lt (balanced.pending_lt k mem)
    · rw [mem_singleton.mp mem]
      exact Nat.lt_succ_self _
  log_lt := fun e mem => Nat.lt_succ_of_lt (balanced.log_lt e mem)
  before := by
    intro e logged k mem
    obtain mem | mem := mem_append.mp mem
    · exact balanced.before e logged k mem
    · rw [mem_singleton.mp mem]
      exact balanced.log_lt e logged
  once := balanced.once
  ordered := balanced.ordered
  complete := by
    intro k less
    obtain less | rfl := Nat.lt_succ_iff_lt_or_eq.mp less
    · obtain pending | logged := balanced.complete k less
      · exact .inl (mem_append_left _ pending)
      · exact .inr logged
    · exact .inl (mem_append_right _ (mem_singleton_self _))

theorem giveBack {k : Nat} {rest : List Nat} (head : b.pending = k :: rest) :
    Balanced { b with pending := rest, log := b.log ++ [.inTurn k] } := by
  have first : k ∈ b.pending := by simp [head]
  have later : ∀ l ∈ rest, l ∈ b.pending := fun l mem => by simp [head, mem]
  have sorted := balanced.sorted
  rw [head, pairwise_cons] at sorted
  refine ⟨sorted.2, fun l mem => balanced.pending_lt l (later l mem), ?_, ?_, ?_, ?_, ?_⟩
  · intro e mem
    obtain mem | mem := mem_append.mp mem
    · exact balanced.log_lt e mem
    · rw [mem_singleton.mp mem]
      exact balanced.pending_lt k first
  · intro e mem l pending
    obtain mem | mem := mem_append.mp mem
    · exact balanced.before e mem l (later l pending)
    · rw [mem_singleton.mp mem]
      exact sorted.1 l pending
  · rw [map_append, map_singleton, nodup_append]
    refine ⟨balanced.once, nodup_singleton _, ?_⟩
    intro l mem m last
    obtain ⟨e, logged, rfl⟩ := mem_map.mp mem
    rw [mem_singleton.mp last]
    exact Nat.ne_of_lt (balanced.before e logged k first)
  · rw [pairwise_append]
    refine ⟨balanced.ordered, pairwise_singleton _ _, ?_⟩
    intro e logged f last
    rw [mem_singleton.mp last]
    exact .inl (balanced.before e logged k first)
  · intro l less
    obtain pending | logged := balanced.complete l less
    · rw [head] at pending
      obtain rfl | pending := mem_cons.mp pending
      · exact .inr (by simp [Entry.number])
      · exact .inl pending
    · exact .inr (by rw [map_append]; exact mem_append_left _ logged)

theorem giveAllBack {current waiting : List Nat} (all : b.pending = current ++ waiting) :
    Balanced
      { b with pending := [], log := b.log ++ waiting.map .behind ++ current.map .first } := by
  have number_behind : (waiting.map Entry.behind).map Entry.number = waiting := by
    simp [comp_def, Entry.number]
  have number_first : (current.map Entry.first).map Entry.number = current := by
    simp [comp_def, Entry.number]
  have sorted := balanced.sorted
  rw [all, pairwise_append] at sorted
  obtain ⟨sorted_current, sorted_waiting, across⟩ := sorted
  have in_waiting : ∀ k ∈ waiting, k ∈ b.pending := fun k mem => by simp [all, mem]
  have in_current : ∀ k ∈ current, k ∈ b.pending := fun k mem => by simp [all, mem]
  refine ⟨List.Pairwise.nil, by simp, ?_, by simp, ?_, ?_, ?_⟩
  · intro e mem
    rw [append_assoc, mem_append, mem_append] at mem
    obtain logged | mem | mem := mem
    · exact balanced.log_lt e logged
    · obtain ⟨k, inside, rfl⟩ := mem_map.mp mem
      exact balanced.pending_lt k (in_waiting k inside)
    · obtain ⟨k, inside, rfl⟩ := mem_map.mp mem
      exact balanced.pending_lt k (in_current k inside)
  · rw [map_append, map_append, number_behind, number_first, append_assoc,
      nodup_append]
    refine ⟨balanced.once, ?_, ?_⟩
    · rw [nodup_append_comm, ← all]
      exact balanced.sorted.imp Nat.ne_of_lt
    · intro k number l mem
      obtain ⟨e, logged, rfl⟩ := mem_map.mp number
      have pending : l ∈ b.pending := by
        rw [all]
        exact mem_append.mpr (mem_append.mp mem).symm
      exact Nat.ne_of_lt (balanced.before e logged l pending)
  · rw [append_assoc, pairwise_append]
    refine ⟨balanced.ordered, ?_, ?_⟩
    · rw [pairwise_append]
      refine ⟨?_, ?_, ?_⟩
      · exact pairwise_map.mpr (sorted_waiting.imp .inl)
      · exact pairwise_map.mpr (sorted_current.imp .inl)
      · intro e behind f first
        obtain ⟨k, -, rfl⟩ := mem_map.mp behind
        obtain ⟨l, -, rfl⟩ := mem_map.mp first
        exact .inr ⟨⟨k, rfl⟩, l, rfl⟩
    · intro e logged f mem
      obtain mem | mem := mem_append.mp mem
      · obtain ⟨k, inside, rfl⟩ := mem_map.mp mem
        exact .inl (balanced.before e logged k (in_waiting k inside))
      · obtain ⟨k, inside, rfl⟩ := mem_map.mp mem
        exact .inl (balanced.before e logged k (in_current k inside))
  · intro k less
    refine .inr ?_
    rw [map_append, map_append, number_behind, number_first, append_assoc]
    obtain pending | logged := balanced.complete k less
    · grind
    · exact mem_append_left _ logged

end Balanced

theorem Balanced.step {b b' : Book} (balanced : Balanced b) (step : Step b b') : Balanced b' := by
  cases step with
  | handIn => exact balanced.handIn
  | giveBack head => exact balanced.giveBack head
  | giveAllBack all => exact balanced.giveAllBack all

theorem Balanced.steps {b b' : Book} (balanced : Balanced b) (steps : Steps b b') :
    Balanced b' := by
  induction steps with
  | refl => exact balanced
  | tail _ step ih => exact ih.step step

theorem balanced_empty : Balanced ⟨0, [], []⟩ := by
  constructor <;> simp

end Ledger
