import Mathlib

/-!
# Hash tables with sorted chains

A table has a fixed number of items. An item in use has a key and stands in the chain of the key's
hash, the chains sorted by key; the others stand on a list of free items.

`Holds` is what the table means: this item has that key. In a well-formed table `findOrAdd` finds
the item of a key, takes a free one for it, or fails when there is none (`findOrAdd_cases`), and
`delete` gives the item of a key back (`WellFormed.delete`).
-/

namespace ChainedTable

open List Function

structure Table (κ : Type) where
  chain : Nat → List Nat
  key : Nat → κ
  free : List Nat

variable {κ : Type} [LinearOrder κ] (hash : κ → Nat)

def Table.front (t : Table κ) (k : κ) : List Nat :=
  (t.chain (hash k)).takeWhile fun n => t.key n < k

def Table.back (t : Table κ) (k : κ) : List Nat :=
  (t.chain (hash k)).dropWhile fun n => t.key n < k

def Table.find (t : Table κ) (k : κ) : Option Nat :=
  match t.back hash k with
  | [] => none
  | n :: _ => if t.key n = k then some n else none

def Table.findOrAdd (t : Table κ) (k : κ) : Option (Nat × Bool) × Table κ :=
  match t.find hash k with
  | some n => (some (n, false), t)
  | none =>
    match t.free with
    | [] => (none, t)
    | n :: free =>
      (some (n, true),
        { chain := update t.chain (hash k) (t.front hash k ++ n :: t.back hash k)
          key := update t.key n k
          free := free })

def Table.delete (t : Table κ) (k : κ) : Table κ :=
  match t.find hash k with
  | none => t
  | some n =>
    { t with
      chain := update t.chain (hash k) (t.front hash k ++ (t.back hash k).tail)
      free := n :: t.free }

def Table.Holds (t : Table κ) (k : κ) (n : Nat) : Prop := n ∈ t.chain (hash k) ∧ t.key n = k

structure WellFormed (t : Table κ) : Prop where
  sorted : ∀ b, (t.chain b).Pairwise fun m n => t.key m < t.key n
  placed : ∀ b n, n ∈ t.chain b → hash (t.key n) = b
  apart : ∀ b n, n ∈ t.chain b → n ∉ t.free
  nodup : t.free.Nodup

variable {hash} {t : Table κ} {k j : κ} {m n : Nat}

theorem front_append_back (t : Table κ) (k : κ) :
    t.front hash k ++ t.back hash k = t.chain (hash k) :=
  takeWhile_append_dropWhile

theorem key_lt_of_mem_front (mem : n ∈ t.front hash k) : t.key n < k := by
  have before := mem_takeWhile_imp mem
  exact of_decide_eq_true before

section

variable (wf : WellFormed hash t)
include wf

theorem WellFormed.le_of_mem_back (mem : n ∈ t.back hash k) : k ≤ t.key n := by
  have sorted : (t.back hash k).Pairwise fun m n => t.key m < t.key n :=
    (wf.sorted (hash k)).sublist (dropWhile_sublist _)
  cases rest : t.back hash k with
  | nil =>
    rw [rest] at mem
    exact absurd mem not_mem_nil
  | cons first more =>
    have least : k ≤ t.key first := by
      have some_item : t.back hash k ≠ [] := by
        rw [rest]
        exact cons_ne_nil _ _
      have stops : decide (t.key ((t.back hash k).head some_item) < k) = false :=
        head_dropWhile_not _ some_item
      simp only [rest, head_cons] at stops
      exact not_lt.mp (of_decide_eq_false stops)
    rw [rest] at mem sorted
    rcases mem_cons.mp mem with rfl | later
    · exact least
    · exact least.trans ((pairwise_cons.mp sorted).1 n later).le

theorem WellFormed.find_eq_some_iff : t.find hash k = some n ↔ t.Holds hash k n := by
  have sorted : (t.back hash k).Pairwise fun m n => t.key m < t.key n :=
    (wf.sorted (hash k)).sublist (dropWhile_sublist _)
  have inside (mem : n ∈ t.back hash k) : n ∈ t.chain (hash k) :=
    (dropWhile_sublist _).subset mem
  constructor
  · intro found
    rw [Table.find] at found
    split at found
    · cases found
    next first more rest =>
      split at found
      next same =>
        cases found
        exact ⟨inside (by rw [rest]; exact mem_cons_self), same⟩
      next => cases found
  · rintro ⟨mem, same⟩
    have behind : n ∈ t.back hash k := by
      rw [← front_append_back, mem_append] at mem
      exact mem.resolve_left fun before => (key_lt_of_mem_front before).ne same
    rw [Table.find]
    cases rest : t.back hash k with
    | nil =>
      rw [rest] at behind
      exact absurd behind not_mem_nil
    | cons first more =>
      have least : k ≤ t.key first :=
        wf.le_of_mem_back (by rw [rest]; exact mem_cons_self)
      rw [rest] at behind sorted
      rcases mem_cons.mp behind with rfl | later
      · exact if_pos same
      · have greater := (pairwise_cons.mp sorted).1 n later
        rw [same] at greater
        exact absurd least (not_le.mpr greater)

theorem WellFormed.holds_unique (first : t.Holds hash k m) (second : t.Holds hash k n) : m = n :=
  Option.some.inj ((wf.find_eq_some_iff.mpr first).symm.trans (wf.find_eq_some_iff.mpr second))

theorem WellFormed.not_free (holds : t.Holds hash k n) : n ∉ t.free :=
  wf.apart _ n holds.1

end

theorem wellFormed_empty (free : List Nat) (nodup : free.Nodup) (key : Nat → κ) :
    WellFormed hash ⟨fun _ => [], key, free⟩ :=
  ⟨fun _ => .nil, fun _ _ mem => absurd mem not_mem_nil,
    fun _ _ mem => absurd mem not_mem_nil, nodup⟩

theorem WellFormed.add (wf : WellFormed hash t) {free : List Nat} (unheld : t.find hash k = none)
    (empty : t.free = n :: free) :
    let t' : Table κ :=
      { chain := update t.chain (hash k) (t.front hash k ++ n :: t.back hash k)
        key := update t.key n k
        free := free }
    WellFormed hash t' ∧ ∀ j m, t'.Holds hash j m ↔ j = k ∧ m = n ∨ t.Holds hash j m := by
  intro t'
  have newItem (b : Nat) : n ∉ t.chain b := fun mem =>
    wf.apart b n mem (by rw [empty]; exact mem_cons_self)
  have key_self : t'.key n = k := update_self ..
  have key_other {m : Nat} (other : m ≠ n) : t'.key m = t.key m := update_of_ne other ..
  have old {b m : Nat} (mem : m ∈ t.chain b) : t'.key m = t.key m :=
    key_other fun same => newItem b (same ▸ mem)
  have here : t'.chain (hash k) = t.front hash k ++ n :: t.back hash k :=
    update_self ..
  have there {b : Nat} (other : b ≠ hash k) : t'.chain b = t.chain b :=
    update_of_ne other ..
  have members (b m : Nat) : m ∈ t'.chain b ↔ b = hash k ∧ m = n ∨ m ∈ t.chain b := by
    by_cases same : b = hash k
    · subst same
      rw [here, ← front_append_back t k, mem_append, mem_append, mem_cons]
      tauto
    · grind
  obtain ⟨notFirst, freeNodup⟩ := nodup_cons.mp (empty ▸ wf.nodup)
  refine ⟨⟨fun b => ?_, fun b m mem => ?_, fun b m mem => ?_, freeNodup⟩, fun j m => ?_⟩
  · -- in the chain of the key, the new item stands between smaller and larger keys
    by_cases same : b = hash k
    · subst same
      have sorted := wf.sorted (hash k)
      rw [← front_append_back t k, pairwise_append] at sorted
      obtain ⟨front, back, between⟩ := sorted
      have inFront {m : Nat} (mem : m ∈ t.front hash k) : t'.key m = t.key m :=
        old ((takeWhile_sublist _).subset mem)
      have inBack {m : Nat} (mem : m ∈ t.back hash k) : t'.key m = t.key m :=
        old ((dropWhile_sublist _).subset mem)
      have behind {m : Nat} (mem : m ∈ t.back hash k) : k < t.key m := by
        refine lt_of_le_of_ne (wf.le_of_mem_back mem) fun same => ?_
        have held : t.Holds hash k m := ⟨(dropWhile_sublist _).subset mem, same.symm⟩
        rw [wf.find_eq_some_iff.mpr held] at unheld
        cases unheld
      rw [here, pairwise_append, pairwise_cons]
      refine ⟨front.imp_of_mem fun left right less => ?_, ⟨fun m mem => ?_, ?_⟩, ?_⟩
      · rw [inFront left, inFront right]
        exact less
      · rw [key_self, inBack mem]
        exact behind mem
      · exact back.imp_of_mem fun left right less => by rwa [inBack left, inBack right]
      · intro m mem m' mem'
        rw [inFront mem]
        rcases mem_cons.mp mem' with rfl | later
        · rw [key_self]
          exact key_lt_of_mem_front mem
        · rw [inBack later]
          exact between m mem m' later
    · rw [there same]
      exact (wf.sorted b).imp_of_mem fun left right less => by rwa [old left, old right]
  · rcases (members b m).mp mem with ⟨rfl, rfl⟩ | before
    · rw [key_self]
    · rw [old before]
      exact wf.placed b m before
  · rcases (members b m).mp mem with ⟨rfl, rfl⟩ | before
    · exact notFirst
    · intro isFree
      exact wf.apart b m before (by rw [empty]; exact mem_cons_of_mem _ isFree)
  · rw [Table.Holds, Table.Holds, members]
    by_cases same : m = n
    · subst same
      rw [key_self]
      constructor
      · rintro ⟨-, rfl⟩
        exact .inl ⟨rfl, rfl⟩
      · rintro (⟨rfl, -⟩ | ⟨mem, -⟩)
        · exact ⟨.inl ⟨rfl, rfl⟩, rfl⟩
        · exact absurd mem (newItem _)
    · rw [key_other same]
      tauto

/-- **Finding or adding a key**: its item is found, there is no room, or a free item is taken. -/
theorem WellFormed.findOrAdd_cases (wf : WellFormed hash t) (k : κ) :
    (∃ n, t.Holds hash k n ∧ t.findOrAdd hash k = (some (n, false), t)) ∨
      (∀ n, ¬ t.Holds hash k n) ∧ t.findOrAdd hash k = (none, t) ∨
      ∃ n t', (∀ m, ¬ t.Holds hash k m) ∧ n ∈ t.free ∧
        t.findOrAdd hash k = (some (n, true), t') ∧ WellFormed hash t' ∧
        ∀ j m, t'.Holds hash j m ↔ j = k ∧ m = n ∨ t.Holds hash j m := by
  rw [Table.findOrAdd]
  cases found : t.find hash k with
  | some n => exact .inl ⟨n, wf.find_eq_some_iff.mp found, rfl⟩
  | none =>
    have unheld (n : Nat) (holds : t.Holds hash k n) : False := by
      rw [wf.find_eq_some_iff.mpr holds] at found
      cases found
    cases empty : t.free with
    | nil => exact .inr (.inl ⟨unheld, rfl⟩)
    | cons n free =>
      obtain ⟨wf', holds⟩ := wf.add found empty
      exact .inr (.inr ⟨n, _, unheld, mem_cons_self, rfl, wf', holds⟩)

theorem WellFormed.delete (wf : WellFormed hash t) (held : t.Holds hash k n) :
    WellFormed hash (t.delete hash k) ∧
      ∀ j m, (t.delete hash k).Holds hash j m ↔ t.Holds hash j m ∧ j ≠ k := by
  have found := wf.find_eq_some_iff.mpr held
  obtain ⟨more, rest⟩ : ∃ more, t.back hash k = n :: more := by
    rw [Table.find] at found
    split at found
    · cases found
    next first more rest =>
      split at found
      · cases found
        exact ⟨more, rest⟩
      · cases found
  have result : t.delete hash k = { t with
      chain := update t.chain (hash k) (t.front hash k ++ more)
      free := n :: t.free } := by
    rw [Table.delete, found, rest]
    rfl
  have whole : t.chain (hash k) = t.front hash k ++ n :: more := by
    rw [← front_append_back, rest]
  have nodup : (t.chain (hash k)).Nodup :=
    (wf.sorted (hash k)).imp fun less same => less.ne (congrArg t.key same)
  have members (b m : Nat) : m ∈ (t.delete hash k).chain b ↔ m ∈ t.chain b ∧ m ≠ n := by
    rw [result]
    show m ∈ update t.chain (hash k) _ b ↔ _
    by_cases same : b = hash k
    · subst same
      rw [update_self, whole, mem_append, mem_append, mem_cons]
      rw [whole, nodup_middle, nodup_cons, mem_append] at nodup
      constructor
      · intro mem
        refine ⟨by tauto, ?_⟩
        rintro rfl
        exact nodup.1 mem
      · rintro ⟨mem, other⟩
        tauto
    · rw [update_of_ne same]
      refine (and_iff_left_of_imp fun mem => ?_).symm
      rintro rfl
      rw [← wf.placed b m mem, held.2] at same
      exact same rfl
  have sublist (b : Nat) : ((t.delete hash k).chain b).Sublist (t.chain b) := by
    rw [result]
    show (update t.chain (hash k) _ b).Sublist _
    by_cases same : b = hash k
    · subst same
      rw [update_self, whole]
      exact (sublist_cons_self n more).append_left _
    · rw [update_of_ne same]
  have key : (t.delete hash k).key = t.key := by rw [result]
  have freed : (t.delete hash k).free = n :: t.free := by rw [result]
  refine ⟨⟨fun b => ?_, fun b m mem => ?_, fun b m mem => ?_, ?_⟩, fun j m => ?_⟩
  · rw [key]
    exact (wf.sorted b).sublist (sublist b)
  · rw [key]
    exact wf.placed b m ((members b m).mp mem).1
  · obtain ⟨before, other⟩ := (members b m).mp mem
    rw [freed, mem_cons]
    exact not_or.mpr ⟨other, wf.apart b m before⟩
  · rw [freed]
    exact nodup_cons.mpr ⟨wf.not_free held, wf.nodup⟩
  · rw [Table.Holds, members, key]
    constructor
    · rintro ⟨⟨mem, other⟩, rfl⟩
      refine ⟨⟨mem, rfl⟩, fun same => other ?_⟩
      exact wf.holds_unique ⟨same ▸ mem, same⟩ held
    · rintro ⟨⟨mem, rfl⟩, other⟩
      refine ⟨⟨mem, ?_⟩, rfl⟩
      rintro rfl
      exact other held.2

end ChainedTable
