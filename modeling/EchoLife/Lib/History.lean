import Mathlib

/-!
# Histories of a machine

`history step s calls` lists the transitions of a run, so that a statement about a run can look back
at it. `holds_since` is the rule for what no later transition undoes, `counted_final` the one for
invariants that count outputs, `folded_final` for those that keep a record of the run, and
`simulates_final` for two machines that answer alike.
-/

namespace History

open List

structure Transition (σ ι ο : Type) where
  before : σ
  call : ι
  out : ο
  after : σ

variable {σ ι ο : Type} (step : σ → ι → ο × σ)

def history : σ → List ι → List (Transition σ ι ο)
  | _, [] => []
  | s, c :: calls => ⟨s, c, (step s c).1, (step s c).2⟩ :: history (step s c).2 calls

def final (s : σ) (calls : List ι) : σ :=
  calls.foldl (fun s c => (step s c).2) s

variable {step}

variable {s : σ} {calls : List ι} {t : Transition σ ι ο} {I : σ → Prop}
  {earlier : List (Transition σ ι ο)}

theorem step_of_mem (mem : t ∈ history step s calls) : step t.before t.call = (t.out, t.after) := by
  induction calls generalizing s with
  | nil => simp [history] at mem
  | cons c calls ih =>
    rw [history, mem_cons] at mem
    rcases mem with rfl | mem
    · rfl
    · exact ih mem

theorem call_mem (mem : t ∈ history step s calls) : t.call ∈ calls := by
  induction calls generalizing s with
  | nil => simp [history] at mem
  | cons c calls ih =>
    rw [history, mem_cons] at mem
    rcases mem with rfl | mem
    · exact mem_cons_self
    · exact mem_cons_of_mem _ (ih mem)

theorem holds_before (start : I s) (keeps : ∀ u ∈ history step s calls, I u.before → I u.after)
    (mem : t ∈ history step s calls) : I t.before := by
  induction calls generalizing s with
  | nil => simp [history] at mem
  | cons c calls ih =>
    rcases mem_cons.mp mem with rfl | later
    · exact start
    · exact ih (keeps _ mem_cons_self start)
        (fun u mem => keeps u (mem_cons_of_mem _ mem)) later

theorem invariant_of_mem (start : I s) (keeps : ∀ c ∈ calls, ∀ s, I s → I (step s c).2)
    (mem : t ∈ history step s calls) : I t.before ∧ I t.after := by
  have kept : ∀ u ∈ history step s calls, I u.before → I u.after := by
    intro u mem before
    have next := keeps u.call (call_mem mem) u.before before
    rwa [step_of_mem mem] at next
  have before := holds_before start kept mem
  exact ⟨before, kept t mem before⟩

theorem history_split {later : List (Transition σ ι ο)}
    (split : history step s calls = earlier ++ t :: later) :
    ∃ rest, later = history step t.after rest ∧ final step s calls = final step t.after rest := by
  induction calls generalizing s earlier with
  | nil => simp [history] at split
  | cons c calls ih =>
    cases earlier with
    | nil =>
      obtain ⟨rfl, rfl⟩ := split
      exact ⟨calls, rfl, rfl⟩
    | cons e earlier =>
      rw [history, cons_append, cons.injEq] at split
      exact ih split.2

theorem holds_final (start : I s) (keeps : ∀ u ∈ history step s calls, I u.before → I u.after) :
    I (final step s calls) := by
  induction calls generalizing s with
  | nil => exact start
  | cons c calls ih =>
    refine ih (keeps _ mem_cons_self start) fun u mem => ?_
    exact keeps u (mem_cons_of_mem _ mem)

/-- **What a transition brings about and no later one undoes holds at the end of the run.** -/
theorem holds_since {later : List (Transition σ ι ο)}
    (split : history step s calls = earlier ++ t :: later) (start : I t.after)
    (keeps : ∀ u ∈ later, I u.before → I u.after) : I (final step s calls) := by
  obtain ⟨rest, rfl, last⟩ := history_split split
  rw [last]
  exact holds_final start keeps

theorem final_append (s : σ) (first second : List ι) :
    final step s (first ++ second) = final step (final step s first) second :=
  foldl_append

theorem counted_final {I : σ → Nat → Prop} (weigh : ο → Nat) {n : Nat} (start : I s n)
    (keeps : ∀ u ∈ history step s calls, ∀ n, I u.before n → I u.after (n + weigh u.out)) :
    I (final step s calls) (n + ((history step s calls).map fun u => weigh u.out).sum) := by
  induction calls generalizing s n with
  | nil => exact start
  | cons c calls ih =>
    have rest := ih (keeps _ mem_cons_self n start) fun u mem =>
      keeps u (mem_cons_of_mem _ mem)
    rw [history, map_cons, sum_cons, ← Nat.add_assoc]
    exact rest

theorem folded_final {α : Type} {I : σ → α → Prop} (record : α → Transition σ ι ο → α) {a : α}
    (start : I s a)
    (keeps : ∀ u ∈ history step s calls, ∀ a, I u.before a → I u.after (record a u)) :
    I (final step s calls) ((history step s calls).foldl record a) := by
  induction calls generalizing s a with
  | nil => exact start
  | cons c calls ih =>
    refine ih (keeps _ mem_cons_self a start) fun u mem => ?_
    exact keeps u (mem_cons_of_mem _ mem)

/-- **Simulation.** Machines that answer every call alike, in related states, answer every run
alike. -/
theorem simulates_final {τ : Type} {step' : τ → ι → ο × τ} {R : σ → τ → Prop}
    (alike : ∀ s t c, R s t → (step s c).1 = (step' t c).1 ∧ R (step s c).2 (step' t c).2) {t : τ}
    (start : R s t) (calls : List ι) :
    (history step s calls).map (·.out) = (history step' t calls).map (·.out) ∧
      R (final step s calls) (final step' t calls) := by
  induction calls generalizing s t with
  | nil => exact ⟨rfl, start⟩
  | cons c calls ih =>
    obtain ⟨same, next⟩ := alike s t c start
    obtain ⟨rest, last⟩ := ih next
    refine ⟨?_, last⟩
    rw [history, history, map_cons, map_cons, rest, same]

theorem mem_of_split {run between : List (Transition σ ι ο)} {u v : Transition σ ι ο}
    (split : run = earlier ++ t :: between ++ [u]) (which : v = t ∨ v ∈ between ∨ v = u) :
    v ∈ run := by
  rw [split]
  simp only [mem_append, mem_cons, not_mem_nil, or_false]
  tauto

theorem holds_before_last {u : Transition σ ι ο} {between : List (Transition σ ι ο)}
    (split : history step s calls = earlier ++ t :: between ++ [u]) (start : I t.after)
    (keeps : ∀ v ∈ between, I v.before → I v.after) : I u.before := by
  rw [append_assoc, cons_append] at split
  obtain ⟨rest, tail, -⟩ := history_split split
  clear split
  induction between generalizing rest start t with
  | nil =>
    cases rest with
    | nil => simp [history] at tail
    | cons c rest =>
      rw [history, nil_append, cons.injEq] at tail
      rw [tail.1]
      exact start
  | cons v between ih =>
    cases rest with
    | nil => simp [history] at tail
    | cons c rest =>
      rw [history, cons_append, cons.injEq] at tail
      obtain ⟨rfl, tail⟩ := tail
      exact ih (keeps _ mem_cons_self start)
        (fun w mem => keeps w (mem_cons_of_mem _ mem)) rest tail

end History
