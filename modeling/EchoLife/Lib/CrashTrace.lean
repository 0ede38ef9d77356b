import Mathlib

/-!
# Computations over a device, with their crash states

A device changes by steps that are atomic for a power failure. A `Traced` computation reads the
device, returns a value and lists its steps; a crash leaves the device after a prefix of them
(`Crash`). `crash_bind` splits the crash states of a sequence, and `crash_invariant` is the rule
for properties that every step keeps.
-/

namespace CrashTrace

open List

class Device (σ : Type) (ε : outParam Type) where
  apply : σ → ε → σ

variable {σ ε α β : Type}

def Traced (σ ε α : Type) : Type := σ → α × List ε

variable {m : Traced σ ε α} {s t : σ}

namespace Traced

def value (m : Traced σ ε α) (s : σ) : α := (m s).1

def steps (m : Traced σ ε α) (s : σ) : List ε := (m s).2

theorem ext {m' : Traced σ ε α} (values : ∀ s, m.value s = m'.value s)
    (traces : ∀ s, m.steps s = m'.steps s) : m = m' :=
  funext fun s => Prod.ext (values s) (traces s)

def perform (e : ε) : Traced σ ε Unit := fun _ => ((), [e])

def observe (f : σ → α) : Traced σ ε α := fun s => (f s, [])

@[simp] theorem value_observe (f : σ → α) (s : σ) :
    (observe f : Traced σ ε α).value s = f s := rfl

@[simp] theorem steps_observe (f : σ → α) (s : σ) :
    (observe f : Traced σ ε α).steps s = [] := rfl

@[simp] theorem steps_perform (e : ε) (s : σ) : (perform e : Traced σ ε Unit).steps s = [e] := rfl

end Traced

variable [Device σ ε]

def applyAll (s : σ) (steps : List ε) : σ :=
  steps.foldl Device.apply s

@[simp] theorem applyAll_nil (s : σ) : applyAll s ([] : List ε) = s := rfl

theorem applyAll_append (s : σ) (first second : List ε) :
    applyAll s (first ++ second) = applyAll (applyAll s first) second := by
  simp [applyAll]

theorem applyAll_invariant {P : σ → Prop} {steps : List ε} (base : P s)
    (keep : ∀ e ∈ steps, ∀ x, P x → P (Device.apply x e)) : P (applyAll s steps) := by
  induction steps generalizing s with
  | nil => exact base
  | cons e rest ih =>
    exact ih (keep e (by simp) s base) fun e' he' => keep e' (by simp [he'])

namespace Traced

def final (m : Traced σ ε α) (s : σ) : σ := applyAll s (m.steps s)

instance : Monad (Traced σ ε) where
  pure a := fun _ => (a, [])
  bind m k := fun s => ((k (m.value s)).value (m.final s), m.steps s ++
    (k (m.value s)).steps (m.final s))

@[simp] theorem value_pure (a : α) (s : σ) : (pure a : Traced σ ε α).value s = a := rfl

@[simp] theorem steps_pure (a : α) (s : σ) : (pure a : Traced σ ε α).steps s = [] := rfl

@[simp] theorem final_pure (a : α) (s : σ) : (pure a : Traced σ ε α).final s = s := rfl

@[simp] theorem final_observe (f : σ → α) (s : σ) :
    (observe f : Traced σ ε α).final s = s := rfl

@[simp] theorem final_perform (e : ε) (s : σ) :
    (perform e : Traced σ ε Unit).final s = Device.apply s e := rfl

@[simp] theorem value_bind (m : Traced σ ε α) (k : α → Traced σ ε β) (s : σ) :
    (m >>= k).value s = (k (m.value s)).value (m.final s) := rfl

@[simp] theorem steps_bind (m : Traced σ ε α) (k : α → Traced σ ε β) (s : σ) :
    (m >>= k).steps s = m.steps s ++ (k (m.value s)).steps (m.final s) := rfl

@[simp] theorem final_bind (m : Traced σ ε α) (k : α → Traced σ ε β) (s : σ) :
    (m >>= k).final s = (k (m.value s)).final (m.final s) := by
  simp only [final, steps_bind, applyAll_append]

theorem bind_congr {k k' : α → Traced σ ε β} (same : ∀ s, k (m.value s) = k' (m.value s)) :
    m >>= k = m >>= k' := by
  refine ext (fun s => ?_) fun s => ?_
  · rw [value_bind, value_bind, same]
  · rw [steps_bind, steps_bind, same]

/-! ## Crash states -/

def Crash (m : Traced σ ε α) (s t : σ) : Prop :=
  ∃ done, done <+: m.steps s ∧ t = applyAll s done

theorem crash_final (m : Traced σ ε α) (s : σ) : m.Crash s (m.final s) :=
  ⟨m.steps s, prefix_refl _, rfl⟩

theorem crash_start (m : Traced σ ε α) (s : σ) : m.Crash s s :=
  ⟨[], nil_prefix, rfl⟩

theorem crash_of_steps_nil (none : m.steps s = []) : m.Crash s t ↔ t = s := by
  constructor
  · rintro ⟨done, h, rfl⟩
    rw [none] at h
    rw [prefix_nil.mp h, applyAll_nil]
  · rintro rfl
    exact ⟨[], nil_prefix, rfl⟩

@[simp] theorem crash_pure {a : α} : (pure a : Traced σ ε α).Crash s t ↔ t = s :=
  crash_of_steps_nil rfl

@[simp] theorem crash_observe {f : σ → α} : (observe f : Traced σ ε α).Crash s t ↔ t = s :=
  crash_of_steps_nil rfl

@[simp] theorem crash_perform {e : ε} :
    (perform e : Traced σ ε Unit).Crash s t ↔ t = s ∨ t = Device.apply s e := by
  constructor
  · rintro ⟨done, h, rfl⟩
    rcases prefix_cons_iff.mp h with rfl | ⟨rest, rfl, hrest⟩
    · exact .inl rfl
    · rw [prefix_nil.mp hrest]
      exact .inr rfl
  · rintro (rfl | rfl)
    · exact ⟨[], nil_prefix, rfl⟩
    · exact ⟨[e], prefix_refl _, rfl⟩

/-- **Crash states of a sequence**: those of its first part, and those of its second part from
where the first one ends. -/
theorem crash_bind {k : α → Traced σ ε β} :
    (m >>= k).Crash s t ↔ m.Crash s t ∨ (k (m.value s)).Crash (m.final s) t := by
  constructor
  · rintro ⟨done, h, rfl⟩
    rcases prefix_or_prefix_of_prefix h (prefix_append _ _) with first | ⟨rest, rfl⟩
    · exact .inl ⟨done, first, rfl⟩
    · exact .inr ⟨rest, (prefix_append_right_inj _).mp h, by rw [applyAll_append]; rfl⟩
  · rintro (⟨done, h, rfl⟩ | ⟨done, h, rfl⟩)
    · exact ⟨done, h.trans (prefix_append _ _), rfl⟩
    · exact ⟨m.steps s ++ done, (prefix_append_right_inj _).mpr h,
        by rw [applyAll_append]; rfl⟩

theorem crash_invariant {P : σ → Prop} (crash : m.Crash s t) (base : P s)
    (keep : ∀ e ∈ m.steps s, ∀ x, P x → P (Device.apply x e)) : P t := by
  obtain ⟨done, h, rfl⟩ := crash
  exact applyAll_invariant base fun e he => keep e (h.subset he)

end Traced

end CrashTrace
