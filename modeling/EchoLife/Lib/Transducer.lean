import Mathlib

/-!
# Transducers, and outputs that come in pieces

A transducer reads one input after the other and answers each with a list of outputs. `run_append`
says that the input can be read in two parts.

An output may be handed over in several pieces. `Joining` says which outputs are pieces of one that
may be joined, and `joined` joins all neighbours; `joined_append` says that it does not matter
whether the parts of a list were joined before.
-/

namespace Transducer

open List Option

/-! ## Runs -/

section Runs

variable {S I O : Type} (step : S → I → List O × S)

def run : S → List I → List O × S
  | s, [] => ([], s)
  | s, i :: rest => ((step s i).1 ++ (run (step s i).2 rest).1, (run (step s i).2 rest).2)

theorem run_append (s : S) (first second : List I) :
    run step s (first ++ second)
      = ((run step s first).1 ++ (run step (run step s first).2 second).1,
        (run step (run step s first).2 second).2) := by
  induction first generalizing s with
  | nil => rfl
  | cons i first ih => simp only [cons_append, run, ih, append_assoc]

theorem run_stays {s : S} {inputs : List I} (stays : ∀ i ∈ inputs, step s i = ([], s)) :
    run step s inputs = ([], s) := by
  induction inputs with
  | nil => rfl
  | cons i inputs ih =>
    rw [run, stays i mem_cons_self, ih fun j mem => stays j (mem_cons_of_mem _ mem)]
    rfl

theorem run_emits {s : S} {out : I → O} {inputs : List I}
    (emits : ∀ i ∈ inputs, step s i = ([out i], s)) :
    run step s inputs = (inputs.map out, s) := by
  induction inputs with
  | nil => rfl
  | cons i inputs ih =>
    rw [run, emits i mem_cons_self, ih fun j mem => emits j (mem_cons_of_mem _ mem)]
    rfl

theorem run_collects {mode : List I → S} {inputs : List I}
    (collects : ∀ i ∈ inputs, ∀ piece, step (mode piece) i = ([], mode (piece ++ [i])))
    (piece : List I) : run step (mode piece) inputs = ([], mode (piece ++ inputs)) := by
  induction inputs generalizing piece with
  | nil =>
    rw [append_nil]
    rfl
  | cons i inputs ih =>
    rw [run, collects i mem_cons_self,
      ih fun j mem => collects j (mem_cons_of_mem _ mem), append_assoc]
    rfl

end Runs

/-! ## Pieces -/

section Pieces

variable {O : Type}

structure Joining (O : Type) where
  join : O → O → Option O
  /-- Of three pieces in a row, the first two or the last two can be joined first. -/
  assoc : ∀ {a b c ab}, join a b = some ab → join ab c = (join b c).bind (join a)
  total : ∀ {a b c ab bc}, join a b = some ab → join b c = some bc → join a bc ≠ none

namespace Joining

variable (J : Joining O)

def push (o : O) : List O → List O
  | [] => [o]
  | x :: rest =>
    match J.join o x with
    | some y => y :: rest
    | none => o :: x :: rest

def joined : List O → List O
  | [] => []
  | o :: rest => J.push o (joined rest)

theorem push_some {o x y : O} (both : J.join o x = some y) (rest : List O) :
    J.push o (x :: rest) = y :: rest := by
  simp only [push, both]

theorem push_none {o x : O} (apart : J.join o x = none) (rest : List O) :
    J.push o (x :: rest) = o :: x :: rest := by
  simp only [push, apart]

theorem push_push {a b ab : O} (both : J.join a b = some ab) (rest : List O) :
    J.push a (J.push b rest) = J.push ab rest := by
  cases rest with
  | nil => rw [push, J.push_some both, push]
  | cons x rest =>
    have assoc := J.assoc (c := x) both
    cases later : J.join b x with
    | none =>
      rw [later, bind_none] at assoc
      rw [J.push_none later, J.push_some both, J.push_none assoc]
    | some bx =>
      rw [later, bind_some] at assoc
      obtain ⟨y, all⟩ := ne_none_iff_exists'.mp (J.total both later)
      rw [J.push_some later, J.push_some all, J.push_some (assoc.trans all)]

theorem foldr_joined (outputs rest : List O) :
    (J.joined outputs).foldr J.push rest = outputs.foldr J.push rest := by
  induction outputs with
  | nil => rfl
  | cons o outputs ih =>
    rw [joined, foldr_cons, ← ih]
    cases J.joined outputs with
    | nil => rfl
    | cons x tail =>
      cases both : J.join o x with
      | none => rw [J.push_none both, foldr_cons]
      | some y => rw [J.push_some both, foldr_cons, foldr_cons, J.push_push both]

theorem joined_eq_foldr (outputs : List O) : J.joined outputs = outputs.foldr J.push [] := by
  induction outputs with
  | nil => rfl
  | cons o outputs ih => rw [joined, ih, foldr_cons]

/-- **Joining a list does not depend on what was joined in its parts.** -/
theorem joined_append {first first' second second' : List O}
    (same : J.joined first = J.joined first') (same' : J.joined second = J.joined second') :
    J.joined (first ++ second) = J.joined (first' ++ second') := by
  rw [J.joined_eq_foldr, foldr_append, ← J.joined_eq_foldr, same', ← J.foldr_joined first,
    same, J.foldr_joined, J.joined_eq_foldr second', ← foldr_append, ← J.joined_eq_foldr]

section Single

variable {J} {I : Type} (piece : List I → O)
  (glue : ∀ i inputs, J.join (piece [i]) (piece inputs) = some (piece (i :: inputs)))
include glue

theorem joined_ended (inputs : List I) :
    J.joined (inputs.map (fun i => piece [i]) ++ [piece []]) = [piece inputs] := by
  induction inputs with
  | nil => rfl
  | cons i inputs ih => rw [map_cons, cons_append, joined, ih, J.push_some (glue i inputs)]

theorem joined_map {inputs : List I} (nonempty : inputs ≠ []) :
    J.joined (inputs.map fun i => piece [i]) = [piece inputs] := by
  induction inputs with
  | nil => exact absurd rfl nonempty
  | cons i inputs ih =>
    cases inputs with
    | nil => rfl
    | cons j inputs =>
      rw [map_cons, joined, ih (cons_ne_nil _ _), J.push_some (glue i (j :: inputs))]

end Single

theorem flatMap_joined {X : Type} {f : O → List X}
    (pieces : ∀ {a b ab}, J.join a b = some ab → f ab = f a ++ f b) (outputs : List O) :
    (J.joined outputs).flatMap f = outputs.flatMap f := by
  induction outputs with
  | nil => rfl
  | cons o outputs ih =>
    rw [joined, flatMap_cons, ← ih]
    cases J.joined outputs with
    | nil => rfl
    | cons x tail =>
      cases both : J.join o x with
      | none => rw [J.push_none both, flatMap_cons]
      | some y =>
        rw [J.push_some both, flatMap_cons, flatMap_cons, pieces both,
          append_assoc]

end Joining

end Pieces

end Transducer
