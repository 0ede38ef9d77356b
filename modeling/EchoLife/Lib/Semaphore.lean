import Mathlib.Data.List.Basic

/-!
# One thread and a semaphore

A thread requests and releases a counting semaphore. `run` is what the semaphore does while no
other thread touches it: a request at count zero blocks, and with nobody else to release it the
thread is stuck.

`run_critical` is the rule for a section between a request and its release, and `run_flatMap` the
one for sections that follow each other. `run_critical_held` says that a section inside another
one blocks when the semaphore has one permit.
-/

namespace Semaphore

open List

inductive Op where
  | request
  | release
  deriving Repr, DecidableEq

def run : Nat → List Op → Option Nat
  | count, [] => some count
  | 0, .request :: _ => none
  | count + 1, .request :: ops => run count ops
  | count, .release :: ops => run (count + 1) ops

def critical (body : List Op) : List Op := .request :: (body ++ [.release])

theorem run_append (count : Nat) (first second : List Op) :
    run count (first ++ second) = (run count first).bind fun count => run count second := by
  induction first generalizing count with
  | nil => rfl
  | cons op first ih =>
    cases op with
    | request =>
      cases count with
      | zero => rfl
      | succ count => exact ih count
    | release =>
      cases count with
      | zero => exact ih 1
      | succ count => exact ih (count + 2)

theorem run_critical {count : Nat} {body : List Op} (inside : run count body = some count) :
    run (count + 1) (critical body) = some (count + 1) := by
  rw [critical, run, run_append, inside]
  cases count <;> rfl

theorem run_critical_held (body after : List Op) : run 0 (critical body ++ after) = none := rfl

theorem run_critical_blocks {count : Nat} {body : List Op} (blocks : run count body = none) :
    run (count + 1) (critical body) = none := by
  rw [critical, run, run_append, blocks]
  rfl

theorem run_flatMap {α : Type} {count : Nat} {ops : α → List Op} {xs : List α}
    (each : ∀ x ∈ xs, run count (ops x) = some count) :
    run count (xs.flatMap ops) = some count := by
  induction xs with
  | nil => cases count <;> rfl
  | cons x xs ih =>
    rw [flatMap_cons, run_append, each x mem_cons_self]
    exact ih fun y mem => each y (mem_cons_of_mem _ mem)

end Semaphore
