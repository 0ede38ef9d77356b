import Mathlib

/-!
# Nested elements

The tags of a document are nested when each element is closed inside the one that it was opened in,
by an end tag of its own name or by a tag that closes itself. `pairs` reads tags with a stack of
the names that are open; `Nested.pairs` says that it passes over nested tags.
-/

namespace Nesting

open List

variable {ν : Type}

inductive Tag (ν : Type)
  | start (name : ν)
  | stop (name : ν)
  | close
  deriving Repr, DecidableEq

inductive Nested : List (Tag ν) → Prop
  | nil : Nested []
  | closed {name : ν} {rest : List (Tag ν)} : Nested rest → Nested (.start name :: .close :: rest)
  | element {name : ν} {body rest : List (Tag ν)} : Nested body → Nested rest →
      Nested (.start name :: (body ++ .stop name :: rest))

def Rooted (root : ν) (tags : List (Tag ν)) : Prop :=
  ∃ body, Nested body ∧ tags = .start root :: (body ++ [.stop root])

theorem Nested.append {tags rest : List (Tag ν)} (nested : Nested tags) (behind : Nested rest) :
    Nested (tags ++ rest) := by
  induction nested with
  | nil => exact behind
  | closed _ ih => exact .closed ih
  | element body _ _ ih =>
    rw [cons_append, append_assoc, cons_append]
    exact .element body ih

theorem nested_flatMap {α : Type} {f : α → List (Tag ν)} {items : List α}
    (nested : ∀ item ∈ items, Nested (f item)) : Nested (items.flatMap f) := by
  induction items with
  | nil => exact .nil
  | cons item items ih =>
    exact (nested item mem_cons_self).append
      (ih fun other mem => nested other (mem_cons_of_mem _ mem))

variable [DecidableEq ν]

def pairs : List ν → List (Tag ν) → Option (List ν)
  | opened, [] => some opened
  | opened, .start name :: tags => pairs (name :: opened) tags
  | _ :: opened, .close :: tags => pairs opened tags
  | top :: opened, .stop name :: tags => if name = top then pairs opened tags else none
  | [], .close :: _ => none
  | [], .stop _ :: _ => none

theorem pairs_stop {opened final : List ν} {top name : ν} {tags : List (Tag ν)}
    (read : pairs (top :: opened) (.stop name :: tags) = some final) :
    name = top ∧ pairs opened tags = some final := by
  rw [pairs] at read
  split at read
  case isTrue same => exact ⟨same, read⟩
  case isFalse => cases read

theorem pairs_flatMap {α : Type} {f : α → List (Tag ν)} {good : α → Prop} {items : List α}
    (step : ∀ item ∈ items, ∀ opened tags final, pairs opened (f item ++ tags) = some final →
      good item ∧ pairs opened tags = some final)
    {opened final : List ν} {tags : List (Tag ν)}
    (read : pairs opened (items.flatMap f ++ tags) = some final) :
    (∀ item ∈ items, good item) ∧ pairs opened tags = some final := by
  induction items with
  | nil => exact ⟨nofun, read⟩
  | cons item items ih =>
    rw [flatMap_cons, append_assoc] at read
    obtain ⟨here, read⟩ := step item mem_cons_self _ _ _ read
    obtain ⟨later, read⟩ := ih (fun other mem => step other (mem_cons_of_mem _ mem)) read
    exact ⟨forall_mem_cons.mpr ⟨here, later⟩, read⟩

theorem Nested.pairs {body : List (Tag ν)} (nested : Nested body) (opened : List ν)
    (tags : List (Tag ν)) : pairs opened (body ++ tags) = pairs opened tags := by
  induction nested generalizing opened tags with
  | nil => rfl
  | closed _ ih => exact ih opened tags
  | @element name body rest _ _ inner outer =>
    rw [cons_append, append_assoc, cons_append, Nesting.pairs, inner,
      Nesting.pairs, if_pos rfl, outer]

theorem Rooted.pairs {root : ν} {tags : List (Tag ν)} (rooted : Rooted root tags) :
    pairs [] tags = some [] := by
  obtain ⟨body, nested, rfl⟩ := rooted
  rw [Nesting.pairs, nested.pairs, Nesting.pairs, if_pos rfl, Nesting.pairs]

end Nesting
