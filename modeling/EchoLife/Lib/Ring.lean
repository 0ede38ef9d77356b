import Mathlib

/-!
# Positions in a ring

A ring of `size` slots is used from one slot to the next. The slots that were used are counted by
positions 0, 1, 2 and so on; position `p` is in slot `p % size`. Two positions that are less than
`size` apart are in different slots (`mod_eq_mod_iff`), so that what was written at one of them
stays when the other is written (`update_mod_of_near`), and their distance can be read off the slots
(`filled_mod`).
-/

namespace Ring

def next (size slot : Nat) : Nat := if slot + 1 = size then 0 else slot + 1

def filled (size x y : Nat) : Nat := if y ≤ x then x - y else size - y + x

variable {size : Nat}

theorem mod_add {slot : Nat} (inside : slot < size) {distance : Nat} (near : distance < size) :
    (slot + distance) % size =
      if slot + distance < size then slot + distance else slot + distance - size := by
  split
  next fits => exact Nat.mod_eq_of_lt fits
  next wraps =>
    rw [Nat.mod_eq_sub_mod (by omega)]
    exact Nat.mod_eq_of_lt (by omega)

theorem mod_of_near {p q : Nat} (le : p ≤ q) (near : q - p < size) :
    q % size = if p % size + (q - p) < size then p % size + (q - p)
      else p % size + (q - p) - size := by
  have inside : p % size < size := Nat.mod_lt p (by omega)
  rw [← mod_add inside near, Nat.mod_add_mod, Nat.add_sub_cancel' le]

theorem next_mod (pos : 0 < size) (p : Nat) : next size (p % size) = (p + 1) % size := by
  have inside : p % size < size := Nat.mod_lt p pos
  rw [next, ← Nat.mod_add_mod]
  split
  next last => rw [last, Nat.mod_self]
  next inner => exact (Nat.mod_eq_of_lt (by omega)).symm

section

variable {q : Nat} {p : Nat} (le : p ≤ q) (near : q - p < size)
include le near

theorem filled_mod : filled size (q % size) (p % size) = q - p := by
  have inside : p % size < size := Nat.mod_lt p (by omega)
  rw [mod_of_near le near, filled]
  split <;> split <;> omega

/-- **Positions less than a turn apart are in different slots.** -/
theorem mod_eq_mod_iff : q % size = p % size ↔ q = p := by
  have inside : p % size < size := Nat.mod_lt p (by omega)
  rw [mod_of_near le near]
  split <;> omega

theorem next_eq_iff : (q % size + 1) % size = p % size ↔ q + 1 - p = size := by
  rw [Nat.mod_add_mod]
  by_cases turn : q + 1 - p = size
  · have around : q + 1 = p + size := by omega
    simp [around]
  · rw [mod_eq_mod_iff (by omega) (by omega)]
    omega

end

theorem update_mod_of_near {α : Type} (slots : Nat → α) (value : α) {p q : Nat} (lt : p < q)
    (near : q - p < size) :
    Function.update slots (q % size) value (p % size) = slots (p % size) := by
  have other : p % size ≠ q % size := by
    intro same
    have := (mod_eq_mod_iff lt.le near).mp same.symm
    omega
  exact Function.update_of_ne other value slots

end Ring
