import Mathlib

/-!
# Cutting a list into slices

`slices size l` cuts `l` into pieces of `size` elements and a last one that may be shorter. Without
its last pieces, a list that was cut is no longer whole (`flatten_take_eq_iff`).
-/

namespace Slices

open List

variable {α : Type*}

def slices (size : Nat) (l : List α) : List (List α) :=
  if 0 < size ∧ l ≠ [] then l.take size :: slices size (l.drop size) else []
termination_by l.length
decreasing_by
  have nonempty : 0 < l.length := length_pos_iff.mpr (by tauto)
  simp only [length_drop]
  omega

@[simp] theorem slices_nil (size : Nat) : slices size ([] : List α) = [] := by
  rw [slices]
  simp

theorem slices_of_ne_nil {size : Nat} {l : List α} (pos : 0 < size) (nonempty : l ≠ []) :
    slices size l = l.take size :: slices size (l.drop size) := by
  rw [slices]
  exact if_pos ⟨pos, nonempty⟩

theorem slices_append_short {size : Nat} {front rest : List α} (short : front.length < size)
    (nonempty : rest ≠ []) :
    slices size (front ++ rest) =
      (front ++ rest.take (size - front.length)) ::
        slices size (rest.drop (size - front.length)) := by
  rw [slices_of_ne_nil (by omega) (by simp [nonempty]), take_append, drop_append,
    take_of_length_le (by omega), drop_eq_nil_of_le (by omega), nil_append]

section

variable {size : Nat} (pos : 0 < size)

include pos

theorem slice_induction {motive : List α → Prop} (nil : motive [])
    (cut : ∀ l, l ≠ [] → motive (l.drop size) → motive l) (l : List α) : motive l := by
  induction l using slices.induct size with
  | case1 l nonempty ih => exact cut l nonempty.2 ih
  | case2 l rest =>
    have empty : l = [] := by simpa [pos] using rest
    exact empty ▸ nil

theorem flatten_slices (l : List α) : (slices size l).flatten = l := by
  induction l using slice_induction pos with
  | nil => rw [slices_nil, flatten_nil]
  | cut l nonempty ih =>
    rw [slices_of_ne_nil pos nonempty, flatten_cons, ih, take_append_drop]

theorem flatten_flatMap_slices (lists : List (List α)) :
    (lists.flatMap (slices size)).flatten = lists.flatten := by
  induction lists with
  | nil => rfl
  | cons l more ih =>
    rw [flatMap_cons, flatten_append, flatten_slices pos, ih, flatten_cons]

theorem length_slices (l : List α) : (slices size l).length = (l.length + size - 1) / size := by
  induction l using slice_induction pos with
  | nil => rw [slices_nil, length_nil, length_nil, Nat.div_eq_of_lt (by omega)]
  | cut l nonempty ih =>
    have some_left : 0 < l.length := length_pos_iff.mpr nonempty
    rw [slices_of_ne_nil pos nonempty, length_cons, ih, length_drop]
    by_cases more : size < l.length
    · rw [show l.length + size - 1 = l.length - size + size - 1 + size by omega,
        Nat.add_div_right _ pos]
    · rw [show l.length - size + size - 1 = size - 1 by omega,
        Nat.div_eq_of_lt (by omega : size - 1 < size),
        show l.length + size - 1 = l.length - 1 + size by omega, Nat.add_div_right _ pos,
        Nat.div_eq_of_lt (by omega : l.length - 1 < size)]

theorem length_le_of_mem_slices (l : List α) : ∀ slice ∈ slices size l, slice.length ≤ size := by
  induction l using slice_induction pos with
  | nil => simp
  | cut l nonempty ih =>
    rw [slices_of_ne_nil pos nonempty]
    intro slice mem
    rcases mem_cons.mp mem with rfl | later
    · exact length_take_le _ _
    · exact ih slice later

theorem ne_nil_of_mem_slices (l : List α) : ∀ slice ∈ slices size l, slice ≠ [] := by
  induction l using slice_induction pos with
  | nil => simp
  | cut l nonempty ih =>
    rw [slices_of_ne_nil pos nonempty]
    intro slice mem
    rcases mem_cons.mp mem with rfl | later
    · simpa [take_eq_nil_iff] using ⟨pos.ne', nonempty⟩
    · exact ih slice later

end

theorem flatten_take_eq_iff {pieces : List (List α)} (nonempty : ∀ piece ∈ pieces, piece ≠ [])
    (n : Nat) : (pieces.take n).flatten = pieces.flatten ↔ pieces.length ≤ n := by
  constructor
  · intro whole
    by_contra fewer
    have split : (pieces.take n).flatten ++ (pieces.drop n).flatten = pieces.flatten := by
      rw [← flatten_append, take_append_drop]
    have nothing : (pieces.drop n).flatten = [] := by
      rw [whole] at split
      exact append_right_eq_self.mp split
    obtain ⟨piece, mem⟩ := exists_mem_of_ne_nil (pieces.drop n)
      (by simpa [drop_eq_nil_iff] using fewer)
    exact nonempty piece (mem_of_mem_drop mem) (flatten_eq_nil_iff.mp nothing piece mem)
  · intro all
    rw [take_of_length_le all]

end Slices
