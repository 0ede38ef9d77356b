import Mathlib

/-!
# Tables of contiguous blocks

Block `k` of a device occupies the addresses from `start sizes k` up to `start sizes (k + 1)`, where
`start` sums the sizes of the blocks before it. An address lies in one block only (`block_unique`),
and the sum that a loop over consecutive blocks computes is a difference of two starts
(`start_add_spanSize`).
-/

namespace BlockTable

open List

def start (sizes : List Nat) (k : Nat) : Nat :=
  (sizes.take k).sum

def size (sizes : List Nat) (k : Nat) : Nat :=
  sizes.getD k 0

def total (sizes : List Nat) : Nat :=
  sizes.sum

variable (sizes : List Nat)

@[simp] theorem start_zero : start sizes 0 = 0 := by
  simp [start]

theorem start_cons_succ (s k : Nat) : start (s :: sizes) (k + 1) = s + start sizes k := by
  simp [start]

theorem start_succ (k : Nat) : start sizes (k + 1) = start sizes k + size sizes k := by
  induction sizes generalizing k with
  | nil => simp [start, size]
  | cons s rest ih =>
    cases k with
    | zero => simp [start, size]
    | succ k =>
      rw [start_cons_succ, start_cons_succ, ih k]
      simp only [size, getD_cons_succ]
      omega

theorem size_mem {k : Nat} (h : k < sizes.length) : size sizes k ∈ sizes := by
  rw [size, List.getD, getElem?_eq_getElem h]
  exact getElem_mem h

theorem start_mono {i j : Nat} (h : i ≤ j) : start sizes i ≤ start sizes j := by
  induction h with
  | refl => exact le_refl _
  | step _ ih => exact le_trans ih (by rw [start_succ]; omega)

theorem start_length : start sizes sizes.length = total sizes := by
  simp [start, total]

theorem start_eq_total_of_length_le {k : Nat} (h : sizes.length ≤ k) :
    start sizes k = total sizes := by
  simp [start, total, take_of_length_le h]

theorem start_le_total (k : Nat) : start sizes k ≤ total sizes := by
  rcases Nat.le_total k sizes.length with h | h
  · exact start_length sizes ▸ start_mono sizes h
  · exact (start_eq_total_of_length_le sizes h).le

theorem block_unique {a i j : Nat} (hi : start sizes i ≤ a ∧ a < start sizes (i + 1))
    (hj : start sizes j ≤ a ∧ a < start sizes (j + 1)) : i = j := by
  rcases Nat.lt_trichotomy i j with h | h | h
  · have := start_mono sizes (show i + 1 ≤ j by omega)
    omega
  · exact h
  · have := start_mono sizes (show j + 1 ≤ i by omega)
    omega

theorem lt_of_start_lt {i j : Nat} (h : start sizes i < start sizes j) : i < j := by
  by_contra hge
  have := start_mono sizes (show j ≤ i by omega)
  omega

def spanSize : (k n : Nat) → Nat
  | _, 0 => 0
  | k, n + 1 => size sizes k + spanSize (k + 1) n

theorem start_add_spanSize (k n : Nat) :
    start sizes k + spanSize sizes k n = start sizes (k + n) := by
  induction n generalizing k with
  | zero => simp [spanSize]
  | succ n ih =>
    have step := ih (k + 1)
    rw [start_succ] at step
    rw [spanSize, show k + (n + 1) = k + 1 + n by omega, ← step]
    omega

theorem spanSize_cons_succ (s k n : Nat) :
    spanSize (s :: sizes) (k + 1) n = spanSize sizes k n := by
  induction n generalizing k with
  | zero => rfl
  | succ n ih => simp only [spanSize, ih, size, getD_cons_succ]

end BlockTable
