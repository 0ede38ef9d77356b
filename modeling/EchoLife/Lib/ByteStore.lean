import Mathlib

/-!
# Loading and storing ranges

A store maps addresses to cells. `load` reads a range as a list and `store` writes a list at an
address. `overwrite` is the same operation on a list that has been read out: it replaces a range
of the list.

The read-modify-write law `store_overwrite_load` says that loading a range, overwriting a part of
the list and storing it back changes that part only. `interrupted` is what a rewriting of a range
from front to back leaves behind when it stops on the way.
-/

namespace ByteStore

open List

variable {α : Type}

def load (m : Nat → α) (a n : Nat) : List α :=
  (List.range n).map fun i => m (a + i)

def store (m : Nat → α) (a : Nat) (d : List α) : Nat → α :=
  fun x => if a ≤ x then d.getD (x - a) (m x) else m x

def overwrite (l : List α) (off : Nat) (d : List α) : List α :=
  l.take off ++ d ++ l.drop (off + d.length)

/-! ## Loads -/

@[simp] theorem length_load (m : Nat → α) (a n : Nat) : (load m a n).length = n := by
  simp [load]

theorem getElem?_load (m : Nat → α) (a n i : Nat) :
    (load m a n)[i]? = if i < n then some (m (a + i)) else none := by
  by_cases h : i < n
  · simp [load, h]
  · simp [load, h]

variable {m : Nat → α} {a x : Nat} {d : List α}

theorem load_congr {m' : Nat → α} {n : Nat} (same : ∀ x, a ≤ x → x < a + n → m x = m' x) :
    load m a n = load m' a n := by
  apply map_congr_left
  intro i hi
  have hi := mem_range.mp hi
  exact same _ (by omega) (by omega)

theorem load_const (v : α) (a n : Nat) : load (fun _ => v) a n = replicate n v := by
  simp [load, map_const']

theorem load_add (m : Nat → α) (a n k : Nat) :
    load m a (n + k) = load m a n ++ load m (a + n) k := by
  simp [load, range_add, Function.comp_def, Nat.add_assoc]

theorem load_eq_append_iff {m : Nat → α} {a : Nat} {front back : List α} :
    load m a (front ++ back).length = front ++ back ↔
      load m a front.length = front ∧ load m (a + front.length) back.length = back := by
  rw [length_append, load_add]
  constructor
  · intro eq
    exact append_inj eq (length_load _ _ _)
  · rintro ⟨first, second⟩
    rw [first, second]

theorem load_eq_cons_iff {x : α} {l : List α} :
    load m a (x :: l).length = x :: l ↔ m a = x ∧ load m (a + 1) l.length = l := by
  have split := @load_eq_append_iff α m a [x] l
  simpa [load] using split

theorem take_load (m : Nat → α) (a n k : Nat) (h : k ≤ n) :
    (load m a n).take k = load m a k := by
  rw [show n = k + (n - k) by omega, load_add, take_left' (by simp)]

theorem drop_load (m : Nat → α) (a n k : Nat) (h : k ≤ n) :
    (load m a n).drop k = load m (a + k) (n - k) := by
  conv_lhs => rw [show n = k + (n - k) by omega, load_add]
  exact drop_left' (by simp)

/-! ## Stores -/

theorem store_apply_of_lt (d : List α) (h : x < a) : store m a d x = m x := by
  simp [store, show ¬ a ≤ x by omega]

theorem store_apply_of_ge (h : a + d.length ≤ x) : store m a d x = m x := by
  simp [store, List.getD, show d.length ≤ x - a by omega]

theorem store_apply_outside (h : x < a ∨ a + d.length ≤ x) : store m a d x = m x :=
  h.elim (store_apply_of_lt d) store_apply_of_ge

theorem store_apply_inside (lower : a ≤ x) (upper : x - a < d.length) :
    store m a d x = d[x - a] := by
  simp [store, lower, List.getD, upper]

@[simp] theorem store_nil (m : Nat → α) (a : Nat) : store m a [] = m := by
  funext x
  simp [store]

theorem store_append (m : Nat → α) (a : Nat) (d e : List α) :
    store m a (d ++ e) = store (store m a d) (a + d.length) e := by
  funext x
  by_cases below : x < a
  · rw [store_apply_of_lt _ below, store_apply_of_lt _ (by omega), store_apply_of_lt _ below]
  by_cases first : x < a + d.length
  · have upper : x - a < d.length := by omega
    rw [store_apply_of_lt e first, store_apply_inside (by omega) upper,
      store_apply_inside (by omega) (by simp; omega), getElem_append_left upper]
  by_cases second : x < a + d.length + e.length
  · rw [store_apply_inside (by omega) (by simp; omega),
      store_apply_inside (by omega) (show x - (a + d.length) < e.length by omega),
      getElem_append_right (by omega)]
    congr 1
    omega
  · rw [store_apply_of_ge (by simp; omega), store_apply_of_ge (by omega),
      store_apply_of_ge (by omega)]

theorem store_store {e : List α} (covers : d.length ≤ e.length) :
    store (store m a d) a e = store m a e := by
  funext x
  by_cases inside : a ≤ x ∧ x - a < e.length
  · rw [store_apply_inside inside.1 inside.2, store_apply_inside inside.1 inside.2]
  · have outside : x < a ∨ a + e.length ≤ x := by omega
    rw [store_apply_outside outside, store_apply_outside outside,
      store_apply_outside (by omega)]

theorem load_store_self (m : Nat → α) (a : Nat) (d : List α) :
    load (store m a d) a d.length = d := by
  apply ext_getElem (by simp)
  intro i h₁ h₂
  have cell : (load (store m a d) a d.length)[i]? = some d[i] := by
    rw [getElem?_load, if_pos h₂, store_apply_inside (by omega) (by omega)]
    simp
  rw [getElem?_eq_getElem h₁] at cell
  exact Option.some.inj cell

theorem load_store_of_disjoint {n b : Nat} (h : a + n ≤ b ∨ b + d.length ≤ a) :
    load (store m b d) a n = load m a n := by
  apply load_congr
  intro x lower upper
  exact store_apply_outside (by omega)

theorem load_store_front (m : Nat → α) (a n : Nat) (h : d.length ≤ n) :
    load (store m a d) a n = d ++ load m (a + d.length) (n - d.length) := by
  conv_lhs => rw [show n = d.length + (n - d.length) by omega, load_add, load_store_self]
  rw [load_store_of_disjoint (by omega)]

theorem load_store_inside (m : Nat → α) (a k n : Nat) (d : List α) (h : k + n ≤ d.length) :
    load (store m a d) (a + k) n = (d.drop k).take n := by
  have whole : (load (store m a d) a d.length).drop k = load (store m a d) (a + k)
      (d.length - k) := drop_load _ _ _ _ (by omega)
  rw [load_store_self] at whole
  rw [whole, take_load _ _ _ _ (by omega)]

theorem store_load_self (m : Nat → α) (a n : Nat) : store m a (load m a n) = m := by
  funext x
  by_cases inside : a ≤ x ∧ x < a + n
  · have cell := getElem?_load m a n (x - a)
    rw [if_pos (by omega), show a + (x - a) = x by omega] at cell
    simp [store, inside.1, List.getD, cell]
  · exact store_apply_outside (by simp; omega)

/-! ## Lists that have been read out -/

theorem overwrite_append (a b d : List α) :
    overwrite (a ++ b) a.length d = a ++ d ++ b.drop d.length := by
  rw [overwrite, take_left, ← drop_drop, drop_left]

theorem overwrite_nil (l : List α) (k : Nat) : overwrite l k [] = l := by
  simp [overwrite]

theorem length_overwrite {l : List α} {off : Nat} (h : off + d.length ≤ l.length) :
    (overwrite l off d).length = l.length := by
  simp only [overwrite, length_append, length_take, length_drop]
  omega

/-- **Read-modify-write.** Loading a range, overwriting a part of it and storing the list back
changes that part only. -/
theorem store_overwrite_load (m : Nat → α) (a n off : Nat) (d : List α)
    (h : off + d.length ≤ n) :
    store m a (overwrite (load m a n) off d) = store m (a + off) d := by
  have before : (load m a n).take off = load m a off := take_load m a n off (by omega)
  have after : (load m a n).drop (off + d.length) =
      load m (a + (off + d.length)) (n - (off + d.length)) := drop_load m a n _ h
  have unchanged : load m (a + (off + d.length)) (n - (off + d.length)) =
      load (store m (a + off) d) (a + (off + d.length)) (n - (off + d.length)) :=
    (load_store_of_disjoint (by omega)).symm
  rw [overwrite, before, after, store_append, store_append, store_load_self, length_load,
    unchanged, length_append, length_load]
  exact store_load_self _ _ _

/-! ## Interrupted rewrites -/

/-- What is left of a range when it is rewritten from front to back and the rewriting stops: `k`
new cells, perhaps `m` blank ones, and the old ones behind them. -/
def interrupted (blank : α) (before after : List α) (k m : Nat) : List α :=
  after.take k ++ replicate m blank ++ before.drop (k + m)

theorem interrupted_split (blank : α) {front front' back back' : List α} {k : Nat}
    (length : front.length = k) (length' : front'.length = k) :
    interrupted blank (front ++ back) (front' ++ back') k 0 = front' ++ back := by
  rw [interrupted, take_left' length', replicate_zero, append_nil, Nat.add_zero,
    drop_left' length]

theorem drop_interrupted (blank : α) {before after : List α} (k m off : Nat)
    (covers : k ≤ after.length) :
    (interrupted blank before after k m).drop off =
      interrupted blank (before.drop off) (after.drop off) (k - off) (m - (off - k)) := by
  rw [interrupted, interrupted, drop_append, drop_append, drop_take,
    drop_replicate, drop_drop, drop_drop]
  simp only [length_append, length_take, length_replicate, Nat.min_eq_left covers]
  congr 2
  omega

end ByteStore
