import Mathlib

/-!
# Searching a text that ends at a stop letter

`find` looks for the first occurrence of a word in a text that ends at its first stop letter. What
follows a text does not change where an occurrence is found (`find_append`), and the search passes
over a front that `Avoids` the word (`find_avoids`).
-/

namespace TextSearch

open List Option

def ascii (s : String) : List UInt8 :=
  s.toList.map fun c => c.toNat.toUInt8

variable {α : Type} [DecidableEq α] {stop : α} {word text : List α} {i : Nat}

def find (stop : α) (word : List α) : List α → Option Nat
  | [] => if word = [] then some 0 else none
  | c :: text =>
    if word.isPrefixOf (c :: text) then some 0
    else if c = stop then none
    else (find stop word text).map (· + 1)

theorem find_le (found : find stop word text = some i) : i + word.length ≤ text.length := by
  induction text generalizing i with
  | nil =>
    simp only [find] at found
    split at found
    · rename_i empty
      cases found
      simp [empty]
    · cases found
  | cons c text ih =>
    simp only [find] at found
    split at found
    · rename_i here
      cases found
      simpa using (List.isPrefixOf_iff_prefix.mp here).length_le
    · split at found
      · cases found
      · obtain ⟨j, there, rfl⟩ := map_eq_some_iff.mp found
        have := ih there
        simp only [length_cons]
        omega

theorem find_append (found : find stop word text = some i) (rest : List α) :
    find stop word (text ++ rest) = some i := by
  induction text generalizing i with
  | nil =>
    simp only [find] at found
    split at found
    · rename_i empty
      subst empty
      cases found
      cases rest with
      | nil => rfl
      | cons c rest => rfl
    · cases found
  | cons c text ih =>
    have room := find_le found
    have same : word.isPrefixOf (c :: (text ++ rest)) = word.isPrefixOf (c :: text) := by
      rw [Bool.eq_iff_iff, List.isPrefixOf_iff_prefix, List.isPrefixOf_iff_prefix]
      constructor
      · intro longer
        exact prefix_of_prefix_length_le longer (prefix_append (c :: text) rest)
          (by omega)
      · intro here
        exact here.trans (prefix_append (c :: text) rest)
    rw [cons_append, find, same]
    rw [find] at found
    by_cases here : word.isPrefixOf (c :: text) = true
    · rwa [if_pos here] at found ⊢
    · rw [if_neg here] at found ⊢
      by_cases ended : c = stop
      · rw [if_pos ended] at found
        cases found
      · rw [if_neg ended] at found ⊢
        obtain ⟨j, there, rfl⟩ := map_eq_some_iff.mp found
        rw [ih there]
        rfl

theorem isPrefixOf_stop (apart : stop ∉ word) (text rest : List α) :
    word.isPrefixOf (text ++ stop :: rest) = word.isPrefixOf text := by
  rw [Bool.eq_iff_iff, List.isPrefixOf_iff_prefix, List.isPrefixOf_iff_prefix]
  constructor
  · intro longer
    rcases Nat.lt_or_ge text.length word.length with beyond | shorter
    · have inside : text ++ [stop] <+: word := by
        refine prefix_of_prefix_length_le ⟨rest, ?_⟩ longer ?_
        · rw [append_assoc, singleton_append]
        · rw [length_append, length_singleton]
          exact beyond
      exact absurd (inside.subset (mem_append_right _ mem_cons_self)) apart
    · exact prefix_of_prefix_length_le longer (prefix_append _ _) shorter
  · intro here
    exact here.trans (prefix_append _ _)

theorem find_stop (apart : stop ∉ word) (nonempty : word ≠ []) (text rest : List α) :
    find stop word (text ++ stop :: rest) = find stop word text := by
  induction text with
  | nil =>
    have here := isPrefixOf_stop apart [] rest
    rw [nil_append] at here ⊢
    obtain ⟨a, tail, rfl⟩ := exists_cons_of_ne_nil nonempty
    rw [find, find, here, if_neg nonempty, if_neg (by simp), if_pos rfl]
  | cons c text ih =>
    have here := isPrefixOf_stop apart (c :: text) rest
    rw [cons_append] at here ⊢
    rw [find, find, here, ih]

theorem find_ne_none {front : List α} (goesOn : stop ∉ front) (rest : List α) :
    find stop word (front ++ (word ++ rest)) ≠ none := by
  induction front with
  | nil =>
    cases text : word ++ rest with
    | nil =>
      obtain ⟨rfl, -⟩ := append_eq_nil_iff.mp text
      nofun
    | cons c tail =>
      have here : word.isPrefixOf (c :: tail) = true := by grind
      rw [nil_append, find, if_pos here]
      nofun
  | cons c front ih =>
    obtain ⟨differs, later⟩ := ne_and_not_mem_of_not_mem_cons goesOn
    rw [cons_append, find, if_neg (Ne.symm differs)]
    split
    · nofun
    · simpa using ih later

/-- No occurrence of the word begins in `front`, whatever follows it: at every position a letter
of `front` differs from the word's. -/
def Avoids (stop : α) (word : List α) : List α → Prop
  | [] => True
  | c :: front => c ≠ stop ∧ (word.zip (c :: front)).all (fun ab => ab.1 = ab.2) = false ∧
      Avoids stop word front

instance decidableAvoids (front : List α) : Decidable (Avoids stop word front) :=
  match front with
  | [] => inferInstanceAs (Decidable True)
  | _ :: front =>
    have := decidableAvoids front
    inferInstanceAs (Decidable (_ ∧ _ ∧ Avoids stop word front))

theorem all_zip_of_begins {front rest : List α} (here : word <+: front ++ rest) :
    (word.zip front).all (fun ab => ab.1 = ab.2) = true := by
  induction word generalizing front with
  | nil => rfl
  | cons a word ih =>
    cases front with
    | nil => rfl
    | cons c front =>
      obtain ⟨rfl, tail⟩ := cons_prefix_cons.mp here
      rw [zip_cons_cons, all_cons, ih tail]
      simp

theorem find_avoids {front : List α} (avoids : Avoids stop word front) (rest : List α) :
    find stop word (front ++ rest) = (find stop word rest).map (· + front.length) := by
  induction front with
  | nil => simp
  | cons c front ih =>
    obtain ⟨goesOn, differs, avoids⟩ := avoids
    have here : ¬ word.isPrefixOf (c :: (front ++ rest)) = true := by
      intro here
      have agrees : (word.zip (c :: front)).all (fun ab => ab.1 = ab.2) = true :=
        all_zip_of_begins (List.isPrefixOf_iff_prefix.mp here)
      rw [agrees] at differs
      cases differs
    rw [cons_append, find, if_neg here, if_neg goesOn, ih avoids, Option.map_map]
    congr 1

/-! ## Decimal texts -/

theorem toDigits_induction {P : Nat → List Char → Prop} (one : ∀ d < 10, P d [Nat.digitChar d])
    (more : ∀ m front, ∀ d < 10, P m front → P (10 * m + d) (front ++ [Nat.digitChar d]))
    (n : Nat) : P n (Nat.toDigits 10 n) := by
  induction n using Nat.strong_induction_on with
  | _ n ih =>
    rw [Nat.toDigits_eq_if (by decide)]
    split
    next small => exact one n small
    next large =>
      have longer := more (n / 10) _ (n % 10) (by omega) (ih (n / 10) (by omega))
      rwa [Nat.div_add_mod] at longer

end TextSearch
