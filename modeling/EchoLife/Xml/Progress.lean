import EchoLife.Xml.Nanoxml

/-!
# Progress of the XML parser

Some rounds of `nxml_write` change only the state. There are at most two of them in front of a byte
(`Nxml.rank`), so that each round makes `Nxml.weight` smaller, whatever the state is. The loop ends
within three rounds for each byte (`nxmlLoop_rounds`).
-/

namespace EchoLife.Xml

open List Option

/-- The rounds that may still come before the next byte is consumed. -/
def Nxml.rank (h : Nxml) : List UInt8 → Nat
  | [] => 0
  | c :: _ =>
    match h.state with
    | .tagName => 2
    | .attrName => if c = 61 ∨ (isWhitespace c ∧ h.skipwhitespace = false) then 1 else 0
    | .attrValueEquals => if c = 61 ∨ (isWhitespace c ∧ h.skipwhitespace = true) then 0 else 1
    | .attrValueQuote | .endTagName => 1
    | .beginTag | .finishTag | .attrValue => 0

def Nxml.weight (h : Nxml) (data : List UInt8) : Nat := 3 * data.length + h.rank data

section

variable {h h' : Nxml} {c : UInt8} {data rest : List UInt8}

theorem weight_lt (h : Nxml) (data : List UInt8) : h.weight data < 3 * data.length + 3 := by
  have rank : h.rank data ≤ 2 := by
    cases data with
    | nil => exact Nat.zero_le _
    | cons c rest =>
      rw [Nxml.rank]
      split
      · exact le_refl _
      · split <;> omega
      · split <;> omega
      all_goals omega
  rw [Nxml.weight]
  omega

theorem weight_lt_of_length_lt (shorter : rest.length < data.length) :
    h'.weight rest < h.weight data := by
  have light := weight_lt h' rest
  rw [Nxml.weight, Nxml.weight] at *
  omega

def Lighter (h : Nxml) (data : List UInt8) : Outcome → Prop
  | .stop _ _ => True
  | .go _ h' rest _ => h'.weight rest < h.weight data

theorem span_cases (p : UInt8 → Bool) (data : List UInt8) :
    (data.dropWhile p = [] ∧ ∀ c ∈ data, p c = true) ∨
      ∃ front d after, data = front ++ d :: after ∧ (∀ c ∈ front, p c = true) ∧ p d = false ∧
        data.dropWhile p = d :: after ∧ data.takeWhile p = front := by
  cases found : data.dropWhile p with
  | nil => exact .inl ⟨rfl, dropWhile_eq_nil_iff.mp found⟩
  | cons d after =>
    have first := head_dropWhile_not p (l := data) (by rw [found]; exact cons_ne_nil _ _)
    refine .inr ⟨_, d, after, ?_, fun c mem => mem_takeWhile_imp mem, ?_, rfl, rfl⟩
    · rw [← found, takeWhile_append_dropWhile]
    · simpa only [found, head_cons] using first

theorem name_cases (ends : UInt8 → Bool) (data : List UInt8) :
    (data.dropWhile (fun c => !ends c) = [] ∧ ∀ c ∈ data, ends c = false) ∨
      ∃ more d after, data = more ++ d :: after ∧ (∀ c ∈ more, ends c = false) ∧ ends d = true ∧
        data.dropWhile (fun c => !ends c) = d :: after ∧
        data.takeWhile (fun c => !ends c) = more := by
  rcases span_cases (fun c => !ends c) data with
    ⟨found, plain⟩ | ⟨more, d, after, split, plain, ending, found, taken⟩
  · exact .inl ⟨found, by simpa using plain⟩
  · exact .inr ⟨more, d, after, split, by simpa using plain, by simpa using ending, found, taken⟩

theorem lighter_behind {p : UInt8 → Bool} {d : UInt8} (found : data.dropWhile p = d :: rest) :
    h'.weight rest < h.weight data := by
  have suffix := (dropWhile_suffix p (l := data)).length_le
  rw [found, length_cons] at suffix
  exact weight_lt_of_length_lt (by omega)

theorem lighter_wholeName (state : h.state = .tagName ∨ h.state = .attrName) (notClose : c ≠ 62)
    (notSlash : h.state = .attrName → c ≠ 47)
    (black : ¬ (h.skipwhitespace = true ∧ isWhitespace c = true)) :
    Lighter h (c :: rest) (nxmlWholeName h (c :: rest)) := by
  rw [nxmlWholeName]
  rcases name_cases isDelimiter (c :: rest) with
    ⟨found, -⟩ | ⟨name, d, after, split, -, ends, found, -⟩
  · rw [found]
    trivial
  · have shorter := congrArg List.length split
    rw [length_append] at shorter
    rw [found]
    rcases state with state | state
    · simp only [nxmlStartName, state, if_true, Xml.next, Lighter, Nxml.weight, Nxml.rank]
      split <;> omega
    · simp only [nxmlStartName, state, reduceCtorEq, if_false, Xml.next, Lighter]
      cases name with
      | nil =>
        -- The name was complete in an earlier chunk, or there is none in front of the `=`.
        obtain ⟨rfl, rfl⟩ := cons.inj split
        have again : c = 61 ∨ isWhitespace c = true := by
          simpa [isDelimiter, notSlash state, notClose, or_comm] using ends
        have unskipped : c = 61 ∨ (isWhitespace c = true ∧ h.skipwhitespace = false) := by grind
        simp [Nxml.weight, Nxml.rank, state, unskipped, again]
      | cons e name =>
        simp only [length_cons] at shorter
        exact weight_lt_of_length_lt (by simp only [length_cons]; omega)

theorem lighter_name (state : h.state = .tagName ∨ h.state = .attrName)
    (black : ¬ (h.skipwhitespace = true ∧ isWhitespace c = true)) :
    Lighter h (c :: rest) (nxmlName h c rest) := by
  have consumed {h' : Nxml} : h'.weight rest < h.weight (c :: rest) :=
    weight_lt_of_length_lt (Nat.lt_succ_self _)
  rw [nxmlName]
  split
  · exact consumed
  · split
    · exact consumed
    next notSlash =>
      split
      · exact consumed
      next notClose =>
        exact lighter_wholeName state notClose (fun attr slash => notSlash ⟨slash, attr⟩) black

theorem lighter_round (h : Nxml) (c : UInt8) (rest : List UInt8) :
    Lighter h (c :: rest) (nxmlRound h c rest) := by
  rw [nxmlRound]
  split
  next skipped =>
    have suffix := (dropWhile_suffix isWhitespace (l := rest)).length_le
    exact weight_lt_of_length_lt (Nat.lt_succ_of_le suffix)
  next black =>
    have consumed {h' : Nxml} : h'.weight rest < h.weight (c :: rest) :=
      weight_lt_of_length_lt (Nat.lt_succ_self _)
    cases state : h.state with
    | beginTag =>
      simp only [nxmlBeginTag]
      split
      · trivial
      next found => exact lighter_behind found
    | finishTag =>
      simp only [nxmlFinishTag]
      split
      · trivial
      next found => exact lighter_behind found
    | attrValue =>
      simp only [nxmlAttrValue]
      split
      · trivial
      next found => exact lighter_behind found
    | endTagName =>
      simp only [nxmlEndTagName]
      rcases name_cases isEndDelimiter (c :: rest) with
        ⟨found, -⟩ | ⟨name, d, after, split, -, -, found, -⟩
      · rw [found]
        trivial
      · have shorter := congrArg List.length split
        rw [length_append] at shorter
        rw [found]
        simp only [nxmlEndName, Xml.next, Lighter, Nxml.weight, Nxml.rank, state]
        omega
    | tagName => exact lighter_name (.inl state) black
    | attrName => exact lighter_name (.inr state) black
    | attrValueEquals =>
      simp only [nxmlAttrValueEquals]
      split
      · exact consumed
      · split
        · exact consumed
        next notEquals =>
          have kept : ¬ (c = 61 ∨ (isWhitespace c = true ∧ h.skipwhitespace = true)) := by grind
          simp only [Xml.next, Lighter, Nxml.weight, Nxml.rank, state, if_neg kept]
          simp [notEquals]
    | attrValueQuote =>
      simp only [nxmlAttrValueQuote]
      split
      · exact consumed
      · simp [Xml.next, Lighter, Nxml.weight, Nxml.rank, state]

theorem nxmlLoop_ends {n m : Nat} (enough : h.weight data < n) (more : h.weight data < m) :
    ∃ r, nxmlLoop n h data = some r ∧ nxmlLoop m h data = some r := by
  induction n generalizing h data m with
  | zero => exact absurd enough (Nat.not_lt_zero _)
  | succ n ih =>
    cases m with
    | zero => exact absurd more (Nat.not_lt_zero _)
    | succ m =>
      cases data with
      | nil => exact ⟨_, rfl, rfl⟩
      | cons c rest =>
        have lighter := lighter_round h c rest
        rw [nxmlLoop, nxmlLoop]
        cases outcome : nxmlRound h c rest with
        | stop events h' => exact ⟨_, rfl, rfl⟩
        | go events h' data psiEnd =>
          rw [outcome] at lighter
          obtain ⟨r, first, second⟩ := ih (m := m)
            (Nat.lt_of_lt_of_le lighter (Nat.le_of_lt_succ enough))
            (Nat.lt_of_lt_of_le lighter (Nat.le_of_lt_succ more))
          cases psiEnd with
          | true => exact ⟨_, rfl, rfl⟩
          | false =>
            simp only [first, second]
            exact ⟨_, rfl, rfl⟩

theorem nxmlLoop_eq {rounds : Nat} (enough : h.weight data < rounds) :
    nxmlLoop rounds h data = some (nxmlWrite h data) := by
  have light := weight_lt h data
  obtain ⟨r, loop, write⟩ := nxmlLoop_ends enough
    (show h.weight data < 4 * data.length + 4 by omega)
  rw [loop, nxmlWrite, write]
  rfl

end

/-- **The parser always makes progress.** From every state the loop over a chunk ends within three
rounds for each byte and three more, with what `nxml_write` does. -/
theorem nxmlLoop_rounds (h : Nxml) (data : List UInt8) :
    nxmlLoop (3 * data.length + 3) h data = some (nxmlWrite h data) :=
  nxmlLoop_eq (weight_lt h data)

end EchoLife.Xml
