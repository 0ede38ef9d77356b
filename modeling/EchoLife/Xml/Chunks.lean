import EchoLife.Xml.Feed

/-!
# Text in chunks

The parser may be given its text in chunks. Between two chunks it forgets some of what it has read:
that it is inside a text, that it has seen the last end tag, and whether a name is complete.

`Harmless` says when a cut does no harm, and `nxmlWrite_chunks` that texts whose cuts are all
harmless give the same callbacks, up to pieces, and the same state, however they are cut. For a
single cut the condition is exact. `cut_loses_tag` is a cut that loses a start tag.
-/

namespace EchoLife.Xml

open List TextSearch Transducer Mode NameKind

/-! ## Cuts -/

def NameFits (ends : UInt8 → Bool) (kept piece rest : List UInt8) : Prop :=
  kept = [] → (∃ d ∈ rest, ends d = true) →
    (piece ++ rest.takeWhile fun c => !ends c).length ≤ nxmlMaxNameSize

/-- A cut in some mode, with the text behind it, does no harm: no blank follows inside a text, no
`>` behind the last end tag, and a name that has begun in this chunk is not too long and, for a
start tag or an attribute, goes on or ends with a blank or `=` (or with `/`, for a tag). -/
def Harmless : Mode → List UInt8 → Prop
  | .text true, rest => ∀ c ∈ rest.head?, isWhitespace c = false
  | .tagName kept piece, rest =>
    piece = [] ∨ (rest.head? ≠ some 62 ∧ NameFits isDelimiter kept piece rest)
  | .attrName kept piece, rest =>
    piece = [] ∨
      (rest.head? ≠ some 62 ∧ rest.head? ≠ some 47 ∧ NameFits isDelimiter kept piece rest)
  | .endTagName kept piece, rest => piece = [] ∨ NameFits isEndDelimiter kept piece rest
  | .ended, rest => 62 ∉ rest
  | _, _ => True

instance (ends : UInt8 → Bool) (kept piece rest : List UInt8) :
    Decidable (NameFits ends kept piece rest) :=
  inferInstanceAs (Decidable (_ → (∃ d ∈ rest, ends d = true) → _))

instance (m : Mode) (rest : List UInt8) : Decidable (Harmless m rest) :=
  match m with
  | .text true => inferInstanceAs (Decidable (∀ c ∈ rest.head?, isWhitespace c = false))
  | .tagName _ _ => inferInstanceAs (Decidable (_ ∨ (_ ∧ _)))
  | .attrName _ _ => inferInstanceAs (Decidable (_ ∨ (_ ∧ _ ∧ _)))
  | .endTagName _ _ => inferInstanceAs (Decidable (_ ∨ _))
  | .ended => inferInstanceAs (Decidable (¬ _))
  | .text false | .equals | .quote | .value | .finish => inferInstanceAs (Decidable True)

def Agree (r r' : List Event × Nxml) : Prop :=
  pieces.joined r.1 = pieces.joined r'.1 ∧ r.2.mode = r'.2.mode ∧
    r.2.skipwhitespace = r'.2.skipwhitespace

def HarmlessCuts : Nxml → List (List UInt8) → Prop
  | _, [] => True
  | h, chunk :: chunks =>
    Harmless (run feed h.mode chunk).2 chunks.flatten ∧ HarmlessCuts (nxmlWrite h chunk).2 chunks

instance : ∀ h chunks, Decidable (HarmlessCuts h chunks)
  | _, [] => inferInstanceAs (Decidable True)
  | h, chunk :: chunks =>
    haveI := instDecidableHarmlessCuts (nxmlWrite h chunk).2 chunks
    inferInstanceAs (Decidable (_ ∧ _))

/-! ## Names across a cut -/

theorem addNamecache_nil (kept : List UInt8) : nxmlAddNamecache kept [] = kept := by
  rw [nxmlAddNamecache, take_nil, append_nil]

theorem addNamecache_append (kept piece more : List UInt8) :
    nxmlAddNamecache (nxmlAddNamecache kept piece) more
      = nxmlAddNamecache kept (piece ++ more) := by
  simp only [nxmlAddNamecache, length_append, length_take, take_append,
    append_assoc]
  congr 3
  omega

theorem whole_addNamecache {kept piece : List UInt8} (begun : piece ≠ []) {more : List UInt8}
    (fits : kept = [] → (piece ++ more).length ≤ nxmlMaxNameSize) :
    whole (nxmlAddNamecache kept piece) more = whole kept (piece ++ more) := by
  rw [whole, nxmlAddNocopy, if_neg (addNamecache_ne_nil begun), whole, nxmlAddNocopy]
  by_cases fresh : kept = []
  · subst fresh
    rw [if_pos rfl, addNamecache_append, nxmlAddNamecache, nil_append]
    exact take_of_length_le (fits rfl)
  · rw [if_neg fresh, addNamecache_append]

theorem whole_addNamecache_length {piece more : List UInt8} (begun : piece ≠ [])
    (long : nxmlMaxNameSize < (piece ++ more).length) :
    (whole (nxmlAddNamecache [] piece) more).length = nxmlMaxNameSize := by
  rw [whole, nxmlAddNocopy, if_neg (addNamecache_ne_nil begun), addNamecache_append,
    nxmlAddNamecache, nil_append, length_take]
  exact Nat.min_eq_left (Nat.le_of_lt long)

theorem whole_fresh (name : List UInt8) : whole [] name = name := rfl

/-! ## Harmless cuts -/

def Unseen (m : Mode) (rest : List UInt8) : Prop :=
  (run feed m.pause rest).1 = (run feed m rest).1 ∧
    (run feed m.pause rest).2.pause = (run feed m rest).2.pause

variable {rest : List UInt8} {h : Nxml}

theorem unseen_of_pause_eq {m : Mode} (same : m.pause = m) (rest : List UInt8) : Unseen m rest := by
  rw [Unseen, same]
  exact ⟨rfl, rfl⟩

theorem unseen_of_feed_eq {m : Mode} {c : UInt8} (same : feed m.pause c = feed m c)
    (rest : List UInt8) : Unseen m (c :: rest) := by
  rw [Unseen, run, run, same]
  exact ⟨rfl, rfl⟩

theorem unseen_append {m m' m'' : Mode} {used : List UInt8}
    (paused : run feed m.pause used = ([], m')) (unpaused : run feed m used = ([], m''))
    (same : (run feed m' rest).1 = (run feed m'' rest).1 ∧
      (run feed m' rest).2.pause = (run feed m'' rest).2.pause) : Unseen m (used ++ rest) := by
  rw [Unseen, run_append, run_append, paused, unpaused]
  exact same

theorem unseen_text (harmless : Harmless (.text true) rest) : Unseen (.text true) rest := by
  cases rest with
  | nil => exact ⟨rfl, rfl⟩
  | cons c rest =>
    have black : isWhitespace c = false := harmless c rfl
    refine unseen_of_feed_eq ?_ rest
    simp [pause, feed, feedText, black]

namespace NameKind

variable (kind : NameKind) {kept piece rest : List UInt8}

theorem unseen_nothing : Unseen (kind.mode kept []) rest :=
  unseen_of_pause_eq (by rw [kind.pauses, addNamecache_nil]) rest

theorem unseen_name (fits : NameFits kind.ends kept piece rest) (begun : piece ≠ [])
    (closes : ∀ more d after, rest = more ++ d :: after → kind.ends d = true →
      whole (nxmlAddNamecache kept piece) more = whole kept (piece ++ more) →
      feed (kind.mode (nxmlAddNamecache kept piece) more) d
        = feed (kind.mode kept (piece ++ more)) d) :
    Unseen (kind.mode kept piece) rest := by
  rcases name_cases kind.ends rest with
    ⟨-, plain⟩ | ⟨more, d, after, split, plain, ends, -, name⟩
  · rw [Unseen, kind.pauses, kind.reads plain, kind.reads plain]
    refine ⟨rfl, ?_⟩
    rw [kind.pauses, kind.pauses, nil_append, addNamecache_append]
  · have fits : kept = [] → (piece ++ more).length ≤ nxmlMaxNameSize := by
      intro fresh
      rw [← name]
      exact fits fresh ⟨d, by rw [split]; exact mem_append_cons_self, ends⟩
    have same := closes more d after split ends (whole_addNamecache begun fits)
    rw [split]
    refine unseen_append (by rw [kind.pauses]; exact kind.reads plain _ _)
      (kind.reads plain _ _) ?_
    rw [nil_append, run, run, same]
    exact ⟨rfl, rfl⟩

end NameKind

section Closes

variable {kept piece rest more after : List UInt8} {c d : UInt8}

theorem ne_of_head?_ne (other : rest.head? ≠ some c) (split : rest = more ++ d :: after)
    (none : more = []) : d ≠ c := by
  rintro rfl
  rw [split, none] at other
  exact other rfl

variable (begun : piece ≠ []) (split : rest = more ++ d :: after) (ends : isDelimiter d = true)
  (notClose : rest.head? ≠ some 62)
include begun split ends notClose

theorem closes_tagName :
    feed (.tagName (nxmlAddNamecache kept piece) more) d
        = emit (.tagBegin (whole (nxmlAddNamecache kept piece) more)) (feed (.attrName [] []) d) ∧
      feed (.tagName kept (piece ++ more)) d
        = emit (.tagBegin (whole kept (piece ++ more))) (feed (.attrName [] []) d) :=
  ⟨feed_tagName_ends ends (.inl (addNamecache_ne_nil begun)) (ne_of_head?_ne notClose split),
    feed_tagName_ends ends (.inr (.inl (by simp [begun]))) (by simp [begun])⟩

theorem closes_attrName (notSlash : rest.head? ≠ some 47) :
    feed (.attrName (nxmlAddNamecache kept piece) more) d
        = emit (.attributeBegin (whole (nxmlAddNamecache kept piece) more)) (feed .equals d) ∧
      feed (.attrName kept (piece ++ more)) d
        = emit (.attributeBegin (whole kept (piece ++ more))) (feed .equals d) :=
  ⟨feed_attrName_ends ends (.inl (addNamecache_ne_nil begun)) fun none =>
      ⟨ne_of_head?_ne notClose split none, ne_of_head?_ne notSlash split none⟩,
    feed_attrName_ends ends (.inr (.inl (by simp [begun]))) (by simp [begun])⟩

end Closes

theorem unseen_tagName {kept piece : List UInt8} (harmless : Harmless (.tagName kept piece) rest) :
    Unseen (.tagName kept piece) rest := by
  by_cases begun : piece = []
  · subst begun
    exact tag.unseen_nothing
  · obtain ⟨notClose, fits⟩ := harmless.resolve_left begun
    refine tag.unseen_name fits begun fun more d after split ends same => ?_
    obtain ⟨paused, unpaused⟩ := closes_tagName begun split ends notClose
    rw [tag, paused, unpaused, same]

theorem unseen_attrName {kept piece : List UInt8}
    (harmless : Harmless (.attrName kept piece) rest) : Unseen (.attrName kept piece) rest := by
  by_cases begun : piece = []
  · subst begun
    exact attr.unseen_nothing
  · obtain ⟨notClose, notSlash, fits⟩ := harmless.resolve_left begun
    refine attr.unseen_name fits begun fun more d after split ends same => ?_
    obtain ⟨paused, unpaused⟩ := closes_attrName begun split ends notClose notSlash
    rw [attr, paused, unpaused, same]

theorem unseen_endTagName {kept piece : List UInt8}
    (harmless : Harmless (.endTagName kept piece) rest) : Unseen (.endTagName kept piece) rest := by
  by_cases begun : piece = []
  · subst begun
    exact endTag.unseen_nothing
  · refine endTag.unseen_name (harmless.resolve_left begun) begun
      fun more d after split ends same => ?_
    have ends : isEndDelimiter d = true := ends
    have kept' : nxmlAddNamecache kept piece ≠ [] := addNamecache_ne_nil begun
    simp only [endTag, feed, feedEndTagName, kept', begun, same, ends, false_and,
      append_eq_nil_iff, and_false, if_false, if_true]

theorem unseen_ended (harmless : Harmless .ended rest) : Unseen .ended rest := by
  have finish : run feed .finish rest = ([], .finish) :=
    run_finish fun c mem close => harmless (close ▸ mem)
  have ended : run feed .ended rest = ([], .ended) := run_stays feed fun _ _ => rfl
  rw [Unseen, pause, finish, ended]
  exact ⟨rfl, rfl⟩

theorem unseen_of_harmless {m : Mode} (harmless : Harmless m rest) : Unseen m rest := by
  cases m with
  | text inside =>
    cases inside with
    | true => exact unseen_text harmless
    | false => exact unseen_of_pause_eq rfl rest
  | tagName kept piece => exact unseen_tagName harmless
  | endTagName kept piece => exact unseen_endTagName harmless
  | attrName kept piece => exact unseen_attrName harmless
  | ended => exact unseen_ended harmless
  | equals | quote | value | finish => exact unseen_of_pause_eq rfl rest

/-! ## Harmful cuts -/

def Event.text : Event → List UInt8
  | .data text => text
  | _ => []

def Event.tagBegins : Event → List (List UInt8)
  | .tagBegin name => [name]
  | _ => []

def Event.attributeBegins : Event → List (List UInt8)
  | .attributeBegin name => [name]
  | _ => []

def Event.tagEnds : Event → List (List UInt8)
  | .tagEnd name => [name]
  | _ => []

theorem flatMap_eq_of_joined {X : Type} {f : Event → List X}
    (parts : ∀ {a b ab}, joinEvents a b = some ab → f ab = f a ++ f b)
    {before first second : List Event}
    (same : pieces.joined (before ++ first) = pieces.joined (before ++ second)) :
    first.flatMap f = second.flatMap f := by
  have whole := congrArg (List.flatMap f) same
  rw [pieces.flatMap_joined parts, pieces.flatMap_joined parts, flatMap_append,
    flatMap_append] at whole
  exact append_cancel_left whole

section

variable {a : Event} {b : Event} {ab : Event} (both : joinEvents a b = some ab)
include both

theorem text_parts : ab.text = a.text ++ b.text := by
  cases a <;> cases b <;> cases both <;> rfl

theorem tagBegins_parts : ab.tagBegins = a.tagBegins ++ b.tagBegins := by
  cases a <;> cases b <;> cases both <;> rfl

theorem attributeBegins_parts : ab.attributeBegins = a.attributeBegins ++ b.attributeBegins := by
  cases a <;> cases b <;> cases both <;> rfl

theorem tagEnds_parts : ab.tagEnds = a.tagEnds ++ b.tagEnds := by
  cases a <;> cases b <;> cases both <;> rfl

end

def SameBehind (before : List Event) (m : Mode) (rest : List UInt8) : Prop :=
  pieces.joined (before ++ (run feed m.pause rest).1)
      = pieces.joined (before ++ (run feed m rest).1) ∧
    (run feed m.pause rest).2.pause = (run feed m rest).2.pause

theorem feed_blank {c : UInt8} (white : isWhitespace c = true) :
    feed (.text false) c = ([], .text false) ∧ feed (.text true) c = ([.data [c]], .text true) := by
  have notOpen : c ≠ 60 := by
    rintro rfl
    exact absurd white (by decide)
  simp [feed, feedText, white, notOpen]

theorem text_length_le (rest : List UInt8) :
    ((run feed (.text false) rest).1.flatMap Event.text).length
      ≤ ((run feed (.text true) rest).1.flatMap Event.text).length := by
  induction rest with
  | nil => exact Nat.le_refl _
  | cons c rest ih =>
    cases white : isWhitespace c with
    | true =>
      rw [run, run, (feed_blank white).1, (feed_blank white).2]
      exact Nat.le_succ_of_le ih
    | false =>
      have same : feed (.text false) c = feed (.text true) c := by
        simp [feed, feedText, white]
      rw [run, run, same]

section Harm

variable {before : List Event} {kept piece rest : List UInt8}

theorem harmless_text (same : SameBehind before (.text true) rest) :
    Harmless (.text true) rest := by
  intro c first
  obtain ⟨tail, rfl⟩ := head?_eq_some_iff.mp first
  by_contra white
  obtain ⟨skipped, read⟩ := feed_blank (eq_true_of_ne_false white)
  have texts := congrArg List.length (flatMap_eq_of_joined text_parts same.1)
  rw [pause, run, run, skipped, read] at texts
  exact absurd texts (Nat.ne_of_lt (Nat.lt_succ_of_le (text_length_le tail)))

theorem head?_ne_of_same {X : Type} {f : Event → List X} {m : Mode} {d : UInt8}
    (parts : ∀ {a b ab}, joinEvents a b = some ab → f ab = f a ++ f b)
    (same : SameBehind before m rest) {e e' : List Event} {n : Mode}
    (paused : feed m.pause d = (e, n)) (unpaused : feed m d = (e', n))
    (differ : (e.flatMap f).length ≠ (e'.flatMap f).length) : rest.head? ≠ some d := by
  intro first
  obtain ⟨tail, rfl⟩ := head?_eq_some_iff.mp first
  have equal := flatMap_eq_of_joined parts same.1
  rw [run, run, paused, unpaused, flatMap_append, flatMap_append] at equal
  exact differ (congrArg List.length (append_cancel_right equal))

theorem NameKind.fits (kind : NameKind) (event : List UInt8 → Event)
    {names : Event → List (List UInt8)}
    (parts : ∀ {a b ab}, joinEvents a b = some ab → names ab = names a ++ names b)
    (named : ∀ name, names (event name) = [name]) (begun : piece ≠ [])
    (same : SameBehind before (kind.mode kept piece) rest)
    (closes : kept = [] → ∀ more d after, rest = more ++ d :: after → kind.ends d = true →
      nxmlMaxNameSize < (piece ++ more).length → ∃ behind,
        feed (kind.mode (nxmlAddNamecache [] piece) more) d
          = emit (event (whole (nxmlAddNamecache [] piece) more)) behind ∧
        feed (kind.mode [] (piece ++ more)) d
          = emit (event (whole [] (piece ++ more))) behind) :
    NameFits kind.ends kept piece rest := by
  rintro rfl ⟨d, mem, ends⟩
  by_contra long
  rw [not_le] at long
  rcases name_cases kind.ends rest with
    ⟨-, plain⟩ | ⟨more, d, after, split, plain, ends, -, name⟩
  · rw [plain d mem] at ends
    cases ends
  · rw [name] at long
    obtain ⟨behind, paused, unpaused⟩ := closes rfl more d after split ends long
    have equal := flatMap_eq_of_joined parts same.1
    rw [split, kind.pauses, run_append, run_append, kind.reads plain, kind.reads plain] at equal
    simp only [nil_append, run, paused, unpaused, emit, cons_append, flatMap_cons,
      named, cons.injEq] at equal
    have cutOff := whole_addNamecache_length begun long
    rw [equal.1, whole_fresh] at cutOff
    exact Nat.ne_of_gt long cutOff

theorem harmless_tagName (same : SameBehind before (.tagName kept piece) rest) :
    Harmless (.tagName kept piece) rest := by
  by_cases begun : piece = []
  · exact .inl begun
  · have kept' : nxmlAddNamecache kept piece ≠ [] := addNamecache_ne_nil begun
    have notClose : rest.head? ≠ some 62 := by
      refine head?_ne_of_same tagBegins_parts same (e := []) (n := .text false)
        (by simp [pause, feed, feedTagName, kept'])
        (feed_tagName_ends rfl (.inr (.inl begun)) fun none => absurd none begun) ?_
      exact Nat.zero_ne_one
    refine .inr ⟨notClose, tag.fits .tagBegin tagBegins_parts (fun _ => rfl) begun same ?_⟩
    rintro rfl more d after split ends -
    exact ⟨_, closes_tagName begun split ends notClose⟩

theorem harmless_attrName (same : SameBehind before (.attrName kept piece) rest) :
    Harmless (.attrName kept piece) rest := by
  by_cases begun : piece = []
  · exact .inl begun
  · have kept' : nxmlAddNamecache kept piece ≠ [] := addNamecache_ne_nil begun
    have notClose : rest.head? ≠ some 62 := by
      refine head?_ne_of_same attributeBegins_parts same (e := []) (n := .text false)
        (by simp [pause, feed, feedAttrName, kept'])
        (feed_attrName_ends rfl (.inr (.inl begun)) fun none => absurd none begun) ?_
      exact Nat.zero_ne_one
    have notSlash : rest.head? ≠ some 47 := by
      refine head?_ne_of_same attributeBegins_parts same (n := .finish)
        (e := [.tagEnd (nxmlAddNamecache kept piece)])
        (by simp [pause, feed, feedAttrName, kept'])
        (feed_attrName_ends rfl (.inr (.inl begun)) fun none => absurd none begun) ?_
      exact Nat.zero_ne_one
    refine .inr ⟨notClose, notSlash,
      attr.fits .attributeBegin attributeBegins_parts (fun _ => rfl) begun same ?_⟩
    rintro rfl more d after split ends -
    exact ⟨_, closes_attrName begun split ends notClose notSlash⟩

theorem feed_endTagName_long {name : List UInt8} {d : UInt8} (ends : isEndDelimiter d = true)
    (long : nxmlMaxNameSize ≤ (whole kept name).length) :
    feed (.endTagName kept name) d = emit (.tagEnd (whole kept name)) (feedFinish d) := by
  have notLast : ¬ (whole kept name).isPrefixOf (ascii "psitree") = true := by
    intro last
    have short := (List.isPrefixOf_iff_prefix.mp last).length_le
    exact absurd (long.trans short) (by decide)
  have read : ¬ (kept = [] ∧ name = [] ∧ isWhitespace d = true) := by
    rintro ⟨rfl, rfl, -⟩
    exact absurd long (by decide)
  rw [feed, feedEndTagName, if_neg read, if_pos ends, if_neg notLast]

theorem harmless_endTagName (same : SameBehind before (.endTagName kept piece) rest) :
    Harmless (.endTagName kept piece) rest := by
  by_cases begun : piece = []
  · exact .inl begun
  · refine .inr (endTag.fits .tagEnd tagEnds_parts (fun _ => rfl) begun same ?_)
    rintro rfl more d after rfl ends long
    refine ⟨_, feed_endTagName_long ends ?_, feed_endTagName_long ends (Nat.le_of_lt long)⟩
    exact Nat.le_of_eq (whole_addNamecache_length begun long).symm

def Mode.closed : Mode → Bool
  | .finish | .ended => true
  | _ => false

def ClosesSeen (r : List Event × Mode) : Prop :=
  r.2.closed = true → r.1.flatMap Event.tagEnds ≠ []

theorem closesSeen_emit {event : Event} {r : List Event × Mode} (seen : ClosesSeen r) :
    ClosesSeen (emit event r) := by
  intro closed nothing
  rw [emit, flatMap_cons, append_eq_nil_iff] at nothing
  exact seen closed nothing.2

theorem closesSeen_other (c : UInt8) : ClosesSeen (feedOther c) := by
  rw [feedOther]
  split_ifs <;> simp [ClosesSeen, closed, Event.tagEnds]

theorem closesSeen_equals (c : UInt8) : ClosesSeen (feedEquals c) := by
  rw [feedEquals]
  split_ifs
  · simp [ClosesSeen, closed]
  · simp [ClosesSeen, closed]
  · exact closesSeen_other c

theorem closesSeen_attrName (kept piece : List UInt8) (c : UInt8) :
    ClosesSeen (feedAttrName kept piece c) := by
  rw [feedAttrName]
  split_ifs
  · simp [ClosesSeen, closed]
  · simp [ClosesSeen, closed]
  · exact closesSeen_other c
  · simp [ClosesSeen, Event.tagEnds]
  · simp [ClosesSeen, closed]
  · exact closesSeen_emit (closesSeen_equals c)
  · simp [ClosesSeen, closed]

theorem closesSeen_feed {m : Mode} (opened : m.closed = false) (c : UInt8) :
    ClosesSeen (feed m c) := by
  cases m with
  | text inside =>
    rw [feed, feedText]
    split_ifs <;> simp [ClosesSeen, closed]
  | tagName kept piece =>
    rw [feed, feedTagName]
    split_ifs
    all_goals first
      | exact closesSeen_emit (closesSeen_attrName [] [] c)
      | simp [ClosesSeen, closed]
  | endTagName kept piece =>
    rw [feed, feedEndTagName]
    split_ifs <;> simp [ClosesSeen, emit, closed, Event.tagEnds]
  | attrName kept piece => exact closesSeen_attrName kept piece c
  | equals => exact closesSeen_equals c
  | quote | value =>
    rw [feed, feedValue]
    split_ifs <;> simp [ClosesSeen, closed]
  | finish => cases opened
  | ended => cases opened

theorem closesSeen_run {m : Mode} (opened : m.closed = false) (text : List UInt8) :
    ClosesSeen (run feed m text) := by
  induction text generalizing m with
  | nil =>
    intro closed
    rw [run, opened] at closed
    cases closed
  | cons c text ih =>
    intro closed nothing
    rw [run, flatMap_append, append_eq_nil_iff] at nothing
    cases step : (feed m c).2.closed with
    | true => exact closesSeen_feed opened c step nothing.1
    | false => exact ih step closed nothing.2

theorem harmless_ended (same : SameBehind before .ended rest) : Harmless .ended rest := by
  intro close
  have ended : run feed .ended rest = ([], .ended) := run_stays feed fun _ _ => rfl
  rcases name_cases (· == 62) rest with ⟨-, plain⟩ | ⟨skipped, d, after, rfl, plain, isClose, -⟩
  · exact absurd (plain 62 close) (by decide)
  · obtain rfl : d = 62 := by simpa using isClose
    have opens : run feed .finish (skipped ++ 62 :: after) = run feed (.text false) after := by
      rw [run_append, run_finish fun c mem => by simpa using plain c mem]
      rfl
    have ends := flatMap_eq_of_joined tagEnds_parts same.1
    have mode := same.2
    rw [pause, opens, ended] at ends mode
    refine closesSeen_run (m := .text false) rfl after ?_ ends
    cases final : (run feed (.text false) after).2 <;> rw [final] at mode <;> first
      | rfl
      | cases mode

end Harm

theorem harmless_of_same (before : List Event) {m : Mode} (same : SameBehind before m rest) :
    Harmless m rest := by
  cases m with
  | text inside =>
    cases inside with
    | true => exact harmless_text same
    | false => trivial
  | tagName kept piece => exact harmless_tagName same
  | endTagName kept piece => exact harmless_endTagName same
  | attrName kept piece => exact harmless_attrName same
  | ended => exact harmless_ended same
  | equals | quote | value | finish => trivial

/-! ## Chunks -/

theorem agree_of_modes {r r' : List Event × Nxml} (settled : r.2.Settled) (settled' : r'.2.Settled)
    (same : pieces.joined r.1 = pieces.joined r'.1) (mode : r.2.mode = r'.2.mode) : Agree r r' :=
  ⟨same, mode, by rw [settled.flag, settled'.flag, mode]⟩

theorem writes_settled (settled : h.Settled) (chunks : List (List UInt8)) :
    (run nxmlWrite h chunks).2.Settled := by
  induction chunks generalizing h with
  | nil => exact settled
  | cons chunk chunks ih => exact ih (nxmlWrite_feed settled chunk).2.2

theorem writes_eq_feed (settled : h.Settled) {chunks : List (List UInt8)}
    (harmless : HarmlessCuts h chunks) :
    pieces.joined (run nxmlWrite h chunks).1 = pieces.joined (run feed h.mode chunks.flatten).1 ∧
      (run nxmlWrite h chunks).2.mode = (run feed h.mode chunks.flatten).2.pause := by
  induction chunks generalizing h with
  | nil =>
    refine ⟨rfl, ?_⟩
    obtain ⟨state, namecache, skip⟩ := h
    cases state <;> simp [Nxml.mode, run, pause, addNamecache_nil]
  | cons chunk chunks ih =>
    obtain ⟨cut, cuts⟩ := harmless
    obtain ⟨same, mode, settled'⟩ := nxmlWrite_feed settled chunk
    obtain ⟨same', mode'⟩ := ih settled' cuts
    obtain ⟨unseen, unseen'⟩ := unseen_of_harmless cut
    rw [mode, unseen] at same'
    rw [mode, unseen'] at mode'
    rw [flatten_cons, run_append, run]
    exact ⟨pieces.joined_append same same', mode'⟩

theorem harmless_nil (m : Mode) : Harmless m [] := by
  have fits : ∀ ends kept piece, NameFits ends kept piece [] := by
    rintro ends kept piece - ⟨d, mem, -⟩
    cases mem
  cases m with
  | text inside =>
    cases inside with
    | true => exact fun c mem => nomatch mem
    | false => trivial
  | tagName kept piece => exact .inr ⟨nofun, fits _ _ _⟩
  | endTagName kept piece => exact .inr (fits _ _ _)
  | attrName kept piece => exact .inr ⟨nofun, nofun, fits _ _ _⟩
  | ended => exact not_mem_nil
  | equals | quote | value | finish => trivial

theorem agree_cut_iff (settled : h.Settled) (u v : List UInt8) :
    Agree (run nxmlWrite h [u, v]) (run nxmlWrite h [u ++ v]) ↔ HarmlessCuts h [u, v] := by
  constructor
  · rintro ⟨same, mode, -⟩
    obtain ⟨first, firstMode, settled'⟩ := nxmlWrite_feed settled u
    obtain ⟨second, secondMode, -⟩ := nxmlWrite_feed settled' v
    obtain ⟨both, bothMode, -⟩ := nxmlWrite_feed settled (u ++ v)
    simp only [run, append_nil] at same mode
    rw [firstMode] at second secondMode
    rw [run_append] at both bothMode
    refine ⟨?_, harmless_nil _, trivial⟩
    rw [flatten_cons, flatten_nil, append_nil]
    refine harmless_of_same (run feed h.mode u).1 ⟨?_, ?_⟩
    · rw [← pieces.joined_append first second, same, both]
    · rw [← secondMode, mode, bothMode]
  · intro harmless
    have uncut : HarmlessCuts h [u ++ v] := ⟨harmless_nil _, trivial⟩
    obtain ⟨same, mode⟩ := writes_eq_feed settled harmless
    obtain ⟨same', mode'⟩ := writes_eq_feed settled uncut
    have text : [u, v].flatten = [u ++ v].flatten := by simp
    rw [text] at same mode
    exact agree_of_modes (writes_settled settled _) (writes_settled settled _)
      (same.trans same'.symm) (mode.trans mode'.symm)

/-- **Harmless cuts are not seen.** Whatever way a text is cut into chunks, if all its cuts are
harmless, the parser calls back for the same tags, attributes, values and texts, and ends in the
same state. A text that is cut once gives the same as the uncut text exactly if the cut is
harmless. -/
theorem nxmlWrite_chunks (chunks chunks' : List (List UInt8)) (u v : List UInt8) :
    (chunks.flatten = chunks'.flatten →
      HarmlessCuts nxmlOpen chunks → HarmlessCuts nxmlOpen chunks' →
        Agree (run nxmlWrite nxmlOpen chunks) (run nxmlWrite nxmlOpen chunks')) ∧
    (Agree (run nxmlWrite nxmlOpen [u, v]) (run nxmlWrite nxmlOpen [u ++ v]) ↔
      HarmlessCuts nxmlOpen [u, v]) := by
  refine ⟨fun text harmless harmless' => ?_, agree_cut_iff settled_open u v⟩
  obtain ⟨same, mode⟩ := writes_eq_feed settled_open harmless
  obtain ⟨same', mode'⟩ := writes_eq_feed settled_open harmless'
  rw [text] at same mode
  exact agree_of_modes (writes_settled settled_open _) (writes_settled settled_open _)
    (same.trans same'.symm) (mode.trans mode'.symm)

theorem nxmlWrite_chunks_attribute :
    Agree (run nxmlWrite nxmlOpen [ascii "<a b", ascii "c=\"1", ascii " 2\"/> t", ascii "ext<"])
      (run nxmlWrite nxmlOpen [ascii "<", ascii "a bc=\"1 2\"", ascii "/> text<"]) :=
  (nxmlWrite_chunks _ _ [] []).1 (by decide) (by decide +kernel) (by decide +kernel)

/-- A cut between a tag's name and its `>` loses the tag. -/
theorem cut_loses_tag :
    [ascii "<psitree", ascii ">"].flatten = [ascii "<psitree>"].flatten ∧
      (run nxmlWrite nxmlOpen [ascii "<psitree", ascii ">"]).1 = [] ∧
      (run nxmlWrite nxmlOpen [ascii "<psitree>"]).1 = [.tagBegin (ascii "psitree")] ∧
      ¬ Agree (run nxmlWrite nxmlOpen [ascii "<psitree", ascii ">"])
        (run nxmlWrite nxmlOpen [ascii "<psitree>"]) := by
  refine ⟨by decide, by decide +kernel, by decide +kernel, fun same => ?_⟩
  exact absurd same.1 (by decide +kernel)

end EchoLife.Xml
