import EchoLife.Lib.Transducer
import EchoLife.Xml.Progress

/-!
# The XML parser byte by byte

`feed` is the parser of `nxml_write` reading one byte at a time. `nxmlWrite_feed` says that the
callbacks for a chunk are those for its bytes, up to pieces of one text or value, and that the state
behind the chunk is the one behind its last byte, where `Mode.pause` says what the parser forgets
between two chunks.
-/

namespace EchoLife.Xml

open List TextSearch Transducer Nxml

/-! ## Byte by byte -/

inductive Mode
  | text (inside : Bool)
  | tagName (kept piece : List UInt8)
  | endTagName (kept piece : List UInt8)
  | attrName (kept piece : List UInt8)
  | equals
  | quote
  | value
  | finish
  | ended
  deriving Repr, DecidableEq

def whole (kept piece : List UInt8) : List UInt8 := (nxmlAddNocopy kept piece).1

def feedFinish (c : UInt8) : List Event × Mode := ([], if c = 62 then .text false else .finish)

def feedOther (c : UInt8) : List Event × Mode :=
  if c = 47 then ([.tagEnd []], .finish)
  else if c = 62 then ([], .text false)
  else ([], .attrName [] [c])

def feedEquals (c : UInt8) : List Event × Mode :=
  if isWhitespace c then ([], .equals) else if c = 61 then ([], .quote) else feedOther c

def emit (event : Event) (r : List Event × Mode) : List Event × Mode := (event :: r.1, r.2)

def feedAttrName (kept piece : List UInt8) (c : UInt8) : List Event × Mode :=
  if kept = [] ∧ piece = [] then
    if isWhitespace c then ([], .attrName [] [])
    else if c = 61 then ([.attributeBegin []], .quote)
    else feedOther c
  else if piece = [] ∧ c = 47 then ([.tagEnd kept], .finish)
  else if piece = [] ∧ c = 62 then ([], .text false)
  else if isDelimiter c then emit (.attributeBegin (whole kept piece)) (feedEquals c)
  else ([], .attrName kept (piece ++ [c]))

def feedTagName (kept piece : List UInt8) (c : UInt8) : List Event × Mode :=
  if kept = [] ∧ piece = [] ∧ c ≠ 61 then
    if isWhitespace c then ([], .tagName [] [])
    else if c = 47 then ([], .endTagName [] [])
    else if c = 62 then ([], .text false)
    else ([], .tagName [] [c])
  else if piece = [] ∧ c = 62 then ([], .text false)
  else if isDelimiter c then emit (.tagBegin (whole kept piece)) (feedAttrName [] [] c)
  else ([], .tagName kept (piece ++ [c]))

def feedEndTagName (kept piece : List UInt8) (c : UInt8) : List Event × Mode :=
  if kept = [] ∧ piece = [] ∧ isWhitespace c then ([], .endTagName [] [])
  else if isEndDelimiter c then
    if (whole kept piece).isPrefixOf (ascii "psitree") then
      ([.tagEnd (whole kept piece)], .ended)
    else emit (.tagEnd (whole kept piece)) (feedFinish c)
  else ([], .endTagName kept (piece ++ [c]))

def feedValue (c : UInt8) : List Event × Mode :=
  if c = 34 then ([.attributeValue []], .attrName [] []) else ([.attributeValue [c]], .value)

def feedText (inside : Bool) (c : UInt8) : List Event × Mode :=
  if c = 60 then ([], .tagName [] [])
  else if isWhitespace c ∧ inside = false then ([], .text false)
  else ([.data [c]], .text true)

def feed : Mode → UInt8 → List Event × Mode
  | .text inside, c => feedText inside c
  | .tagName kept piece, c => feedTagName kept piece c
  | .endTagName kept piece, c => feedEndTagName kept piece c
  | .attrName kept piece, c => feedAttrName kept piece c
  | .equals, c => feedEquals c
  | .quote, c =>
    if isWhitespace c then ([], .quote) else if c = 34 then ([], .value) else feedValue c
  | .value, c => feedValue c
  | .finish, c => feedFinish c
  | .ended, _ => ([], .ended)

def Nxml.mode (h : Nxml) : Mode :=
  match h.state with
  | .beginTag => .text false
  | .tagName => .tagName h.namecache []
  | .endTagName => .endTagName h.namecache []
  | .attrName => .attrName h.namecache []
  | .attrValueEquals => .equals
  | .attrValueQuote => .quote
  | .attrValue => .value
  | .finishTag => .finish

def Mode.pause : Mode → Mode
  | .text _ => .text false
  | .tagName kept piece => .tagName (nxmlAddNamecache kept piece) []
  | .endTagName kept piece => .endTagName (nxmlAddNamecache kept piece) []
  | .attrName kept piece => .attrName (nxmlAddNamecache kept piece) []
  | .ended => .finish
  | m => m

def joinEvents : Event → Event → Option Event
  | .data a, .data b => some (.data (a ++ b))
  | .attributeValue a, .attributeValue b => some (.attributeValue (a ++ b))
  | _, _ => none

def pieces : Joining Event where
  join := joinEvents
  assoc := by
    intro a b c ab both
    cases a <;> cases b <;> cases both <;> cases c <;> simp [joinEvents]
  total := by
    intro a b c ab bc both later
    cases a <;> cases b <;> cases both <;> cases c <;> cases later <;> simp [joinEvents]

/-! ## Runs of bytes -/

variable {text : List UInt8}

theorem joined_data (nonempty : text ≠ []) :
    pieces.joined (text.map fun c => .data [c]) = [.data text] :=
  Joining.joined_map Event.data (fun _ _ => rfl) nonempty

theorem joined_value (value : List UInt8) :
    pieces.joined (value.map (fun c => .attributeValue [c]) ++ [.attributeValue []])
      = [.attributeValue value] :=
  Joining.joined_ended Event.attributeValue (fun _ _ => rfl) value

theorem joined_value_piece {value : List UInt8} (nonempty : value ≠ []) :
    pieces.joined (value.map fun c => .attributeValue [c]) = [.attributeValue value] :=
  Joining.joined_map Event.attributeValue (fun _ _ => rfl) nonempty

theorem run_text (plain : ∀ c ∈ text, c ≠ 60) :
    run feed (.text true) text = (text.map fun c => .data [c], .text true) :=
  run_emits feed fun c mem => by simp [feed, feedText, plain c mem]

variable {c d : UInt8} {h h' : Nxml} {data : List UInt8}

theorem run_text_first (black : isWhitespace c = false) (plain : ∀ d ∈ c :: text, d ≠ 60) :
    run feed (.text false) (c :: text) = ((c :: text).map fun c => .data [c], .text true) := by
  have here : feed (.text false) c = ([.data [c]], .text true) := by
    simp [feed, feedText, plain c mem_cons_self, black]
  rw [run, here, run_text fun d mem => plain d (mem_cons_of_mem _ mem)]
  rfl

theorem run_value {value : List UInt8} (plain : ∀ c ∈ value, c ≠ 34) :
    run feed .value value = (value.map fun c => .attributeValue [c], .value) :=
  run_emits feed fun c mem => by simp [feed, feedValue, plain c mem]

theorem run_finish {skipped : List UInt8} (open_ : ∀ c ∈ skipped, c ≠ 62) :
    run feed .finish skipped = ([], .finish) :=
  run_stays feed fun c mem => by simp [feed, feedFinish, open_ c mem]

theorem feed_name (plain : isDelimiter c = false) (kept piece : List UInt8) :
    feed (.tagName kept piece) c = ([], .tagName kept (piece ++ [c])) ∧
      feed (.attrName kept piece) c = ([], .attrName kept (piece ++ [c])) := by
  simp only [isDelimiter, Bool.or_eq_false_iff, beq_eq_false_iff_ne] at plain
  obtain ⟨⟨⟨black, notEquals⟩, notSlash⟩, notClose⟩ := plain
  by_cases fresh : kept = [] ∧ piece = []
  · obtain ⟨rfl, rfl⟩ := fresh
    simp [feed, feedTagName, feedAttrName, feedOther, black, notEquals, notSlash, notClose]
  · simp [feed, feedTagName, feedAttrName, fresh, isDelimiter, black, notEquals, notSlash, notClose]

theorem feed_endName (plain : isEndDelimiter c = false) (kept piece : List UInt8) :
    feed (.endTagName kept piece) c = ([], .endTagName kept (piece ++ [c])) := by
  have black : isWhitespace c = false := by
    simp only [isEndDelimiter, Bool.or_eq_false_iff] at plain
    exact plain.1
  simp [feed, feedEndTagName, plain, black]

structure NameKind where
  mode : List UInt8 → List UInt8 → Mode
  ends : UInt8 → Bool
  reads : ∀ {name : List UInt8}, (∀ c ∈ name, ends c = false) → ∀ kept piece,
    run feed (mode kept piece) name = ([], mode kept (piece ++ name))
  pauses : ∀ kept piece, (mode kept piece).pause = mode (nxmlAddNamecache kept piece) []

def NameKind.tag : NameKind where
  mode := .tagName
  ends := isDelimiter
  reads plain kept := run_collects feed fun c mem piece => (feed_name (plain c mem) kept piece).1
  pauses _ _ := rfl

def NameKind.attr : NameKind where
  mode := .attrName
  ends := isDelimiter
  reads plain kept := run_collects feed fun c mem piece => (feed_name (plain c mem) kept piece).2
  pauses _ _ := rfl

def NameKind.endTag : NameKind where
  mode := .endTagName
  ends := isEndDelimiter
  reads plain kept := run_collects feed fun c mem piece => feed_endName (plain c mem) kept piece
  pauses _ _ := rfl

def Mode.skips : Mode → Bool
  | .text inside => !inside
  | .tagName kept piece => kept = [] ∧ piece = []
  | .endTagName kept piece => kept = [] ∧ piece = []
  | .attrName kept piece => kept = [] ∧ piece = []
  | .value => false
  | _ => true

theorem run_blanks {m : Mode} (skips : m.skips = true) {blanks : List UInt8}
    (white : ∀ c ∈ blanks, isWhitespace c = true) : run feed m blanks = ([], m) := by
  refine run_stays feed fun c mem => ?_
  have white := white c mem
  have notMarkup : c ≠ 60 ∧ c ≠ 61 ∧ c ≠ 62 := by
    refine ⟨?_, ?_, ?_⟩ <;> rintro rfl <;> revert white <;> decide
  obtain ⟨notOpen, notEquals, notClose⟩ := notMarkup
  cases m with
  | text inside => simp_all [Mode.skips, feed, feedText]
  | tagName kept piece => simp_all [Mode.skips, feed, feedTagName]
  | endTagName kept piece => simp_all [Mode.skips, feed, feedEndTagName]
  | attrName kept piece => simp_all [Mode.skips, feed, feedAttrName]
  | equals => simp [feed, feedEquals, white]
  | quote => simp [feed, white]
  | value => cases skips
  | finish => simp [feed, feedFinish, notClose]
  | ended => rfl

/-! ## Chunks -/

structure Nxml.Settled (h : Nxml) : Prop where
  size : h.namecache.length ≤ nxmlMaxNameSize
  equals : h.state = .attrValueEquals → h.namecache = []
  flag : h.skipwhitespace = h.mode.skips

theorem settled_open : nxmlOpen.Settled := ⟨by decide, by decide, rfl⟩

def Accounts (h : Nxml) (data : List UInt8) : Outcome → Prop
  | .stop events h' =>
    pieces.joined events = pieces.joined (run feed h.mode data).1 ∧
      h'.mode = (run feed h.mode data).2.pause ∧ h'.Settled
  | .go events h' rest psiEnd =>
    h'.Settled ∧
      if psiEnd then
        pieces.joined events = pieces.joined (run feed h.mode data).1 ∧
          h'.mode = (run feed h.mode data).2.pause
      else
        pieces.joined (events ++ (run feed h'.mode rest).1)
            = pieces.joined (run feed h.mode data).1 ∧
          (run feed h'.mode rest).2 = (run feed h.mode data).2

/-! ### Rounds -/

section Rounds

variable {h : Nxml} {c : UInt8} {rest : List UInt8}

theorem settled_next {state : NxmlState} {namecache : List UInt8}
    (size : namecache.length ≤ nxmlMaxNameSize)
    (clear : state = .tagName ∨ state = .endTagName ∨ state = .attrName ∨ state = .attrValueEquals →
      namecache = []) : Nxml.Settled ⟨state, namecache, state ≠ .attrValue⟩ := by
  refine ⟨size, fun equals => clear (.inr (.inr (.inr equals))), ?_⟩
  cases state <;> simp_all [mode, Mode.skips]

variable {events : List Event} {kept : List UInt8}

theorem accounts_go (used : List UInt8) (settled : h'.Settled) (split : data = used ++ rest)
    (read : pieces.joined events = pieces.joined (run feed h.mode used).1)
    (mode : (run feed h.mode used).2 = h'.mode) :
    Accounts h data (.go events h' rest false) := by
  refine ⟨settled, ?_⟩
  simp only [Bool.false_eq_true, if_false, split, run_append, mode]
  exact ⟨pieces.joined_append read rfl, trivial⟩

theorem accounts_byte (settled : h'.Settled) (read : feed h.mode c = (events, h'.mode)) :
    Accounts h (c :: rest) (.go events h' rest false) := by
  have only : run feed h.mode [c] = (events, h'.mode) := by
    rw [run, read, run, append_nil]
  exact accounts_go [c] settled rfl (by rw [only]) (by rw [only])

theorem accounts_behind {front after : List UInt8} (split : data = front ++ d :: after)
    (settled : h'.Settled)
    (read : pieces.joined events = pieces.joined (run feed h.mode (front ++ [d])).1)
    (mode : (run feed h.mode (front ++ [d])).2 = h'.mode) :
    Accounts h data (.go events h' after false) := by
  refine accounts_go (front ++ [d]) settled ?_ read mode
  rw [append_assoc]
  exact split

theorem accounts_before (used : List UInt8) {after : List UInt8} {m : Mode} (settled : h'.Settled)
    (silent : run feed h.mode used = ([], m))
    (again : feed m d = (events ++ (feed h'.mode d).1, (feed h'.mode d).2)) :
    Accounts h (used ++ d :: after) (.go events h' (d :: after) false) := by
  refine ⟨settled, ?_⟩
  simp only [Bool.false_eq_true, if_false, run_append, silent, run, again, nil_append,
    append_assoc]
  exact ⟨trivial, trivial⟩

section

variable (settled : h.Settled)
include settled

theorem accounts_blanks (skip : h.skipwhitespace = true) (white : isWhitespace c = true) :
    Accounts h (c :: rest) (.go [] h (rest.dropWhile isWhitespace) false) := by
  have skips : h.mode.skips = true := settled.flag ▸ skip
  have blanks : run feed h.mode (c :: rest.takeWhile isWhitespace) = ([], h.mode) := by
    refine run_blanks skips fun d mem => ?_
    rcases mem_cons.mp mem with rfl | mem
    · exact white
    · exact mem_takeWhile_imp mem
  refine accounts_go (c :: rest.takeWhile isWhitespace) settled ?_ ?_ ?_
  · rw [cons_append, takeWhile_append_dropWhile]
  · rw [blanks]
  · rw [blanks]

theorem accounts_beginTag (state : h.state = .beginTag) (black : isWhitespace c = false) :
    Accounts h (c :: rest) (nxmlBeginTag h (c :: rest)) := by
  have mode : h.mode = .text false := by rw [mode, state]
  rw [nxmlBeginTag]
  rcases span_cases (· ≠ 60) (c :: rest) with
    ⟨found, plain⟩ | ⟨text, d, after, split, plain, isOpen, found, taken⟩
  · have read := run_text_first black fun d mem => of_decide_eq_true (plain d mem)
    rw [found, Accounts, mode, read, joined_data (cons_ne_nil _ _)]
    exact ⟨rfl, rfl, settled⟩
  · obtain rfl : d = 60 := by simpa using isOpen
    have read : run feed h.mode (text ++ [60]) =
        (text.map fun c => .data [c], .tagName [] []) := by
      rw [mode]
      cases text with
      | nil => rfl
      | cons e inner =>
        obtain rfl : c = e := (cons.inj split).1
        rw [run_append, run_text_first black fun d mem => of_decide_eq_true (plain d mem)]
        exact congrArg (fun events => (events, Mode.tagName [] [])) (append_nil _)
    rw [found, taken]
    refine accounts_behind split (settled_next (Nat.zero_le _) fun _ => rfl) ?_ (by rw [read]; rfl)
    rw [read]
    -- There is no text when the tag begins at once.
    by_cases empty : text = []
    · rw [if_pos empty, empty]
      rfl
    · rw [if_neg empty, joined_data empty]
      rfl

theorem accounts_finishTag (state : h.state = .finishTag) :
    Accounts h (c :: rest) (nxmlFinishTag h (c :: rest)) := by
  have mode : h.mode = .finish := by rw [mode, state]
  rw [nxmlFinishTag]
  rcases span_cases (· ≠ 62) (c :: rest) with
    ⟨found, plain⟩ | ⟨skipped, d, after, split, plain, isClose, found, -⟩
  · rw [found, Accounts, mode, run_finish fun d mem => of_decide_eq_true (plain d mem)]
    exact ⟨rfl, rfl, settled⟩
  · obtain rfl : d = 62 := by simpa using isClose
    have read : run feed h.mode (skipped ++ [62]) = ([], .text false) := by
      rw [mode, run_append, run_finish fun d mem => of_decide_eq_true (plain d mem)]
      rfl
    rw [found]
    exact accounts_behind split (settled_next settled.size (by simp)) (by rw [read])
      (by rw [read]; rfl)

theorem accounts_attrValue (state : h.state = .attrValue) :
    Accounts h (c :: rest) (nxmlAttrValue h (c :: rest)) := by
  have mode : h.mode = .value := by rw [mode, state]
  rw [nxmlAttrValue]
  rcases span_cases (· ≠ 34) (c :: rest) with
    ⟨found, plain⟩ | ⟨value, d, after, split, plain, isQuote, found, taken⟩
  · have flag : h.skipwhitespace = false := by rw [settled.flag, mode]; rfl
    have same : { h with skipwhitespace := false } = h := by rw [← flag]
    rw [found]
    simp only [same]
    rw [Accounts, mode, run_value fun d mem => of_decide_eq_true (plain d mem),
      joined_value_piece (cons_ne_nil _ _)]
    exact ⟨rfl, rfl, settled⟩
  · obtain rfl : d = 34 := by simpa using isQuote
    have read := run_value fun d mem => of_decide_eq_true (plain d mem)
    rw [found, taken]
    refine accounts_behind split (settled_next (Nat.zero_le _) fun _ => rfl) ?_ ?_
    · rw [mode, run_append, read]
      exact (joined_value _).symm
    · rw [mode, run_append, read]
      rfl

theorem accounts_equals (state : h.state = .attrValueEquals) (black : isWhitespace c = false) :
    Accounts h (c :: rest) (nxmlAttrValueEquals h c rest) := by
  have mode : h.mode = .equals := by rw [Nxml.mode, state]
  have empty := settled.equals state
  rw [nxmlAttrValueEquals]
  split
  next isClose =>
    exact accounts_byte (settled_next settled.size (by simp)) (by rw [mode, isClose]; rfl)
  next =>
    split
    next isEquals =>
      exact accounts_byte (settled_next settled.size (by simp)) (by rw [mode, isEquals]; rfl)
    next notEquals =>
      -- The byte is read as the first one of a name.
      have again : feed .equals c = feed (.attrName [] []) c := by
        simp [feed, feedEquals, feedAttrName, black, notEquals]
      refine accounts_before [] (settled_next settled.size fun _ => empty) rfl ?_
      rw [mode, again, Nxml.mode, empty]
      rfl

theorem accounts_quote (state : h.state = .attrValueQuote) (black : isWhitespace c = false) :
    Accounts h (c :: rest) (nxmlAttrValueQuote h c rest) := by
  have mode : h.mode = .quote := by rw [mode, state]
  rw [nxmlAttrValueQuote]
  split
  next isQuote =>
    exact accounts_byte (settled_next settled.size (by simp)) (by rw [mode, isQuote]; rfl)
  next notQuote =>
    have again : feed .quote c = feed .value c := by
      simp [feed, black, notQuote]
    refine accounts_before [] (settled_next settled.size (by simp)) rfl ?_
    rw [mode, again]
    rfl

end

theorem addNamecache_size (size : kept.length ≤ nxmlMaxNameSize)
    (data : List UInt8) : (nxmlAddNamecache kept data).length ≤ nxmlMaxNameSize := by
  rw [nxmlAddNamecache, length_append, length_take]
  omega

theorem addNocopy_size (size : kept.length ≤ nxmlMaxNameSize)
    (data : List UInt8) : (nxmlAddNocopy kept data).2.length ≤ nxmlMaxNameSize := by
  rw [nxmlAddNocopy]
  split
  · exact Nat.zero_le _
  · exact addNamecache_size size data

theorem addNamecache_ne_nil (some : data ≠ []) :
    nxmlAddNamecache kept data ≠ [] := by
  cases kept with
  | nil =>
    obtain ⟨c, rest, rfl⟩ := exists_cons_of_ne_nil some
    exact cons_ne_nil _ _
  | cons => exact cons_ne_nil _ _

def Nxml.InName (h : Nxml) (kind : NameKind) : Prop :=
  h.state = .tagName ∧ kind = .tag ∨ h.state = .attrName ∧ kind = .attr ∨
    h.state = .endTagName ∧ kind = .endTag

theorem Nxml.InName.mode_eq {kind : NameKind} (inName : h.InName kind) :
    h.mode = kind.mode h.namecache [] := by
  rcases inName with ⟨state, rfl⟩ | ⟨state, rfl⟩ | ⟨state, rfl⟩ <;> rw [mode, state] <;> rfl

theorem accounts_unended {kind : NameKind} (settled : h.Settled) (inName : h.InName kind)
    (plain : ∀ d ∈ c :: rest, kind.ends d = false) :
    Accounts h (c :: rest) (.stop []
      { h with
        namecache := nxmlAddNamecache h.namecache (c :: rest), skipwhitespace := false }) := by
  have kept : nxmlAddNamecache h.namecache (c :: rest) ≠ [] :=
    addNamecache_ne_nil (cons_ne_nil c rest)
  rw [Accounts, inName.mode_eq, kind.reads plain, kind.pauses]
  refine ⟨rfl, Nxml.InName.mode_eq inName, addNamecache_size settled.size _, ?_, ?_⟩
  · rcases inName with ⟨state, -⟩ | ⟨state, -⟩ | ⟨state, -⟩ <;> simp [state]
  · rcases inName with ⟨state, -⟩ | ⟨state, -⟩ | ⟨state, -⟩ <;>
      simp [mode, state, Mode.skips, kept]

theorem accounts_endTagName (settled : h.Settled) (state : h.state = .endTagName)
    (black : h.skipwhitespace = true → isWhitespace c = false) :
    Accounts h (c :: rest) (nxmlEndTagName h (c :: rest)) := by
  have inName : h.InName .endTag := .inr (.inr ⟨state, rfl⟩)
  rw [nxmlEndTagName]
  rcases name_cases isEndDelimiter (c :: rest) with
    ⟨found, plain⟩ | ⟨name, d, after, split, plain, ends, found, taken⟩
  · rw [found]
    exact accounts_unended settled inName plain
  · -- A blank in front of the name would have been skipped.
    have notSkipped : ¬ (h.namecache = [] ∧ name = [] ∧ isWhitespace d = true) := by
      rintro ⟨nothing, rfl, white⟩
      have skip : h.skipwhitespace = true := by
        rw [settled.flag, inName.mode_eq, nothing]
        rfl
      rw [← (cons.inj split).1, black skip] at white
      cases white
    have silent : run feed h.mode name = ([], .endTagName h.namecache name) := by
      rw [inName.mode_eq]
      exact NameKind.endTag.reads plain h.namecache []
    have settled' : Nxml.Settled ⟨.finishTag, (nxmlAddNocopy h.namecache name).2,
        NxmlState.finishTag ≠ .attrValue⟩ :=
      settled_next (addNocopy_size settled.size name) (by simp)
    rw [found, taken]
    rw [split]
    change Accounts h (name ++ d :: after) (nxmlEndName (whole h.namecache name)
      (nxmlAddNocopy h.namecache name).2 (d :: after))
    rw [nxmlEndName]
    cases psi : (whole h.namecache name).isPrefixOf (ascii "psitree") with
    | true =>
      have last : feed (.endTagName h.namecache name) d
          = ([.tagEnd (whole h.namecache name)], .ended) := by
        rw [feed, feedEndTagName, if_neg notSkipped, if_pos ends, if_pos psi]
      have silence : run feed .ended after = ([], .ended) := run_stays feed fun _ _ => rfl
      refine ⟨settled', ?_⟩
      simp only [if_true, run_append, silent, run, last, silence]
      exact ⟨rfl, rfl⟩
    | false =>
      have last : feed (.endTagName h.namecache name) d
          = emit (.tagEnd (whole h.namecache name)) (feedFinish d) := by
        rw [feed, feedEndTagName, if_neg notSkipped, if_pos ends, if_neg (by simp [psi])]
      exact accounts_before name settled' silent last

theorem feed_tagName_ends {name : List UInt8} (ends : isDelimiter d = true)
    (read : kept ≠ [] ∨ name ≠ [] ∨ d = 61) (kept_open : name = [] → d ≠ 62) :
    feed (.tagName kept name) d
      = emit (.tagBegin (whole kept name)) (feed (.attrName [] []) d) := by
  rw [feed, feedTagName, if_neg (by tauto), if_neg (by tauto), if_pos ends, feed]

theorem feed_attrName_ends {name : List UInt8} (ends : isDelimiter d = true)
    (read : kept ≠ [] ∨ name ≠ [] ∨ d = 61) (kept_open : name = [] → d ≠ 62 ∧ d ≠ 47) :
    feed (.attrName kept name) d
      = emit (.attributeBegin (whole kept name)) (feed .equals d) := by
  by_cases fresh : kept = [] ∧ name = []
  · obtain ⟨rfl, rfl⟩ := fresh
    obtain rfl : d = 61 := by tauto
    rfl
  · rw [feed, feedAttrName, if_neg fresh, if_neg (by tauto), if_neg (by tauto), if_pos ends, feed]

theorem accounts_wholeName (settled : h.Settled)
    (state : h.state = .tagName ∨ h.state = .attrName)
    (black : h.skipwhitespace = true → isWhitespace c = false) (notClose : c ≠ 62)
    (notSlash : h.state = .attrName ∨ h.namecache = [] → c ≠ 47) :
    Accounts h (c :: rest) (nxmlWholeName h (c :: rest)) := by
  have flag : h.skipwhitespace = true ↔ h.namecache = [] := by
    rw [settled.flag]
    rcases state with state | state <;> simp [mode, state, Mode.skips]
  have settled' (state : NxmlState) : Nxml.Settled ⟨state, [], state ≠ .attrValue⟩ :=
    settled_next (Nat.zero_le _) fun _ => rfl
  rw [nxmlWholeName]
  rcases name_cases isDelimiter (c :: rest) with
    ⟨found, plain⟩ | ⟨name, d, after, split, plain, ends, found, taken⟩
  · rw [found]
    rcases state with state | state
    · exact accounts_unended settled (.inl ⟨state, rfl⟩) plain
    · exact accounts_unended settled (.inr (.inl ⟨state, rfl⟩)) plain
  · have first : name = [] → d = c := by
      rintro rfl
      exact (cons.inj split).1.symm
    have read : h.namecache ≠ [] ∨ name ≠ [] ∨ d = 61 := by
      by_contra absurdity
      simp only [not_or, not_not] at absurdity
      obtain ⟨nothing, none, other⟩ := absurdity
      have white := black (flag.mpr nothing)
      have slash := notSlash (.inr nothing)
      rw [first none] at ends other
      simp [isDelimiter, white, slash, other, notClose] at ends
    have kept_open : name = [] → d ≠ 62 := fun none => first none ▸ notClose
    rw [found, taken]
    change Accounts h (c :: rest) (nxmlStartName h.state (whole h.namecache name) (d :: after))
    rcases state with state | state
    · rw [nxmlStartName, if_pos state, split]
      exact accounts_before name (settled' .attrName)
        (by rw [mode, state]; exact NameKind.tag.reads plain h.namecache [])
        (feed_tagName_ends ends read kept_open)
    · have slash := notSlash (.inl state)
      rw [nxmlStartName, if_neg (by rw [state]; decide), split]
      exact accounts_before name (settled' .attrValueEquals)
        (by rw [mode, state]; exact NameKind.attr.reads plain h.namecache [])
        (feed_attrName_ends ends read fun none => ⟨kept_open none, first none ▸ slash⟩)

theorem accounts_name (settled : h.Settled) (state : h.state = .tagName ∨ h.state = .attrName)
    (black : h.skipwhitespace = true → isWhitespace c = false) :
    Accounts h (c :: rest) (nxmlName h c rest) := by
  rw [nxmlName]
  split
  next slash =>
    obtain ⟨rfl, tag, empty⟩ := slash
    refine accounts_byte (settled_next settled.size fun _ => empty) ?_
    simp only [mode, tag, empty]
    rfl
  next notEnd =>
    split
    next slash =>
      obtain ⟨rfl, attr⟩ := slash
      refine accounts_byte (settled_next settled.size (by simp)) ?_
      rw [mode, attr]
      cases kept : h.namecache <;> rfl
    next notSlash =>
      split
      next close =>
        subst close
        refine accounts_byte (settled_next settled.size (by simp)) ?_
        rcases state with state | state <;> rw [mode, state] <;>
          cases kept : h.namecache <;> rfl
      next notClose =>
        refine accounts_wholeName settled state black notClose ?_
        rintro either rfl
        rcases state with state | state
        · grind
        · exact notSlash ⟨rfl, state⟩

theorem accounts_round (h : Nxml) (c : UInt8) (rest : List UInt8) (settled : h.Settled) :
    Accounts h (c :: rest) (nxmlRound h c rest) := by
  rw [nxmlRound]
  split
  · next skipped => exact accounts_blanks settled skipped.1 skipped.2
  · next kept =>
      have black : h.skipwhitespace = true → isWhitespace c = false := by grind
      have flag := settled.flag
      cases state : h.state with
      | beginTag =>
        rw [mode, state] at flag
        exact accounts_beginTag settled state (black flag)
      | finishTag => exact accounts_finishTag settled state
      | endTagName => exact accounts_endTagName settled state black
      | tagName => exact accounts_name settled (.inl state) black
      | attrName => exact accounts_name settled (.inr state) black
      | attrValue => exact accounts_attrValue settled state
      | attrValueEquals =>
        rw [mode, state] at flag
        exact accounts_equals settled state (black flag)
      | attrValueQuote =>
        rw [mode, state] at flag
        exact accounts_quote settled state (black flag)

end Rounds

theorem nxmlLoop_feed {rounds : Nat} {r : List Event × Nxml} (settled : h.Settled)
    (loop : nxmlLoop rounds h data = some r) :
    pieces.joined r.1 = pieces.joined (run feed h.mode data).1 ∧
      r.2.mode = (run feed h.mode data).2.pause ∧ r.2.Settled := by
  fun_induction nxmlLoop rounds h data generalizing r with
  | case1 rounds h =>
    obtain rfl := Option.some.inj loop
    refine ⟨rfl, ?_, settled⟩
    obtain ⟨state, namecache, skip⟩ := h
    cases state <;> simp [mode, run, Mode.pause, nxmlAddNamecache]
  | case2 => cases loop
  | case3 rounds h c rest events h' outcome =>
    have round := accounts_round h c rest settled
    rw [outcome] at round
    obtain rfl := Option.some.inj loop
    exact round
  | case4 rounds h c rest events h' data' outcome =>
    have round := accounts_round h c rest settled
    rw [outcome] at round
    obtain rfl := Option.some.inj loop
    exact ⟨round.2.1, round.2.2, round.1⟩
  | case5 rounds h c rest events h' data' psiEnd outcome more ih =>
    have round := accounts_round h c rest settled
    rw [outcome, Accounts, if_neg more] at round
    obtain ⟨settled', same, mode⟩ := round
    obtain ⟨r', loop', rfl⟩ := Option.map_eq_some_iff.mp loop
    obtain ⟨same', mode', settled''⟩ := ih settled' loop'
    refine ⟨?_, mode'.trans (congrArg _ mode), settled''⟩
    rw [← same]
    exact pieces.joined_append rfl same'

theorem nxmlWrite_feed (settled : h.Settled) (data : List UInt8) :
    pieces.joined (nxmlWrite h data).1 = pieces.joined (run feed h.mode data).1 ∧
      (nxmlWrite h data).2.mode = (run feed h.mode data).2.pause ∧
      (nxmlWrite h data).2.Settled :=
  nxmlLoop_feed settled (nxmlLoop_eq (Nat.lt_succ_self _))

end EchoLife.Xml
