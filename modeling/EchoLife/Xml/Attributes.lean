import EchoLife.Xml.Feed

/-!
# Attributes as they are written and read

`Reads` says what attributes a text is read as. A format that consists of attributes (`Field`)
prints a text that is read as their names and the printed values, if no value has a quote in it
(`reads_fprintf`). `nxmlWrite_element` is about a whole tag.
-/

namespace EchoLife.Xml

open List TextSearch

/-! ## Printing -/

/-- A text that is printed in front of another: the conversions `%s`, `%d` and `%u`, for arguments
that are texts already. -/
def printed : (format : List UInt8) → (args : List (List UInt8)) → (rest : List UInt8) → List UInt8
  | [], _, rest => rest
  | [c], _, rest => c :: rest
  | c :: d :: format, args, rest =>
    if c = 37 then args.headD [] ++ printed format args.tail rest
    else c :: printed (d :: format) args rest

def fprintf (format : String) (args : List (List UInt8)) : List UInt8 :=
  printed (ascii format) args []

theorem printed_append (format : List UInt8) (args : List (List UInt8)) (rest more : List UInt8) :
    printed format args rest ++ more = printed format args (rest ++ more) := by
  fun_induction printed format args rest with
  | case1 args rest => rfl
  | case2 args rest c => rfl
  | case3 args rest d format ih =>
    rw [append_assoc, ih, printed, if_pos rfl]
  | case4 args rest c d format other ih =>
    rw [cons_append, ih, printed, if_neg other]

theorem fprintf_append (format : String) (args : List (List UInt8)) (more : List UInt8) :
    fprintf format args ++ more = printed (ascii format) args more :=
  printed_append ..

def conversions : List UInt8 → Option Nat
  | [] => some 0
  | [c] => if c = 37 then none else some 0
  | c :: d :: format =>
    if c = 37 then (conversions format).map (· + 1) else conversions (d :: format)

theorem printed_split {front : List UInt8} {args : List (List UInt8)}
    (whole : conversions front = some args.length) (back : List UInt8)
    (more : List (List UInt8)) (rest : List UInt8) :
    printed (front ++ back) (args ++ more) rest =
      printed front args (printed back more rest) := by
  fun_induction conversions front generalizing args with
  | case1 =>
    obtain rfl := eq_nil_of_length_eq_zero (Option.some.inj whole).symm
    rfl
  | case2 => cases whole
  | case3 c other =>
    obtain rfl := eq_nil_of_length_eq_zero (Option.some.inj whole).symm
    cases back with
    | nil => rfl
    | cons d back => simp [printed, other]
  | case4 d front ih =>
    cases args with
    | nil => cases counted : conversions front <;> simp [counted] at whole
    | cons a args =>
      have behind : conversions front = some args.length := by
        cases counted : conversions front <;> simp_all
      simp [printed, ih behind]
  | case5 c d front other ih =>
    have behind := ih whole
    rw [cons_append] at behind
    simp [printed, other, behind]

theorem fprintf_split (format front back : String) (n : Nat)
    (splits : ascii format = ascii front ++ ascii back ∧ conversions (ascii front) = some n)
    (args more : List (List UInt8)) (long : args.length = n) :
    fprintf format (args ++ more) = fprintf front args ++ fprintf back more := by
  obtain ⟨text, whole⟩ := splits
  rw [fprintf, text, printed_split (whole.trans (congrArg some long.symm)), fprintf_append, fprintf]

def printD (n : Int) : List UInt8 :=
  (if n < 0 then [45] else []) ++ (Nat.toDigits 10 n.natAbs).map fun c => c.toNat.toUInt8

def inetNtoa (addr : Fin 4 → UInt8) : List UInt8 :=
  fprintf "%d.%d.%d.%d" ((List.ofFn addr).map fun b => printD b.toNat)

def pick {n : Nat} (texts : Fin n → String) (i : Fin n) : List UInt8 := ascii (texts i)

def table64 : List UInt8 :=
  ascii "ABCDEFGHIJKLMNOPQRSTUVWXYZabcdefghijklmnopqrstuvwxyz0123456789+/"

def base64Char (index : UInt8) : UInt8 := table64.getD index.toNat 0

def base64Encode : List UInt8 → List UInt8
  | [] => []
  | [a] => [base64Char ((a &&& 0xFC) >>> 2), base64Char ((a &&& 0x03) <<< 4), 61, 61]
  | [a, b] =>
    [base64Char ((a &&& 0xFC) >>> 2), base64Char (((a &&& 0x03) <<< 4) ||| ((b &&& 0xF0) >>> 4)),
      base64Char ((b &&& 0x0F) <<< 2), 61]
  | a :: b :: c :: rest =>
    base64Char ((a &&& 0xFC) >>> 2) ::
    base64Char (((a &&& 0x03) <<< 4) ||| ((b &&& 0xF0) >>> 4)) ::
    base64Char (((b &&& 0x0F) <<< 2) ||| ((c &&& 0xC0) >>> 6)) ::
    base64Char (c &&& 0x3F) :: base64Encode rest

theorem printD_unquoted (n : Int) : 34 ∉ printD n := by
  rw [printD, mem_append, not_or]
  constructor
  · split <;> decide
  · rw [mem_map]
    rintro ⟨c, mem, quote⟩
    have digit := Nat.isDigit_of_mem_toDigits (by decide) (by decide) mem
    have large : 48 ≤ c.toNat ∧ c.toNat ≤ 57 := by
      simpa [Char.isDigit, UInt32.le_iff_toNat_le] using digit
    have byte : c.toNat % 256 = 34 := by simpa using congrArg UInt8.toNat quote
    omega

/-! ## The loop round by round -/

variable {h : Nxml} {data rest : List UInt8} {c : UInt8} {state : NxmlState}

def after (events : List Event) (r : List Event × Nxml) : List Event × Nxml :=
  (events ++ r.1, r.2)

theorem nxmlWrite_go {h' : Nxml} {events : List Event}
    (round : nxmlRound h c rest = .go events h' data false) :
    nxmlWrite h (c :: rest) = after events (nxmlWrite h' data) := by
  have lighter := lighter_round h c rest
  rw [round] at lighter
  have outer := nxmlLoop_eq (Nat.lt_succ_self (h.weight (c :: rest)))
  rw [nxmlLoop, round] at outer
  simp only [Bool.false_eq_true, if_false, nxmlLoop_eq lighter, Option.map_some,
    Option.some.injEq] at outer
  exact outer.symm

theorem nxmlWrite_silent {h' : Nxml} (round : nxmlRound h c rest = .go [] h' data false) :
    nxmlWrite h (c :: rest) = nxmlWrite h' data :=
  nxmlWrite_go round

/-! ## Reading a tag -/

def fresh (state : NxmlState) : Nxml := ⟨state, [], state ≠ .attrValue⟩

theorem nxmlWrite_dropWhile (skips : state ≠ .attrValue) (data : List UInt8) :
    nxmlWrite (fresh state) data = nxmlWrite (fresh state) (data.dropWhile isWhitespace) := by
  cases data with
  | nil => rfl
  | cons c rest =>
    cases white : isWhitespace c with
    | false => rw [dropWhile_cons_of_neg (by simp [white])]
    | true =>
      have flag : (fresh state).skipwhitespace = true := decide_eq_true skips
      rw [dropWhile_cons_of_pos white]
      refine nxmlWrite_silent ?_
      rw [nxmlRound, if_pos ⟨flag, white⟩]

theorem nxmlWrite_blank (skips : state ≠ .attrValue) (white : isWhitespace c = true)
    (rest : List UInt8) : nxmlWrite (fresh state) (c :: rest) = nxmlWrite (fresh state) rest := by
  rw [nxmlWrite_dropWhile skips, dropWhile_cons_of_pos white, ← nxmlWrite_dropWhile skips]

theorem nxmlWrite_blanks (skips : state ≠ .attrValue) {blanks : List UInt8}
    (blank : ∀ c ∈ blanks, isWhitespace c = true) (black : isWhitespace c = false) :
    nxmlWrite (fresh state) (blanks ++ c :: rest) = nxmlWrite (fresh state) (c :: rest) := by
  rw [nxmlWrite_dropWhile skips, dropWhile_append_of_pos blank,
    dropWhile_cons_of_neg (by simp [black])]

theorem white_of_delimiter (plain : isDelimiter c = false) : isWhitespace c = false := by
  cases white : isWhitespace c with
  | false => rfl
  | true =>
    rw [isDelimiter, white] at plain
    cases plain

theorem nxmlWrite_name (names : state = .tagName ∨ state = .attrName) {name : List UInt8}
    {d : UInt8} (named : name ≠ []) (plain : ∀ c ∈ name, isDelimiter c = false)
    (ends : isDelimiter d = true) :
    nxmlWrite (fresh state) (name ++ d :: rest)
      = if state = .tagName then
          after [.tagBegin name] (nxmlWrite (fresh .attrName) (d :: rest))
        else after [.attributeBegin name] (nxmlWrite (fresh .attrValueEquals) (d :: rest)) := by
  obtain ⟨c, tail, rfl⟩ := exists_cons_of_ne_nil named
  have first := plain c mem_cons_self
  have notSlash : c ≠ 47 := by
    rintro rfl
    cases first
  have notClose : c ≠ 62 := by
    rintro rfl
    cases first
  have stops : (c :: (tail ++ d :: rest)).dropWhile (fun c => !isDelimiter c) = d :: rest := by
    rw [← cons_append, dropWhile_append_of_pos (by simpa using plain),
      dropWhile_cons_of_neg (by simp [ends])]
  have taken : (c :: (tail ++ d :: rest)).takeWhile (fun c => !isDelimiter c) = c :: tail := by
    rw [← cons_append, takeWhile_append_of_pos (by simpa using plain),
      takeWhile_cons_of_neg (by simp [ends]), append_nil]
  have round : nxmlRound (fresh state) c (tail ++ d :: rest)
      = nxmlStartName state (c :: tail) (d :: rest) := by
    have whole : nxmlName (fresh state) c (tail ++ d :: rest)
        = nxmlStartName state (c :: tail) (d :: rest) := by
      rw [nxmlName, if_neg (fun bad => notSlash bad.1), if_neg (fun bad => notSlash bad.1),
        if_neg notClose, nxmlWholeName, stops, taken]
      rfl
    rw [nxmlRound, if_neg (by simp [white_of_delimiter first])]
    rcases names with rfl | rfl <;> exact whole
  rcases names with rfl | rfl
  · exact nxmlWrite_go round
  · exact nxmlWrite_go round

theorem nxmlWrite_value {gap value : List UInt8} (blank : ∀ c ∈ gap, isWhitespace c = true)
    (unquoted : 34 ∉ value) :
    nxmlWrite (fresh .attrValueEquals) (gap ++ 61 :: (gap ++ 34 :: (value ++ 34 :: rest)))
      = after [.attributeValue value] (nxmlWrite (fresh .attrName) rest) := by
  have plain : ∀ c ∈ value, (c ≠ 34 : Bool) = true := by grind
  have stops : (value ++ 34 :: rest).dropWhile (· ≠ 34) = 34 :: rest := by
    rw [dropWhile_append_of_pos plain, dropWhile_cons_of_neg (by simp)]
  have taken : (value ++ 34 :: rest).takeWhile (· ≠ 34) = value := by
    rw [takeWhile_append_of_pos plain, takeWhile_cons_of_neg (by simp),
      append_nil]
  calc nxmlWrite (fresh .attrValueEquals) (gap ++ 61 :: (gap ++ 34 :: (value ++ 34 :: rest)))
      = nxmlWrite (fresh .attrValueEquals) (61 :: (gap ++ 34 :: (value ++ 34 :: rest))) :=
        nxmlWrite_blanks (by decide) blank rfl
    _ = nxmlWrite (fresh .attrValueQuote) (gap ++ 34 :: (value ++ 34 :: rest)) :=
        nxmlWrite_silent rfl
    _ = nxmlWrite (fresh .attrValueQuote) (34 :: (value ++ 34 :: rest)) :=
        nxmlWrite_blanks (by decide) blank rfl
    _ = nxmlWrite (fresh .attrValue) (value ++ 34 :: rest) :=
        nxmlWrite_silent rfl
    _ = after [.attributeValue value] (nxmlWrite (fresh .attrName) rest) := by
        have round : nxmlAttrValue (fresh .attrValue) (value ++ 34 :: rest)
            = .go [.attributeValue value] (fresh .attrName) rest false := by
          rw [nxmlAttrValue, stops, taken]
          rfl
        cases value with
        | nil | cons c value => exact nxmlWrite_go round

/-! ## Attributes -/

/-- An attribute in a format: a blank, the name, `=` with blanks on both sides, and a conversion in
quotes. -/
structure Field where
  conversion : UInt8
  name : List UInt8
  gap : List UInt8
  deriving DecidableEq

def events (a : List UInt8 × List UInt8) : List Event := [.attributeBegin a.1, .attributeValue a.2]

namespace Field

def of (conversion : Char) (name : String) : Field := ⟨conversion.toNat.toUInt8, ascii name, []⟩

def format (f : Field) : List UInt8 :=
  32 :: (f.name ++ (f.gap ++ 61 :: (f.gap ++ [34, 37, f.conversion, 34])))

def print (f : Field) (value rest : List UInt8) : List UInt8 :=
  32 :: (f.name ++ (f.gap ++ 61 :: (f.gap ++ 34 :: (value ++ 34 :: rest))))

theorem print_append (f : Field) (value rest more : List UInt8) :
    f.print value rest ++ more = f.print value (rest ++ more) := by
  simp [print]

def Plain (f : Field) : Prop :=
  f.name ≠ [] ∧ (∀ c ∈ f.name, isDelimiter c = false ∧ c ≠ 37) ∧
    ∀ c ∈ f.gap, isWhitespace c = true ∧ c ≠ 37

instance (f : Field) : Decidable f.Plain :=
  inferInstanceAs (Decidable (_ ∧ _ ∧ _))

end Field

def Reads (text : List UInt8) (attributes : List (List UInt8 × List UInt8)) : Prop :=
  ∀ rest, nxmlWrite (fresh .attrName) (text ++ rest)
    = after (attributes.flatMap events) (nxmlWrite (fresh .attrName) rest)

theorem reads_nil : Reads [] [] := fun _ => rfl

theorem reads_blank : Reads [32] [] := fun rest => nxmlWrite_blank (by decide) (by decide) rest

theorem Reads.append {text more : List UInt8} {attributes others : List (List UInt8 × List UInt8)}
    (reads : Reads text attributes) (behind : Reads more others) :
    Reads (text ++ more) (attributes ++ others) := by
  intro rest
  rw [append_assoc, reads, behind, flatMap_append]
  simp only [after, append_assoc]

theorem Reads.flatMap {α : Type} {text : α → List UInt8}
    {attributes : α → List (List UInt8 × List UInt8)} {l : List α}
    (each : ∀ x ∈ l, Reads (text x) (attributes x)) :
    Reads (l.flatMap text) (l.flatMap attributes) := by
  induction l with
  | nil => exact reads_nil
  | cons x l ih =>
    exact (each x mem_cons_self).append (ih fun y mem => each y (mem_cons_of_mem _ mem))

theorem Field.Plain.reads {f : Field} (plain : f.Plain) {value : List UInt8}
    (unquoted : 34 ∉ value) : Reads (f.print value []) [(f.name, value)] := by
  obtain ⟨named, plain, blank⟩ := plain
  intro rest
  have gap : ∀ c ∈ f.gap, isWhitespace c = true := fun c mem => (blank c mem).1
  have name : ∀ c ∈ f.name, isDelimiter c = false := fun c mem => (plain c mem).1
  obtain ⟨d, behind, equals, ends⟩ : ∃ d behind,
      f.gap ++ 61 :: (f.gap ++ 34 :: (value ++ 34 :: rest)) = d :: behind
        ∧ isDelimiter d = true := by
    cases blanks : f.gap with
    | nil => exact ⟨61, _, rfl, rfl⟩
    | cons d gap' =>
      refine ⟨d, _, rfl, ?_⟩
      rw [isDelimiter, gap d (by rw [blanks]; exact mem_cons_self)]
      rfl
  calc nxmlWrite (fresh .attrName) (f.print value [] ++ rest)
      = nxmlWrite (fresh .attrName) (f.name ++ d :: behind) := by
        rw [print_append, nil_append, print, equals, nxmlWrite_blank (by decide) (by decide)]
    _ = after [.attributeBegin f.name] (nxmlWrite (fresh .attrValueEquals) (d :: behind)) :=
        nxmlWrite_name (.inr rfl) named name ends
    _ = after (events (f.name, value)) (nxmlWrite (fresh .attrName) rest) := by
        rw [← equals, nxmlWrite_value gap unquoted]
        rfl

/-! ## Formats of attributes -/

theorem printed_plain {l : List UInt8} (plain : 37 ∉ l) (format : List UInt8)
    (args : List (List UInt8)) (rest : List UInt8) :
    printed (l ++ format) args rest = l ++ printed format args rest := by
  induction l with
  | nil => rfl
  | cons c l ih =>
    obtain ⟨here, later⟩ := ne_and_not_mem_of_not_mem_cons plain
    have behind := ih later
    cases more : l ++ format with
    | nil =>
      obtain ⟨rfl, rfl⟩ := append_eq_nil_iff.mp more
      rfl
    | cons d others =>
      rw [more] at behind
      rw [cons_append, more, printed, if_neg (Ne.symm here), behind]
      rfl

theorem Field.Plain.printed {f : Field} (plain : f.Plain) (more value : List UInt8)
    (args : List (List UInt8)) (rest : List UInt8) :
    printed (f.format ++ more) (value :: args) rest
      = f.print value [] ++ printed more args rest := by
  obtain ⟨-, name, gap⟩ := plain
  have front : 37 ∉ 32 :: (f.name ++ (f.gap ++ 61 :: (f.gap ++ [34]))) := by
    simp only [mem_cons, mem_append, not_mem_nil, not_or]
    refine ⟨by decide, fun mem => (name 37 mem).2 rfl, fun mem => (gap 37 mem).2 rfl, by decide,
      fun mem => (gap 37 mem).2 rfl, by decide, not_false⟩
  have format : f.format ++ more
      = 32 :: (f.name ++ (f.gap ++ 61 :: (f.gap ++ [34]))) ++
          37 :: f.conversion :: ([34] ++ more) := by
    simp [Field.format]
  rw [format, printed_plain front, Xml.printed, if_pos rfl, printed_plain (by decide)]
  simp [print]

theorem reads_literal {format : String} {f : Field} {value : List UInt8}
    (shape : fprintf format [] = f.print value []) (plain : f.Plain) (unquoted : 34 ∉ value) :
    Reads (fprintf format []) [(f.name, value)] := by
  rw [shape]
  exact plain.reads unquoted

theorem reads_numbered {format front : String} {number value blanks : List UInt8}
    (shape : ascii format =
        32 :: ascii front ++ 37 :: 100 :: ([61, 34] ++ 37 :: 115 :: 34 :: blanks)
      ∧ 37 ∉ 32 :: ascii front ∧ 37 ∉ blanks)
    (plain : Field.Plain ⟨115, ascii front ++ number, []⟩) (skipped : Reads blanks [])
    (unquoted : 34 ∉ value) :
    Reads (fprintf format [number, value]) [(ascii front ++ number, value)] := by
  obtain ⟨shape, name, blank⟩ := shape
  have text : fprintf format [number, value]
      = Field.print ⟨115, ascii front ++ number, []⟩ value [] ++ blanks := by
    have behind : printed (34 :: blanks) [] [] = 34 :: blanks := by
      have plain : 37 ∉ 34 :: blanks := by simpa using blank
      rw [← append_nil (34 :: blanks), printed_plain plain]
      rfl
    rw [fprintf, shape, printed_plain name, printed, if_pos rfl, printed_plain (by decide), printed,
      if_pos rfl]
    change _ = _
    simp [behind, Field.print]
  rw [text, ← append_nil [(ascii front ++ number, value)]]
  exact (plain.reads unquoted).append skipped

def Fits (format : String) (fields : List Field) (blanks : List UInt8) : Prop :=
  ascii format = fields.flatMap Field.format ++ blanks ∧ (∀ f ∈ fields, f.Plain) ∧
    (blanks = [] ∨ blanks = [32])

instance (format : String) (fields : List Field) (blanks : List UInt8) :
    Decidable (Fits format fields blanks) :=
  inferInstanceAs (Decidable (_ ∧ _ ∧ _))

theorem reads_fprintf {format : String} {args : List (List UInt8)} (fields : List Field)
    (blanks : List UInt8) (fits : Fits format fields blanks) (size : fields.length = args.length)
    (unquoted : ∀ v ∈ args, 34 ∉ v) :
    Reads (fprintf format args) (fields.zipWith (fun f v => (f.name, v)) args) := by
  obtain ⟨shape, plain, blank⟩ := fits
  rw [fprintf, shape]
  clear shape
  induction fields generalizing args with
  | nil =>
    rcases blank with rfl | rfl
    · exact reads_nil
    · exact reads_blank
  | cons f fields ih =>
    cases args with
    | nil => cases size
    | cons v args =>
      have here : f.Plain := plain f mem_cons_self
      rw [flatMap_cons, append_assoc, here.printed]
      refine (here.reads (unquoted v mem_cons_self)).append (ih ?_ ?_ ?_)
      · exact Nat.succ.inj size
      · exact fun v mem => unquoted v (mem_cons_of_mem _ mem)
      · exact fun f mem => plain f (mem_cons_of_mem _ mem)

/-! ## Tags -/

theorem nxmlWrite_element {name text : List UInt8} {attributes : List (List UInt8 × List UInt8)}
    (named : name ≠ []) (plain : ∀ c ∈ name, isDelimiter c = false)
    (apart : text.head?.any isDelimiter = true) (reads : Reads text attributes)
    (rest : List UInt8) :
    nxmlWrite (fresh .beginTag) (60 :: (name ++ (text ++ rest)))
      = after (.tagBegin name :: attributes.flatMap events) (nxmlWrite (fresh .attrName) rest) := by
  cases text with
  | nil => cases apart
  | cons d behind =>
    calc nxmlWrite (fresh .beginTag) (60 :: (name ++ (d :: behind ++ rest)))
        = nxmlWrite (fresh .tagName) (name ++ d :: (behind ++ rest)) :=
          nxmlWrite_silent rfl
      _ = after [.tagBegin name] (nxmlWrite (fresh .attrName) (d :: behind ++ rest)) :=
          nxmlWrite_name (.inl rfl) named plain apart
      _ = after (.tagBegin name :: attributes.flatMap events)
            (nxmlWrite (fresh .attrName) rest) := by
          rw [reads rest]
          rfl

theorem nxmlWrite_close (rest : List UInt8) :
    nxmlWrite (fresh .attrName) (47 :: 62 :: rest)
      = after [.tagEnd []] (nxmlWrite (fresh .beginTag) rest) :=
  calc nxmlWrite (fresh .attrName) (47 :: 62 :: rest)
      = after [.tagEnd []] (nxmlWrite (fresh .finishTag) (62 :: rest)) :=
        nxmlWrite_go rfl
    _ = after [.tagEnd []] (nxmlWrite (fresh .beginTag) rest) := by
        rw [nxmlWrite_silent rfl]
        rfl

end EchoLife.Xml
