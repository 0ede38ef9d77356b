import EchoLife.Lib.Fields
import EchoLife.Xml.PppProfile

/-!
# The checks of addresses

The checks of IP and MAC addresses copy at most 19 characters and take the fields with `strtok_r`:
runs of separators count as one, what follows the last field is not seen, and a number may have a
sign. `validateIpAddress_exact_iff` and `validateMacAddress_exact_iff` say for which texts they
agree with `DottedQuad` and `ColonMac`, the languages that their comments name.
-/

namespace EchoLife.Db

open List Fields TextSearch EchoLife.Xml

/-! ## The checks -/

def tokenBuffer (objValue : List UInt8) : List UInt8 :=
  let len := if objValue.length + 1 > 20 then 20 else objValue.length + 1
  objValue.take (len - 1)

def checkOctet (_ : Unit) (pToken : List UInt8) : Option Unit :=
  if validateNumber pToken = false then none
  else if atoi pToken < 0 ∨ atoi pToken > 255 then none
  else some ()

def validateIpAddress (objValue : List UInt8) : Bool :=
  (scan 46 checkOctet 4 () (tokenBuffer objValue)).isSome

def isxdigit (c : UInt8) : Bool :=
  (48 ≤ c && c ≤ 57) || (65 ≤ c && c ≤ 70) || (97 ≤ c && c ≤ 102)

def validateHexNumber (objValue : List UInt8) : Bool := objValue ≠ [] && objValue.all isxdigit

def checkPair (_ : Unit) (pToken : List UInt8) : Option Unit :=
  if validateHexNumber pToken = false ∨ pToken.length > 2 then none else some ()

def validateMacAddress (objValue : List UInt8) : Bool :=
  (scan 58 checkPair 6 () (tokenBuffer objValue)).isSome

theorem tokenBuffer_eq (objValue : List UInt8) : tokenBuffer objValue = objValue.take 19 := by
  simp only [tokenBuffer]
  split
  next => rfl
  next short => rw [take_of_length_le (by omega), take_of_length_le (by omega)]

/-! ## Numbers -/

def IsDigit (c : UInt8) : Prop := 48 ≤ c ∧ c ≤ 57

structure Decimal (field : List UInt8) : Prop where
  ne_nil : field ≠ []
  digits : ∀ c ∈ field, IsDigit c
  value : decimal field ≤ 255

def SignedZero (field : List UInt8) : Prop :=
  ∃ zeros, field = 45 :: zeros ∧ Decimal zeros ∧ decimal zeros = 0

instance (c : UInt8) : Decidable (IsDigit c) := inferInstanceAs (Decidable (_ ∧ _))

instance (field : List UInt8) : Decidable (Decimal field) :=
  decidable_of_iff (field ≠ [] ∧ (∀ c ∈ field, IsDigit c) ∧ decimal field ≤ 255)
    ⟨fun ⟨ne_nil, digits, value⟩ => ⟨ne_nil, digits, value⟩,
      fun number => ⟨number.ne_nil, number.digits, number.value⟩⟩

theorem validateNumber_digits {field : List UInt8} (unsigned : field.head? ≠ some 45) :
    validateNumber field = true ↔ field ≠ [] ∧ ∀ c ∈ field, IsDigit c := by
  simp [validateNumber, unsigned, IsDigit]

theorem IsDigit.not_blank {c : UInt8} (digit : IsDigit c) :
    (c = 32 || (9 ≤ c && c ≤ 13)) = false := by
  have low : 48 ≤ c.toNat := UInt8.le_iff_toNat_le.mp digit.1
  have space : c ≠ 32 := by
    rintro rfl
    exact absurd low (by decide)
  have above : ¬ c ≤ 13 := fun le =>
    absurd (Nat.le_trans low (UInt8.le_iff_toNat_le.mp le)) (by decide)
  simp [space, above]

section

variable {field : List UInt8} (digits : ∀ c ∈ field, IsDigit c)
include digits

theorem takeWhile_digits : (field.takeWhile fun c => 48 ≤ c && c ≤ 57) = field := by
  refine takeWhile_eq_self_iff.mpr fun c mem => ?_
  simpa [IsDigit] using digits c mem

theorem atoi_digits : atoi field = decimal field := by
  cases field with
  | nil => rfl
  | cons c field =>
    have digit := digits c (by simp)
    have plus : c ≠ 43 := by
      rintro rfl
      exact absurd digit (by simp [IsDigit])
    have minus : c ≠ 45 := by
      rintro rfl
      exact absurd digit (by simp [IsDigit])
    rw [atoi, dropWhile_cons_of_neg (by simp [digit.not_blank])]
    simp only [head?_cons, Option.some.injEq, plus, minus, or_self, if_false,
      takeWhile_digits digits]

theorem atoi_signed : atoi (45 :: field) = -decimal field := by
  rw [atoi, dropWhile_cons_of_neg (by decide)]
  simp [takeWhile_digits digits]

end

theorem checkOctet_isSome {field : List UInt8} :
    (checkOctet () field).isSome ↔
      validateNumber field = true ∧ 0 ≤ atoi field ∧ atoi field ≤ 255 := by
  rw [checkOctet]
  cases validateNumber field with
  | false => simp
  | true =>
    simp only [Bool.true_eq_false, if_false, true_and]
    split <;> simp <;> omega

theorem validateIpAddress_eq (objValue : List UInt8) :
    validateIpAddress objValue = Xml.validateIpAddress objValue := by
  have ranges (tokens : List (List UInt8)) :
      (tokens.foldlM checkOctet ()).isSome = tokens.all fun token => validateRange token 0 255 := by
    rw [Bool.eq_iff_iff, foldlM_isSome_iff, all_eq_true]
    simp [checkOctet_isSome, validateRange]
  rw [validateIpAddress, tokenBuffer_eq, scan_eq_splitOn, Xml.validateIpAddress]
  split
  next enough => rw [ranges, decide_eq_true enough, Bool.true_and]
  next few => rw [decide_eq_false few, Option.isSome_none, Bool.false_and]

theorem Decimal.unsigned {field : List UInt8} (number : Decimal field) : field.head? ≠ some 45 := by
  intro sign
  have digit := number.digits 45 (mem_of_mem_head? sign)
  exact absurd digit (by simp [IsDigit])

theorem checkOctet_isSome_iff {field : List UInt8} :
    (checkOctet () field).isSome ↔ Decimal field ∨ SignedZero field := by
  rw [checkOctet_isSome]
  by_cases sign : field.head? = some 45
  · obtain ⟨digits, rfl⟩ := head?_eq_some_iff.mp sign
    have number : validateNumber (45 :: digits) = true ↔ digits ≠ [] ∧ ∀ c ∈ digits, IsDigit c := by
      simp [validateNumber, IsDigit]
    rw [number]
    constructor
    · rintro ⟨⟨ne_nil, digits_ok⟩, low, high⟩
      rw [atoi_signed digits_ok] at low high
      exact .inr ⟨digits, rfl, ⟨ne_nil, digits_ok, by omega⟩, by omega⟩
    · rintro (number | ⟨zeros, same, number, zero⟩)
      · exact absurd rfl number.unsigned
      · obtain rfl : digits = zeros := (cons.inj same).2
        rw [atoi_signed number.digits, zero]
        exact ⟨⟨number.ne_nil, number.digits⟩, by decide, by decide⟩
  · rw [validateNumber_digits sign]
    constructor
    · rintro ⟨⟨ne_nil, digits⟩, -, high⟩
      rw [atoi_digits digits] at high
      exact .inl ⟨ne_nil, digits, by omega⟩
    · rintro (number | ⟨zeros, rfl, -⟩)
      · have value := number.value
        rw [atoi_digits number.digits]
        exact ⟨⟨number.ne_nil, number.digits⟩, by omega, by omega⟩
      · exact absurd rfl sign

theorem decimal_append (front back : List UInt8) :
    decimal (front ++ back) = back.foldl (fun n c => 10 * n + (c.toNat - 48)) (decimal front) := by
  rw [decimal, foldl_append, ← decimal]

theorem le_foldl_decimal (back : List UInt8) (n : Nat) :
    n ≤ back.foldl (fun n c => 10 * n + (c.toNat - 48)) n := by
  induction back generalizing n with
  | nil => exact Nat.le_refl n
  | cons c back ih => exact Nat.le_trans (show n ≤ 10 * n + (c.toNat - 48) by omega) (ih _)

theorem Decimal.front {field front : List UInt8} (number : Decimal field) (begins : front <+: field)
    (ne_nil : front ≠ []) : Decimal front := by
  obtain ⟨back, rfl⟩ := begins
  refine ⟨ne_nil, fun c mem => number.digits c (mem_append_left _ mem), ?_⟩
  refine Nat.le_trans ?_ number.value
  rw [decimal_append]
  exact le_foldl_decimal back _

theorem Decimal.solid {field : List UInt8} (number : Decimal field) : field ≠ [] ∧ 46 ∉ field := by
  refine ⟨number.ne_nil, fun mem => ?_⟩
  exact absurd (number.digits 46 mem) (by simp [IsDigit])

/-! ## IP addresses -/

def DottedQuad (text : List UInt8) : Prop :=
  ∃ front last, front.length = 3 ∧ text = [46].intercalate (front ++ [last]) ∧
    ∀ field ∈ front ++ [last], Decimal field

structure PlainAddress (text : List UInt8) : Prop where
  /-- If the first 19 characters can be read as four numbers between dots, then there is no dot in
  front of them, no second dot between them, no sign, and nothing behind them but more digits of the
  last number. -/
  tidy : ∀ front last rest, front.length = 3 → Laid 46 front last rest (text.take 19) →
    (∀ piece ∈ front ++ [last], Decimal piece.2 ∨ SignedZero piece.2) →
    (∀ piece ∈ front ++ [last], piece.1 = 0 ∧ ¬ SignedZero piece.2) ∧
      Decimal (last.2 ++ (rest ++ text.drop 19))
  /-- In a dotted quad the last number begins among the first 19 characters. -/
  short : ∀ front last, front.length = 3 → text = [46].intercalate (front ++ [last]) →
    (∀ field ∈ front ++ [last], Decimal field) → (front.flatMap (· ++ [46])).length < 19

theorem validateIpAddress_iff (text : List UInt8) :
    validateIpAddress text = true ↔
      ∃ front last rest, front.length = 3 ∧ Laid 46 front last rest (text.take 19) ∧
        ∀ piece ∈ front ++ [last], Decimal piece.2 ∨ SignedZero piece.2 := by
  rw [validateIpAddress, tokenBuffer_eq, scan_isSome_iff]
  simp only [checkOctet_isSome_iff]

variable {text : List UInt8}

theorem laid_of_quad {fields : List (List UInt8)} {field : List UInt8}
    {front : List (Nat × List UInt8)} {last : Nat × List UInt8} {rest : List UInt8}
    (long : front.length = fields.length) (quad : text = [46].intercalate (fields ++ [field]))
    (numbers : ∀ f ∈ fields ++ [field], Decimal f)
    (laid : Laid 46 front last rest (text.take 19)) :
    front = fields.map (Prod.mk 0) ∧ last.1 = 0 ∧ last.2 <+: field ∧
      last.2 ++ (rest ++ text.drop 19) = field := by
  obtain ⟨whole, rest', same, begins, laid'⟩ := laid.append (text.drop 19)
  rw [take_append_drop, quad] at laid'
  obtain ⟨front_eq, last_eq, rest_eq⟩ := laid'.unique
    (laid_intercalate fun f mem => (numbers f mem).solid) (by rw [long, length_map])
  obtain ⟨run, rfl⟩ := Prod.mk.inj last_eq
  refine ⟨front_eq, run, begins, ?_⟩
  rw [same, rest_eq, append_nil]

theorem DottedQuad.plain (quad : DottedQuad text)
    (accepted : validateIpAddress text = true) : PlainAddress text := by
  obtain ⟨fields, field, three, text_eq, numbers⟩ := quad
  constructor
  case tidy =>
    intro front last rest long laid _
    obtain ⟨rfl, run, begins, whole⟩ := laid_of_quad (long.trans three.symm) text_eq numbers laid
    have solid := laid.fields last (by simp)
    have number : Decimal field := numbers field (by simp)
    refine ⟨?_, whole ▸ number⟩
    intro piece mem
    have decimal : piece.1 = 0 ∧ Decimal piece.2 := by
      obtain mem | mem := mem_append.mp mem
      · obtain ⟨f, inside, rfl⟩ := mem_map.mp mem
        exact ⟨rfl, numbers f (by simp [inside])⟩
      · obtain rfl := mem_singleton.mp mem
        exact ⟨run, number.front begins solid.1⟩
    refine ⟨decimal.1, ?_⟩
    rintro ⟨zeros, signed, -⟩
    exact decimal.2.unsigned (by rw [signed, head?_cons])
  case short =>
    intro front' last' three' text_eq' numbers'
    obtain ⟨front, last, rest, long, laid, -⟩ := (validateIpAddress_iff text).mp accepted
    obtain ⟨rfl, -, -, -⟩ := laid_of_quad (long.trans three'.symm) text_eq' numbers' laid
    have solid := laid.fields last (by simp)
    have fits : (text.take 19).length ≤ 19 := length_take_le ..
    rw [laid.spreads, spread] at fits
    have nonempty := length_pos_iff.mpr solid.1
    simp only [flatMap_map, replicate_zero, nil_append, length_append] at fits
    omega

theorem PlainAddress.quad (plain : PlainAddress text)
    (accepted : validateIpAddress text = true) : DottedQuad text := by
  obtain ⟨front, last, rest, long, laid, numbers⟩ := (validateIpAddress_iff text).mp accepted
  obtain ⟨tidy, whole⟩ := plain.tidy front last rest long laid numbers
  have text_eq : text =
      [46].intercalate (front.map Prod.snd ++ [last.2 ++ (rest ++ text.drop 19)]) := by
    have copy := laid.intercalate fun piece mem => (tidy piece mem).1
    rw [intercalate_concat] at copy ⊢
    calc text = text.take 19 ++ text.drop 19 := (take_append_drop 19 text).symm
      _ = _ := by simp only [copy, append_assoc]
  refine ⟨front.map Prod.snd, last.2 ++ (rest ++ text.drop 19), by simp [long], text_eq, ?_⟩
  intro field mem
  obtain mem | mem := mem_append.mp mem
  · obtain ⟨piece, inside, rfl⟩ := mem_map.mp mem
    have inside := mem_append_left [last] inside
    exact (numbers piece inside).resolve_right (tidy piece inside).2
  · obtain rfl := mem_singleton.mp mem
    exact whole

theorem PlainAddress.accepted (plain : PlainAddress text)
    (quad : DottedQuad text) : validateIpAddress text = true := by
  obtain ⟨front, last, three, text_eq, numbers⟩ := quad
  have short := plain.short front last three text_eq numbers
  -- the copy keeps the front of the last number
  let kept := last.take (19 - (front.flatMap (· ++ [46])).length)
  have copy : text.take 19 = [46].intercalate (front ++ [kept]) := by
    rw [text_eq, intercalate_concat, intercalate_concat, take_append,
      take_of_length_le (Nat.le_of_lt short)]
  have kept_ne_nil : kept ≠ [] := by
    have nonempty := length_pos_iff.mpr (numbers last (by simp)).ne_nil
    rw [← length_pos_iff, length_take]
    omega
  have copied : ∀ field ∈ front ++ [kept], Decimal field := by
    intro field mem
    obtain mem | mem := mem_append.mp mem
    · exact numbers field (by simp [mem])
    · obtain rfl := mem_singleton.mp mem
      exact (numbers last (by simp)).front (List.take_prefix _ _) kept_ne_nil
  rw [validateIpAddress_iff, copy]
  exact ⟨_, _, [], by simp [three], laid_intercalate fun field mem => (copied field mem).solid,
    forall_mem_pieces.mpr fun field mem => .inl (copied field mem)⟩

/-- **When the check is exact.** -/
theorem validateIpAddress_exact_iff (text : List UInt8) :
    (validateIpAddress text = true ↔ DottedQuad text) ↔ PlainAddress text := by
  constructor
  · intro exact
    by_cases accepted : validateIpAddress text = true
    · exact (exact.mp accepted).plain accepted
    · refine ⟨?_, ?_⟩
      · intro front last rest long laid numbers
        exact absurd ((validateIpAddress_iff text).mpr ⟨front, last, rest, long, laid, numbers⟩)
          accepted
      · intro front last three text_eq numbers
        exact absurd (exact.mpr ⟨front, last, three, text_eq, numbers⟩) accepted
  · intro plain
    exact ⟨plain.quad, plain.accepted⟩

instance (text : List UInt8) : Decidable (DottedQuad text) :=
  decidable_of_iff _ (exists_intercalate_iff fun _ number => number.solid.2).symm

/-- **A fifth field is not seen, and a quad may be too long for the copy.** -/
theorem validateIpAddress_fifth_field :
    (validateIpAddress (ascii "1.2.3.4.5") = true ∧ ¬ DottedQuad (ascii "1.2.3.4.5")) ∧
      (validateIpAddress (ascii "0000000000000001.2.3.4") = false ∧
        DottedQuad (ascii "0000000000000001.2.3.4")) := by
  decide +kernel

/-! ## MAC addresses -/

def HexPair (field : List UInt8) : Prop :=
  (field.length = 1 ∨ field.length = 2) ∧ ∀ c ∈ field, isxdigit c = true

instance (field : List UInt8) : Decidable (HexPair field) := inferInstanceAs (Decidable (_ ∧ _))

def ColonMac (text : List UInt8) : Prop :=
  ∃ front last, front.length = 5 ∧ text = [58].intercalate (front ++ [last]) ∧
    ∀ field ∈ front ++ [last], HexPair field

/-- The texts that the check and the grammar agree on: if the first 19 characters can be read as six
pairs between colons, then there is no colon in front of them, no second colon between them, and
nothing behind them. -/
def PlainMac (text : List UInt8) : Prop :=
  ∀ front last rest, front.length = 5 → Laid 58 front last rest (text.take 19) →
    (∀ piece ∈ front ++ [last], HexPair piece.2) →
    (∀ piece ∈ front ++ [last], piece.1 = 0) ∧ rest ++ text.drop 19 = []

theorem checkPair_isSome_iff {field : List UInt8} :
    (checkPair () field).isSome ↔ HexPair field := by
  have length : field ≠ [] ∧ field.length ≤ 2 ↔ field.length = 1 ∨ field.length = 2 := by
    rw [← length_pos_iff]
    omega
  have valid : validateHexNumber field = true ↔ field ≠ [] ∧ ∀ c ∈ field, isxdigit c = true := by
    simp [validateHexNumber]
  rw [HexPair, ← length, checkPair]
  split
  next bad =>
    rw [← Bool.not_eq_true, valid] at bad
    simp only [Option.isSome_none, Bool.false_eq_true, false_iff]
    rintro ⟨⟨ne_nil, short⟩, digits⟩
    obtain bad | long := bad
    · exact bad ⟨ne_nil, digits⟩
    · omega
  next good =>
    rw [not_or, Bool.not_eq_false, valid] at good
    obtain ⟨⟨ne_nil, digits⟩, short⟩ := good
    simp only [Option.isSome_some, true_iff]
    exact ⟨⟨ne_nil, by omega⟩, digits⟩

theorem HexPair.solid {field : List UInt8} (pair : HexPair field) : field ≠ [] ∧ 58 ∉ field := by
  refine ⟨?_, fun mem => absurd (pair.2 58 mem) (by decide)⟩
  rintro rfl
  simpa using pair.1

theorem validateMacAddress_iff (text : List UInt8) :
    validateMacAddress text = true ↔
      ∃ front last rest, front.length = 5 ∧ Laid 58 front last rest (text.take 19) ∧
        ∀ piece ∈ front ++ [last], HexPair piece.2 := by
  rw [validateMacAddress, tokenBuffer_eq, scan_isSome_iff]
  simp only [checkPair_isSome_iff]

theorem ColonMac.length_le (mac : ColonMac text) : text.length ≤ 17 := by
  obtain ⟨front, last, five, rfl, pairs⟩ := mac
  have two (field : List UInt8) (mem : field ∈ front ++ [last]) : field.length ≤ 2 := by
    obtain one | two := (pairs field mem).1 <;> omega
  have fronts : (front.flatMap (· ++ [58])).length ≤ front.length * 3 := by
    rw [length_flatMap]
    refine (sum_le_card_nsmul _ 3 ?_).trans (by simp)
    intro n mem
    obtain ⟨field, inside, rfl⟩ := mem_map.mp mem
    have := two field (by simp [inside])
    simp
    omega
  have lasts := two last (by simp)
  rw [intercalate_concat, length_append]
  omega

/-- **When the check is exact.** -/
theorem validateMacAddress_exact_iff (text : List UInt8) :
    (validateMacAddress text = true ↔ ColonMac text) ↔ PlainMac text := by
  have laid_of_mac (front : List (List UInt8)) (last : List UInt8)
      (pairs : ∀ field ∈ front ++ [last], HexPair field) :=
    laid_intercalate fun field mem => (pairs field mem).solid
  have whole (mac : ColonMac text) : text.take 19 = text :=
    take_of_length_le (Nat.le_trans mac.length_le (by decide))
  constructor
  · intro exact front last rest long laid pairs
    have mac := exact.mp ((validateMacAddress_iff text).mpr ⟨front, last, rest, long, laid, pairs⟩)
    have copy := whole mac
    obtain ⟨front', last', five, text_eq, pairs'⟩ := mac
    rw [copy] at laid
    have exactly := laid_of_mac front' last' pairs'
    rw [← text_eq] at exactly
    obtain ⟨rfl, rfl, rfl⟩ := laid.unique exactly (by simp [long, five])
    refine ⟨forall_mem_pieces.mpr fun _ _ => rfl, ?_⟩
    rw [← copy, drop_take_self, append_nil]
  · intro plain
    constructor
    · intro accepted
      obtain ⟨front, last, rest, long, laid, pairs⟩ := (validateMacAddress_iff text).mp accepted
      obtain ⟨single, nothing⟩ := plain front last rest long laid pairs
      have text_eq : text = [58].intercalate (front.map Prod.snd ++ [last.2]) := by
        have copy := laid.intercalate single
        calc text = text.take 19 ++ text.drop 19 := (take_append_drop 19 text).symm
          _ = _ := by rw [copy, append_assoc, nothing, append_nil]
      refine ⟨front.map Prod.snd, last.2, by simp [long], text_eq, ?_⟩
      rw [← map_singleton, ← map_append]
      exact forall_mem_map.mpr pairs
    · intro mac
      have copy := whole mac
      obtain ⟨front, last, five, text_eq, pairs⟩ := mac
      rw [validateMacAddress_iff, copy, text_eq]
      exact ⟨_, _, [], by simp [five], laid_of_mac front last pairs, forall_mem_pieces.mpr pairs⟩

instance (text : List UInt8) : Decidable (ColonMac text) :=
  decidable_of_iff _ (exists_intercalate_iff fun _ pair => pair.solid.2).symm

/-- **Empty fields and a seventh field are not seen.** -/
theorem validateMacAddress_empty_field :
    (validateMacAddress (ascii "00::11:22:33:44:55") = true ∧
        ¬ ColonMac (ascii "00::11:22:33:44:55")) ∧
      (validateMacAddress (ascii "00:11:22:33:44:55:zz") = true ∧
        ¬ ColonMac (ascii "00:11:22:33:44:55:zz")) := by
  decide +kernel

end EchoLife.Db
