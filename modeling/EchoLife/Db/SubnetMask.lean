import EchoLife.Db.Validate
import EchoLife.Xml.Attributes

/-!
# The check of subnet masks

The check goes through the four numbers of a mask and keeps a flag that says whether a zero bit was
seen. A number may have no zero bit to the left of a one bit, and behind a number with a zero bit
there may be only zeros.

`validateSubnetMask_dottedQuad` says that for a word that is written as a dotted quad this is the
case if its 32 bits are ones and then zeros.
-/

namespace EchoLife.Db

open List Option Fields TextSearch EchoLife.Xml

/-! ## The check -/

def getLeftMostZeroBitPos (num : Nat) : Int :=
  [128, 64, 32, 16, 8, 4, 2, 1].findIdx fun bit => num &&& bit = 0

def getRightMostOneBitPos (num : Nat) : Int :=
  match [1, 2, 4, 8, 16, 32, 64, 128].zipIdx.find? fun (bit, i) => (num &&& bit) >>> i = 1 with
  | some (_, i) => 8 - i - 1
  | none => -1

def checkMaskOctet (zeroBitExisted : Bool) (pToken : List UInt8) : Option Bool :=
  if validateNumber pToken = false then none
  else
    let num := atoi pToken
    if num < 0 ∨ num > 255 then none
    else if zeroBitExisted = true ∧ num ≠ 0 then none
    else
      let zeroBitPos := getLeftMostZeroBitPos num.toNat
      let oneBitPos := getRightMostOneBitPos num.toNat
      if zeroBitPos < oneBitPos then none
      else if zeroBitPos < 8 then some true
      else some zeroBitExisted

def validateSubnetMask (objValue : List UInt8) : Bool :=
  if objValue = ascii "0.0.0.0" then false
  else (scan 46 checkMaskOctet 4 false (tokenBuffer objValue)).isSome

/-! ## Words and their bits -/

def octets (m : BitVec 32) : List (BitVec 8) :=
  [m.extractLsb' 24 8, m.extractLsb' 16 8, m.extractLsb' 8 8, m.extractLsb' 0 8]

def dottedQuad (m : BitVec 32) : List UInt8 :=
  [46].intercalate ((octets m).map fun octet => printD octet.toNat)

def OnesFirst (bits : List Bool) : Prop :=
  bits.Pairwise fun left right => right = true → left = true

instance (bits : List Bool) : Decidable (OnesFirst bits) :=
  inferInstanceAs (Decidable (bits.Pairwise _))

def octetBits (octet : BitVec 8) : List Bool := List.ofFn fun i : Fin 8 => octet.getMsbD i

theorem flatMap_octetBits (m : BitVec 32) :
    (octets m).flatMap octetBits = List.ofFn fun i : Fin 32 => m.getMsbD i := by
  simp [octets, octetBits, ofFn_succ]

theorem onesFirst_word (m : BitVec 32) :
    OnesFirst (List.ofFn fun i : Fin 32 => m.getMsbD i) ↔
      ∀ i j, i < j → m.getMsbD j = true → m.getMsbD i = true := by
  rw [OnesFirst, pairwise_ofFn]
  constructor
  · intro pairwise i j less one
    have inside : j < 32 := BitVec.lt_of_getMsbD one
    exact pairwise (i := ⟨i, by omega⟩) (j := ⟨j, inside⟩) less one
  · intro words i j less
    exact words i j less

/-! ## Octets -/

theorem printD_octet : ∀ octet : BitVec 8,
    validateNumber (printD octet.toNat) = true ∧ atoi (printD octet.toNat) = octet.toNat ∧
      (printD octet.toNat).length ≤ 3 ∧ printD octet.toNat ≠ [] ∧ 46 ∉ printD octet.toNat := by
  decide +kernel

theorem bitPos_octet : ∀ octet : BitVec 8,
    (getLeftMostZeroBitPos octet.toNat < getRightMostOneBitPos octet.toNat ↔
        ¬ OnesFirst (octetBits octet)) ∧
      (getLeftMostZeroBitPos octet.toNat < 8 ↔ octet ≠ 255#8) := by
  decide +kernel

theorem mem_octetBits : ∀ octet : BitVec 8,
    (false ∈ octetBits octet ↔ octet ≠ 255#8) ∧ (true ∈ octetBits octet ↔ octet ≠ 0#8) := by
  decide +kernel

theorem onesFirst_flatMap (l : List (BitVec 8)) :
    OnesFirst (l.flatMap octetBits) ↔
      (∀ octet ∈ l, OnesFirst (octetBits octet)) ∧
        l.Pairwise fun left right => left = 255#8 ∨ right = 0#8 := by
  have pairs (left right : BitVec 8) :
      (∀ x ∈ octetBits left, ∀ y ∈ octetBits right, y = true → x = true) ↔
        left = 255#8 ∨ right = 0#8 := by
    constructor
    · intro ordered
      by_contra other
      obtain ⟨not_ones, not_zeros⟩ := not_or.mp other
      exact absurd (ordered false ((mem_octetBits left).1.mpr not_ones) true
        ((mem_octetBits right).2.mpr not_zeros) rfl) (by decide)
    · intro ends x x_mem y y_mem one
      subst one
      have ones : left = 255#8 := ends.resolve_right ((mem_octetBits right).2.mp y_mem)
      by_contra zero
      rw [Bool.not_eq_true] at zero
      exact (mem_octetBits left).1.mp (zero ▸ x_mem) ones
  rw [OnesFirst, pairwise_flatMap]
  simp only [pairs]
  rfl

theorem checkMaskOctet_printD (zeroBitExisted : Bool) (octet : BitVec 8) :
    checkMaskOctet zeroBitExisted (printD octet.toNat) =
      if (zeroBitExisted = true → octet = 0#8) ∧ OnesFirst (octetBits octet) then
        some (zeroBitExisted || decide (octet ≠ 255#8))
      else none := by
  obtain ⟨number, value, -⟩ := printD_octet octet
  obtain ⟨order, zeros⟩ := bitPos_octet octet
  have range : ¬ ((octet.toNat : Int) < 0 ∨ (octet.toNat : Int) > 255) := by
    omega
  have zero : (octet.toNat : Int) = 0 ↔ octet = 0#8 := by
    rw [Int.natCast_eq_zero, ← BitVec.toNat_inj, BitVec.toNat_zero]
  simp only [checkMaskOctet, number, value, Bool.true_eq_false, if_false, range, ne_eq, zero,
    Int.toNat_natCast, order, zeros]
  by_cases ordered : OnesFirst (octetBits octet) <;> by_cases ones : octet = 255#8 <;>
    cases zeroBitExisted <;> simp [ordered, ones]

theorem foldlM_checkMaskOctet (l : List (BitVec 8)) (zeroBitExisted : Bool) :
    ((l.map fun octet => printD octet.toNat).foldlM checkMaskOctet zeroBitExisted).isSome ↔
      (zeroBitExisted = true → ∀ octet ∈ l, octet = 0#8) ∧ OnesFirst (l.flatMap octetBits) := by
  rw [onesFirst_flatMap]
  induction l generalizing zeroBitExisted with
  | nil => simp
  | cons octet l ih =>
    rw [map_cons, foldlM_cons, checkMaskOctet_printD, pairwise_cons,
      forall_mem_cons, forall_mem_cons]
    split
    next good =>
      have step := ih (zeroBitExisted || decide (octet ≠ 255#8))
      have flag : ((zeroBitExisted || decide (octet ≠ 255#8)) = true → ∀ o ∈ l, o = 0#8) ↔
          (zeroBitExisted = true → ∀ o ∈ l, o = 0#8) ∧ ∀ o ∈ l, octet = 255#8 ∨ o = 0#8 := by
        by_cases ones : octet = 255#8 <;> cases zeroBitExisted <;> simp [ones]
      refine step.trans ⟨?_, ?_⟩
      · grind
      · grind
    next bad =>
      simp only [bind_eq_bind, bind_none, isSome_none, Bool.false_eq_true,
        false_iff]
      rintro ⟨zeros, ⟨ordered, -⟩, -⟩
      exact bad ⟨fun seen => (zeros seen).1, ordered⟩

theorem octet_solid {l : List (BitVec 8)} :
    ∀ field ∈ l.map fun octet => printD octet.toNat, field ≠ [] ∧ 46 ∉ field := by
  intro field mem
  obtain ⟨octet, -, rfl⟩ := mem_map.mp mem
  obtain ⟨-, -, -, solid⟩ := printD_octet octet
  exact solid

theorem dottedQuad_injective : Function.Injective dottedQuad := by
  intro m m' same
  have fields (m : BitVec 32) : (dottedQuad m).splitOn 46 =
      (octets m).map fun octet => printD octet.toNat :=
    splitOn_intercalate _ (fun field mem => (octet_solid field mem).2) (by simp [octets])
  have texts := fields m
  rw [same, fields m'] at texts
  have printD_injective : Function.Injective fun octet : BitVec 8 => printD octet.toNat := by
    intro a b same
    have values := congrArg atoi same
    rw [(printD_octet a).2.1, (printD_octet b).2.1, Int.natCast_inj] at values
    exact BitVec.eq_of_toNat_eq values
  have bits := congrArg (List.flatMap octetBits) (map_injective_iff.mpr printD_injective texts)
  rw [flatMap_octetBits, flatMap_octetBits, ofFn_inj] at bits
  exact BitVec.eq_of_getMsbD_eq fun i inside => (congrFun bits ⟨i, inside⟩).symm

theorem length_dottedQuad (m : BitVec 32) : (dottedQuad m).length ≤ 15 := by
  obtain ⟨-, -, first, -⟩ := printD_octet (m.extractLsb' 24 8)
  obtain ⟨-, -, second, -⟩ := printD_octet (m.extractLsb' 16 8)
  obtain ⟨-, -, third, -⟩ := printD_octet (m.extractLsb' 8 8)
  obtain ⟨-, -, fourth, -⟩ := printD_octet (m.extractLsb' 0 8)
  simp only [dottedQuad, octets, map_cons, map_nil, List.intercalate, List.intersperse,
    flatten_cons, flatten_nil, length_append, length_cons, length_nil]
  omega

/-- **The check is exact on dotted quads.** -/
theorem validateSubnetMask_dottedQuad (m : BitVec 32) :
    validateSubnetMask (dottedQuad m) = true ↔
      m ≠ 0 ∧ ∀ i j, i < j → m.getMsbD j = true → m.getMsbD i = true := by
  have zero : dottedQuad m = ascii "0.0.0.0" ↔ m = 0 := by
    have text : dottedQuad 0 = ascii "0.0.0.0" := by decide +kernel
    rw [← text, dottedQuad_injective.eq_iff]
  have copy : tokenBuffer (dottedQuad m) = dottedQuad m := by
    rw [tokenBuffer_eq, take_of_length_le (Nat.le_trans (length_dottedQuad m) (by decide))]
  have loop : scan 46 checkMaskOctet ((octets m).map fun octet => printD octet.toNat).length false
      (dottedQuad m) =
        ((octets m).map fun octet => printD octet.toNat).foldlM checkMaskOctet false :=
    scan_intercalate octet_solid
  rw [length_map] at loop
  rw [validateSubnetMask, copy, show 4 = (octets m).length from rfl, loop]
  split
  next is_zero => simp [zero.mp is_zero]
  next nonzero =>
    rw [foldlM_checkMaskOctet, flatMap_octetBits, onesFirst_word]
    have nonzero : m ≠ 0 := zero.not.mp nonzero
    simp only [Bool.false_eq_true, false_implies, true_and, nonzero, ne_eq, not_false_eq_true]

end EchoLife.Db
