import EchoLife.Lib.BitCrc
import Mathlib.Algebra.Polynomial.Div

/-!
# Checksum of OAM cells

A cell that is not transparent and has a header index is sent as an OAM cell, whose last ten bits
are a checksum that the transmit queue computes in software. The table-driven computation is the
remainder of the message as a polynomial over the field of two elements, and a cell with the
checksum in place has remainder zero (`updateCrc10ByBytes_remainder`).
-/

namespace EchoLife.Atm

open List Polynomial TableCrc

def crc10TableNotInitialized : UInt16 := 0x1234

def crc10Shift (accum : UInt16) : UInt16 :=
  if (accum <<< 1) &&& 0x400 ≠ 0 then (accum <<< 1) ^^^ 0x633 else accum <<< 1

def genByteCrc10Table (table : UInt8 → UInt16) : UInt8 → UInt16 :=
  if table 0 = crc10TableNotInitialized then fun i => crc10Shift^[8] (i.toUInt16 <<< 2) else table

def byteCrc10Table : UInt8 → UInt16 :=
  genByteCrc10Table fun i => if i = 0 then crc10TableNotInitialized else 0

def updateCrc10ByByte (accum : UInt16) (b : UInt8) : UInt16 :=
  ((accum <<< 8) &&& (0x3ff : UInt16)) ^^^ byteCrc10Table ((accum >>> 2) &&& 0xff).toUInt8 ^^^
    b.toUInt16

def updateCrc10ByBytes (accum : UInt16) (buf : List UInt8) : UInt16 :=
  buf.foldl updateCrc10ByByte accum

def oamWord (data : List UInt8) : UInt16 :=
  ((data.getD 46 0).toUInt16 <<< 8) ||| (data.getD 47 0).toUInt16

def setOamWord (data : List UInt8) (us : UInt16) : List UInt8 :=
  (data.set 46 (us >>> 8).toUInt8).set 47 us.toUInt8

def addOamCrc10 (data : List UInt8) : List UInt8 :=
  let cleared := setOamWord data (oamWord data &&& ~~~0x03ff)
  setOamWord cleared (oamWord cleared ||| updateCrc10ByBytes 0 (cleared.take 48))

theorem genByteCrc10Table_again : genByteCrc10Table byteCrc10Table = byteCrc10Table :=
  if_neg (by decide)

/-! ## The remainder, bit by bit -/

def shiftIn (accum : UInt16) (bit : Bool) : UInt16 :=
  (accum <<< 1) ^^^ bit.toUInt16

def remainderBit (accum : UInt16) (bit : Bool) : UInt16 :=
  if (shiftIn accum bit).toBitVec.getLsbD 10 then shiftIn accum bit ^^^ 0x633
  else shiftIn accum bit

def msbBits (bytes : List UInt8) : List Bool :=
  bytes.flatMap fun b => (byteBits b).reverse

theorem remainderBit_xor (a b : UInt16) (x y : Bool) :
    remainderBit (a ^^^ b) (x ^^ y) = remainderBit a x ^^^ remainderBit b y := by
  have shifted : shiftIn (a ^^^ b) (x ^^ y) = shiftIn a x ^^^ shiftIn b y := by
    have distrib : (a ^^^ b) <<< 1 = (a <<< 1) ^^^ (b <<< 1) := by
      apply UInt16.eq_of_toBitVec_eq
      simp [BitVec.shiftLeft_xor_distrib]
    have bits : (x ^^ y).toUInt16 = x.toUInt16 ^^^ y.toUInt16 := by cases x <;> cases y <;> rfl
    rw [shiftIn, distrib, bits, shiftIn, shiftIn]
    ac_rfl
  simp only [remainderBit, shifted, UInt16.toBitVec_xor, BitVec.getLsbD_xor]
  cases (shiftIn a x).toBitVec.getLsbD 10 <;> cases (shiftIn b y).toBitVec.getLsbD 10 <;>
    simp <;> grind [UInt16.xor_assoc, UInt16.xor_comm, UInt16.xor_self, UInt16.zero_xor]

theorem remainderBit_lt {accum : UInt16} (small : accum < 1024) (bit : Bool) :
    remainderBit accum bit < 1024 := by
  have all : ∀ n : Fin 1024, ∀ bit, remainderBit (UInt16.ofNat n) bit < 1024 := by decide +kernel
  simpa using all ⟨accum.toNat, small⟩ bit

theorem updateCrc10ByByte_eq {accum : UInt16} (small : accum < 1024) (b : UInt8) :
    updateCrc10ByByte accum b = (byteBits b).reverse.foldl remainderBit accum := by
  have zeros : ∀ n : Fin 1024, updateCrc10ByByte (UInt16.ofNat n) 0 =
      (replicate 8 false).foldl remainderBit (UInt16.ofNat n) := by decide +kernel
  have bytes : ∀ n : Fin 256, (byteBits (UInt8.ofFin n)).reverse.foldl remainderBit 0 =
      (UInt8.ofFin n).toUInt16 := by decide +kernel
  have split := foldl_xor remainderBit_xor accum 0
    (show (replicate 8 false).length = (byteBits b).reverse.length by simp [byteBits])
  have pad : (replicate 8 false).zipWith (· ^^ ·) (byteBits b).reverse =
      (byteBits b).reverse := by simp [byteBits, range_succ]
  have zero := zeros ⟨accum.toNat, small⟩
  rw [UInt16.ofNat_toNat] at zero
  rw [pad, UInt16.xor_zero, ← zero, show (byteBits b).reverse.foldl remainderBit 0 = b.toUInt16 from
    bytes b.toFin] at split
  rw [split]
  simp [updateCrc10ByByte]

theorem updateCrc10ByBytes_eq (buf : List UInt8) {accum : UInt16} (small : accum < 1024) :
    updateCrc10ByBytes accum buf = (msbBits buf).foldl remainderBit accum ∧
      updateCrc10ByBytes accum buf < 1024 := by
  have inside : ∀ (bits : List Bool) (accum : UInt16), accum < 1024 →
      bits.foldl remainderBit accum < 1024 := by
    intro bits
    induction bits with
    | nil => exact fun _ small => small
    | cons bit rest ih => exact fun accum small => ih _ (remainderBit_lt small bit)
  have same : updateCrc10ByBytes accum buf = (msbBits buf).foldl remainderBit accum := by
    induction buf generalizing accum with
    | nil => rfl
    | cons b rest ih =>
      rw [updateCrc10ByBytes, foldl_cons, updateCrc10ByByte_eq small]
      rw [show msbBits (b :: rest) = (byteBits b).reverse ++ msbBits rest from rfl,
        foldl_append]
      exact ih (inside _ _ small)
  exact ⟨same, same ▸ inside _ _ small⟩

/-! ## The remainder as a polynomial -/

noncomputable def wordPoly (u : UInt16) : (ZMod 2)[X] :=
  ∑ i ∈ Finset.range 16, if u.toBitVec.getLsbD i then X ^ i else 0

noncomputable def messagePoly (bits : List Bool) : (ZMod 2)[X] :=
  bits.foldl (fun p bit => p * X + if bit then 1 else 0) 0

noncomputable def crc10Poly : (ZMod 2)[X] := X ^ 10 + X ^ 9 + X ^ 5 + X ^ 4 + X + 1

theorem coeff_wordPoly (u : UInt16) (n : Nat) :
    (wordPoly u).coeff n = if u.toBitVec.getLsbD n then 1 else 0 := by
  rw [wordPoly, finsetSum_coeff]
  by_cases inside : n < 16
  · rw [Finset.sum_eq_single_of_mem n (Finset.mem_range.mpr inside)]
    · split <;> simp
    · intro i _ other
      split <;> simp [coeff_X_pow, other.symm]
  · rw [BitVec.getLsbD_of_ge _ _ (by omega)]
    apply Finset.sum_eq_zero
    intro i mem
    have other : n ≠ i := by
      have := Finset.mem_range.mp mem
      omega
    split <;> simp [coeff_X_pow, other]

theorem wordPoly_xor (u v : UInt16) : wordPoly (u ^^^ v) = wordPoly u + wordPoly v := by
  ext n
  rw [coeff_add, coeff_wordPoly, coeff_wordPoly, coeff_wordPoly, UInt16.toBitVec_xor,
    BitVec.getLsbD_xor]
  cases u.toBitVec.getLsbD n <;> cases v.toBitVec.getLsbD n <;> decide

theorem wordPoly_crc10 : wordPoly 0x633 = crc10Poly := by
  simp only [wordPoly, Finset.sum_range_succ, Finset.sum_range_zero, crc10Poly]
  simp
  ring

theorem getLsbD_of_small {u : UInt16} (small : u < 1024) {n : Nat} (beyond : 10 ≤ n) :
    u.toBitVec.getLsbD n = false := by
  have bound : u.toNat < 2 ^ n := lt_of_lt_of_le small (Nat.pow_le_pow_right Nat.two_pos beyond)
  exact Nat.testBit_lt_two_pow bound

theorem getElem_of_small {u : UInt16} (small : u < 1024) {n : Nat} (inside : n < 16)
    (beyond : 10 ≤ n) : u.toBitVec[n] = false :=
  getLsbD_of_small small beyond

theorem wordPoly_shiftIn {u : UInt16} (small : u < 1024) (bit : Bool) :
    wordPoly (shiftIn u bit) = wordPoly u * X + if bit then 1 else 0 := by
  ext n
  rw [coeff_add, coeff_wordPoly]
  cases n with
  | zero => cases bit <;> simp [shiftIn]
  | succ n =>
    have high := @getLsbD_of_small u small n
    rw [coeff_mul_X, coeff_wordPoly]
    cases bit <;> simp [shiftIn, coeff_one] <;> grind

theorem degree_wordPoly {u : UInt16} (small : u < 1024) : (wordPoly u).degree < 10 := by
  apply (degree_lt_iff_coeff_zero _ 10).mpr
  intro n beyond
  rw [coeff_wordPoly, getLsbD_of_small small beyond]
  rfl

theorem messagePoly_congr (bits : List Bool) :
    bits.foldl remainderBit 0 < 1024 ∧
      ∃ quotient,
        wordPoly (bits.foldl remainderBit 0) + crc10Poly * quotient = messagePoly bits := by
  induction bits using List.reverseRecOn with
  | nil => exact ⟨by decide, 0, by simp [messagePoly, wordPoly]⟩
  | append_singleton bits bit ih =>
    obtain ⟨small, quotient, read⟩ := ih
    rw [foldl_concat]
    refine ⟨remainderBit_lt small bit, ?_⟩
    have next : messagePoly (bits ++ [bit]) = wordPoly (shiftIn (bits.foldl remainderBit 0) bit) +
        crc10Poly * (quotient * X) := by
      rw [wordPoly_shiftIn small, messagePoly, foldl_concat]
      change messagePoly bits * X + _ = _
      rw [← read]
      ring
    rw [remainderBit]
    split
    · -- The polynomial is added once, so the quotient grows by one.
      refine ⟨quotient * X + 1, ?_⟩
      have twice : crc10Poly + crc10Poly = 0 := CharTwo.add_self_eq_zero _
      rw [next, wordPoly_xor, wordPoly_crc10, mul_add, mul_one]
      linear_combination twice
    · exact ⟨quotient * X, next.symm⟩

theorem messagePoly_mod (bits : List Bool) :
    messagePoly bits %ₘ crc10Poly = wordPoly (bits.foldl remainderBit 0) := by
  obtain ⟨small, quotient, read⟩ := messagePoly_congr bits
  have monic : crc10Poly.Monic := by
    unfold crc10Poly
    monicity!
  have degree : crc10Poly.degree = 10 := by
    unfold crc10Poly
    compute_degree!
  have less : (wordPoly (bits.foldl remainderBit 0)).degree < crc10Poly.degree := by
    rw [degree]
    exact degree_wordPoly small
  exact (div_modByMonic_unique quotient _ monic ⟨read, less⟩).2

/-! ## The cell that is sent -/

theorem updateCrc10ByBytes_patch (accum : UInt16) (high : UInt8) {crc : UInt16}
    (check : crc < 1024) :
    updateCrc10ByBytes accum [high ^^^ (crc >>> 8).toUInt8, crc.toUInt8] =
      updateCrc10ByBytes accum [high, 0] ^^^ crc := by
  have bits := @getElem_of_small crc check
  have low (u : UInt16) : (((u ^^^ (crc >>> 8)) <<< 8) &&& (0x3ff : UInt16)) ^^^
      crc.toUInt8.toUInt16 = ((u <<< 8) &&& (0x3ff : UInt16)) ^^^ crc := by
    apply UInt16.eq_of_toBitVec_eq
    simp only [UInt16.toBitVec_xor, UInt16.toBitVec_and, UInt16.toBitVec_shiftLeft,
      UInt16.toBitVec_shiftRight, UInt8.toBitVec_toUInt16, UInt16.toBitVec_toUInt8]
    ext i hi
    interval_cases i <;> simp [bits]
  have index (u : UInt16) : (u ^^^ (crc >>> 8)) >>> 2 = u >>> 2 := by
    apply UInt16.eq_of_toBitVec_eq
    ext i hi
    interval_cases i <;> simp [bits]
  have byte : (crc >>> 8).toUInt8.toUInt16 = crc >>> 8 := by
    apply UInt16.eq_of_toBitVec_eq
    simp only [UInt8.toBitVec_toUInt16, UInt16.toBitVec_toUInt8, UInt16.toBitVec_shiftRight]
    ext i hi
    interval_cases i <;> simp
  have first : updateCrc10ByByte accum (high ^^^ (crc >>> 8).toUInt8) =
      updateCrc10ByByte accum high ^^^ (crc >>> 8) := by
    rw [updateCrc10ByByte, updateCrc10ByByte, UInt8.toUInt16_xor, byte]
    ac_rfl
  have second (u : UInt16) : updateCrc10ByByte (u ^^^ (crc >>> 8)) crc.toUInt8 =
      updateCrc10ByByte u 0 ^^^ crc := by
    have zero : (0 : UInt8).toUInt16 = 0 := rfl
    rw [updateCrc10ByByte, updateCrc10ByByte, index, zero, UInt16.xor_zero, UInt16.xor_assoc,
      UInt16.xor_comm (byteCrc10Table _), ← UInt16.xor_assoc, low]
    ac_rfl
  simp only [updateCrc10ByBytes, foldl_cons, foldl_nil, first, second]

theorem oamWord_bytes (front : List UInt8) (length : front.length = 46) (h l : UInt8) :
    oamWord (front ++ [h, l]) = (h.toUInt16 <<< 8) ||| l.toUInt16 := by
  simp [oamWord, length]

theorem setOamWord_bytes (front : List UInt8) (length : front.length = 46) (h l : UInt8)
    (us : UInt16) :
    setOamWord (front ++ [h, l]) us = front ++ [(us >>> 8).toUInt8, us.toUInt8] := by
  simp [setOamWord, length, set_append_right]

theorem recombine (us : UInt16) :
    ((us >>> 8).toUInt8.toUInt16 <<< 8) ||| us.toUInt8.toUInt16 = us := by
  apply UInt16.eq_of_toBitVec_eq
  simp only [UInt16.toBitVec_or, UInt16.toBitVec_shiftLeft, UInt16.toBitVec_shiftRight,
    UInt8.toBitVec_toUInt16, UInt16.toBitVec_toUInt8]
  ext i hi
  interval_cases i <;> simp

theorem addOamCrc10_eq (front : List UInt8) (length : front.length = 46) (h l : UInt8) :
    ∃ high : UInt8, ∃ crc < 1024, crc = updateCrc10ByBytes 0 (front ++ [high, 0]) ∧
      addOamCrc10 (front ++ [h, l]) = front ++ [high ^^^ (crc >>> 8).toUInt8, crc.toUInt8] := by
  set cleared : UInt16 := ((h.toUInt16 <<< 8) ||| l.toUInt16) &&& ~~~0x03ff with word
  have empty : cleared.toUInt8 = 0 := by
    apply UInt8.eq_of_toBitVec_eq
    rw [word]
    ext i hi
    interval_cases i <;> simp
  refine ⟨(cleared >>> 8).toUInt8, _, (updateCrc10ByBytes_eq _ (by decide)).2, rfl, ?_⟩
  have whole : (front ++ [(cleared >>> 8).toUInt8, 0]).take 48 =
      front ++ [(cleared >>> 8).toUInt8, 0] := take_of_length_le (by simp [length])
  have small := (@updateCrc10ByBytes_eq (front ++ [(cleared >>> 8).toUInt8, 0]) 0 (by decide)).2
  simp only [addOamCrc10, oamWord_bytes _ length, setOamWord_bytes _ length, ← word, empty, whole]
  set crc := updateCrc10ByBytes 0 (front ++ [(cleared >>> 8).toUInt8, 0])
  have bits := @getElem_of_small crc small
  have back : ((cleared >>> 8).toUInt8.toUInt16 <<< 8) ||| (0 : UInt8).toUInt16 = cleared := by
    rw [← empty, recombine]
  have above : ((cleared ||| crc) >>> 8).toUInt8 =
      (cleared >>> 8).toUInt8 ^^^ (crc >>> 8).toUInt8 := by
    apply UInt8.eq_of_toBitVec_eq
    rw [word]
    ext i hi
    interval_cases i <;> simp [bits]
  rw [back, above, UInt16.toUInt8_or, empty, UInt8.zero_or]

/-- **Check of OAM cells.** The table-driven check of any message is its remainder, bit by bit and
as a polynomial, and a cell with its check in place leaves remainder zero. -/
theorem updateCrc10ByBytes_remainder :
    (∀ data : List UInt8, data.length = 48 → updateCrc10ByBytes 0 (addOamCrc10 data) = 0) ∧
      ∀ buf : List UInt8, updateCrc10ByBytes 0 buf = (msbBits buf).foldl remainderBit 0 ∧
        wordPoly (updateCrc10ByBytes 0 buf) = messagePoly (msbBits buf) %ₘ crc10Poly := by
  refine ⟨fun data length => ?_, fun buf => ?_⟩
  · obtain ⟨h, l, last⟩ := length_eq_two.mp
      (show (data.drop 46).length = 2 by rw [length_drop, length])
    have front : (data.take 46).length = 46 := by rw [length_take, length]; rfl
    obtain ⟨high, crc, small, check, sent⟩ := addOamCrc10_eq (data.take 46) front h l
    rw [← last, take_append_drop] at sent
    rw [sent, updateCrc10ByBytes, foldl_append, ← updateCrc10ByBytes,
      updateCrc10ByBytes_patch _ high small]
    rw [updateCrc10ByBytes, foldl_append] at check
    rw [updateCrc10ByBytes, ← check, UInt16.xor_self]
  · have same := (@updateCrc10ByBytes_eq buf 0 (by decide)).1
    exact ⟨same, by rw [same, messagePoly_mod]⟩

end EchoLife.Atm
