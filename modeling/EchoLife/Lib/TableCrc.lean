import Mathlib.Tactic

/-!
# Table-driven checksums

`msbStep` shifts the register left and indexes a table by its top byte, `lsbStep` shifts it right
and indexes the table by its low byte. When the check bytes are those of the complemented register,
the register ends in a value that does not depend on the data (`msb_residue`, `lsb_residue`):
feeding the bytes of a word is adding it to the register and feeding zeros (`msb_run_word`,
`lsb_run_word`). With the entries of a polynomial a byte through the table is eight steps of the
division (`msbStep_eq_byteStep`).
-/

namespace TableCrc

open List Function

variable (table : UInt32 → UInt32)

/-! ## Top byte first -/

def msbStep (crc : UInt32) (b : UInt8) : UInt32 :=
  (crc <<< 8) ^^^ table ((crc >>> 24) ^^^ b.toUInt32)

def msbBytes (m : UInt32) : List UInt8 :=
  [(m >>> 24).toUInt8, (m >>> 16).toUInt8, (m >>> 8).toUInt8, m.toUInt8]

theorem topByte (m : UInt32) : (m >>> 24).toUInt8.toUInt32 = m >>> 24 := by
  apply UInt32.eq_of_toBitVec_eq
  simp only [UInt8.toBitVec_toUInt32, UInt32.toBitVec_toUInt8, UInt32.toBitVec_shiftRight]
  ext i hi
  interval_cases i <;> simp

theorem shift_xor (c m : UInt32) : (c ^^^ m) >>> 24 = (c >>> 24) ^^^ (m >>> 24) := by
  apply UInt32.eq_of_toBitVec_eq
  simp [BitVec.ushiftRight_xor_distrib]

theorem shiftLeft_xor (c m : UInt32) : (c ^^^ m) <<< 8 = (c <<< 8) ^^^ (m <<< 8) := by
  apply UInt32.eq_of_toBitVec_eq
  simp [BitVec.shiftLeft_xor_distrib]

theorem msbStep_xor (c m : UInt32) :
    msbStep table (c ^^^ m) 0 = msbStep table c (m >>> 24).toUInt8 ^^^ (m <<< 8) := by
  have zero : (0 : UInt8).toUInt32 = 0 := rfl
  simp only [msbStep, topByte, shift_xor, shiftLeft_xor, zero, UInt32.xor_zero]
  rw [UInt32.xor_assoc, UInt32.xor_assoc, UInt32.xor_comm (m <<< 8)]

theorem byte3_shiftLeft (m : UInt32) : ((m <<< 8) >>> 24).toUInt8 = (m >>> 16).toUInt8 := by
  apply UInt8.eq_of_toBitVec_eq
  ext i hi
  interval_cases i <;> simp

theorem byte2_shiftLeft (m : UInt32) : ((m <<< 8) >>> 16).toUInt8 = (m >>> 8).toUInt8 := by
  apply UInt8.eq_of_toBitVec_eq
  ext i hi
  interval_cases i <;> simp

theorem byte1_shiftLeft (m : UInt32) : ((m <<< 8) >>> 8).toUInt8 = m.toUInt8 := by
  apply UInt8.eq_of_toBitVec_eq
  ext i hi
  interval_cases i <;> simp

theorem shiftLeft_word (m : UInt32) : (((m <<< 8) <<< 8) <<< 8) <<< 8 = 0 := by
  apply UInt32.eq_of_toBitVec_eq
  simp only [UInt32.toBitVec_shiftLeft, BitVec.shiftLeft_eq', ← BitVec.shiftLeft_add]
  exact BitVec.shiftLeft_eq_zero (by decide)

theorem msb_run_word (c m : UInt32) :
    (msbBytes m).foldl (msbStep table) c = [0, 0, 0, 0].foldl (msbStep table) (c ^^^ m) := by
  simp only [msbBytes, foldl_cons, foldl_nil, msbStep_xor, byte3_shiftLeft,
    byte2_shiftLeft, byte1_shiftLeft, shiftLeft_word, UInt32.xor_zero]

/-- **Residue, top byte first.** After the bytes of the complemented register the register holds
a value that depends on the table only. -/
theorem msb_residue (c : UInt32) :
    (msbBytes (c ^^^ 0xFFFFFFFF)).foldl (msbStep table) c =
      [0, 0, 0, 0].foldl (msbStep table) 0xFFFFFFFF := by
  rw [msb_run_word, ← UInt32.xor_assoc, UInt32.xor_self, UInt32.zero_xor]

/-! ## Bit by bit -/

section Bits

variable (poly : UInt32)

def bitStep (c : UInt32) : UInt32 :=
  if c.toBitVec.msb then (c <<< 1) ^^^ poly else c <<< 1

def byteStep (c : UInt32) (b : UInt8) : UInt32 :=
  (bitStep poly)^[8] (c ^^^ (b.toUInt32 <<< 24))

theorem bitStep_xor (a b : UInt32) :
    bitStep poly (a ^^^ b) = bitStep poly a ^^^ bitStep poly b := by
  have shifted : (a ^^^ b) <<< 1 = (a <<< 1) ^^^ (b <<< 1) := by
    apply UInt32.eq_of_toBitVec_eq
    simp [BitVec.shiftLeft_xor_distrib]
  rw [bitStep, bitStep, bitStep, UInt32.toBitVec_xor, BitVec.msb_xor, shifted]
  cases a.toBitVec.msb <;> cases b.toBitVec.msb
  · rfl
  · exact UInt32.xor_assoc _ _ _
  · grind
  · show a <<< 1 ^^^ b <<< 1 = (a <<< 1 ^^^ poly) ^^^ (b <<< 1 ^^^ poly)
    rw [UInt32.xor_assoc, UInt32.xor_comm (b <<< 1) poly, ← UInt32.xor_assoc poly,
      UInt32.xor_self, UInt32.zero_xor]

theorem iterate_bitStep_xor (n : Nat) (a b : UInt32) :
    (bitStep poly)^[n] (a ^^^ b) = (bitStep poly)^[n] a ^^^ (bitStep poly)^[n] b := by
  induction n generalizing a b with
  | zero => rfl
  | succ n ih => rw [iterate_succ_apply, iterate_succ_apply,
      iterate_succ_apply, bitStep_xor, ih]

theorem iterate_bitStep_low {x : UInt32} (low : ∀ i, 24 ≤ i → x.toBitVec.getLsbD i = false)
    (k : Nat) (byte : k ≤ 8) : ((bitStep poly)^[k] x).toBitVec = x.toBitVec <<< k := by
  induction k with
  | zero => simp
  | succ k ih =>
    have shifted := ih (by omega)
    have top : ((bitStep poly)^[k] x).toBitVec.msb = false := by
      rw [shifted, BitVec.msb_eq_getLsbD_last, BitVec.getLsbD_shiftLeft, low _ (by omega),
        Bool.and_false]
    rw [iterate_succ_apply', bitStep, top, if_neg Bool.false_ne_true,
      UInt32.toBitVec_shiftLeft, shifted, BitVec.shiftLeft_add]
    rfl

/-- **The table replaces the division.** When every entry is the division of its index, a byte
through the table is a byte of the division. -/
theorem msbStep_eq_byteStep {table : UInt32 → UInt32}
    (entries : ∀ i : UInt8, table i.toUInt32 = (bitStep poly)^[8] (i.toUInt32 <<< 24))
    (c : UInt32) (b : UInt8) : msbStep table c b = byteStep poly c b := by
  have index : ((c >>> 24).toUInt8 ^^^ b).toUInt32 = (c >>> 24) ^^^ b.toUInt32 := by
    rw [UInt8.toUInt32_xor, topByte]
  -- The register is its top byte, which selects the entry, and the rest, which is shifted.
  have split : c ^^^ (b.toUInt32 <<< 24) =
      (((c >>> 24).toUInt8 ^^^ b).toUInt32 <<< 24) ^^^ ((c <<< 8) >>> 8) := by
    rw [index]
    apply UInt32.eq_of_toBitVec_eq
    ext i hi
    interval_cases i <;> simp
  have rest : (bitStep poly)^[8] ((c <<< 8) >>> 8) = c <<< 8 := by
    apply UInt32.eq_of_toBitVec_eq
    rw [iterate_bitStep_low poly _ 8 (le_refl 8)]
    · ext i hi
      interval_cases i <;> simp
    · intro i high
      simp
      omega
  rw [byteStep, split, iterate_bitStep_xor, rest, ← entries, index, msbStep, UInt32.xor_comm]

end Bits

/-! ## Low byte first -/

def lsbStep (crc : UInt32) (b : UInt8) : UInt32 :=
  (crc >>> 8) ^^^ table ((crc ^^^ b.toUInt32) &&& 0xFF)

def lsbBytes (m : UInt32) : List UInt8 :=
  [(m &&& 0xFF).toUInt8, (m >>> 8).toUInt8]

theorem lowByte (c m : UInt32) :
    (c ^^^ (m &&& 0xFF).toUInt8.toUInt32) &&& 0xFF = (c ^^^ m) &&& 0xFF := by
  apply UInt32.eq_of_toBitVec_eq
  simp only [UInt32.toBitVec_and, UInt32.toBitVec_xor, UInt8.toBitVec_toUInt32,
    UInt32.toBitVec_toUInt8]
  ext i hi
  interval_cases i <;> simp

theorem shiftRight_xor (c m : UInt32) : (c ^^^ m) >>> 8 = (c >>> 8) ^^^ (m >>> 8) := by
  apply UInt32.eq_of_toBitVec_eq
  simp [BitVec.ushiftRight_xor_distrib]

theorem lsbStep_xor (c m : UInt32) :
    lsbStep table (c ^^^ m) 0 = lsbStep table c (m &&& 0xFF).toUInt8 ^^^ (m >>> 8) := by
  have zero : (0 : UInt8).toUInt32 = 0 := rfl
  simp only [lsbStep, lowByte, shiftRight_xor, zero, UInt32.xor_zero]
  rw [UInt32.xor_assoc, UInt32.xor_assoc, UInt32.xor_comm (m >>> 8)]

theorem lsb_run_word (c m : UInt32) (short : (m >>> 8) >>> 8 = 0) :
    (lsbBytes m).foldl (lsbStep table) c = [0, 0].foldl (lsbStep table) (c ^^^ m) := by
  have second : ((m >>> 8) &&& 0xFF).toUInt8 = (m >>> 8).toUInt8 := by
    apply UInt8.eq_of_toBitVec_eq
    ext i hi
    interval_cases i <;> simp
  simp only [lsbBytes, foldl_cons, foldl_nil, lsbStep_xor, second, short,
    UInt32.xor_zero]

def Short (c : UInt32) : Prop := (c >>> 8) >>> 8 = 0

/-- **Residue, low byte first.** After the bytes of the complemented 16-bit register the register
holds a value that depends on the table only. -/
theorem lsb_residue (c : UInt32) (short : Short c) :
    (lsbBytes (c ^^^ 0xFFFF)).foldl (lsbStep table) c =
      [0, 0].foldl (lsbStep table) 0xFFFF := by
  have short' : ((c ^^^ 0xFFFF) >>> 8) >>> 8 = 0 := by
    rw [shiftRight_xor, shiftRight_xor, short]
    rfl
  rw [lsb_run_word table c _ short', ← UInt32.xor_assoc, UInt32.xor_self, UInt32.zero_xor]

theorem Short.lsbStep {table : UInt32 → UInt32} (entries : ∀ i, Short (table i)) {c : UInt32}
    (short : Short c) (b : UInt8) : Short (TableCrc.lsbStep table c b) := by
  unfold Short TableCrc.lsbStep
  rw [shiftRight_xor, shiftRight_xor, entries, short]
  rfl

theorem Short.foldl {table : UInt32 → UInt32} (entries : ∀ i, Short (table i)) {c : UInt32}
    (short : Short c) (bytes : List UInt8) : Short (bytes.foldl (TableCrc.lsbStep table) c) := by
  induction bytes generalizing c with
  | nil => exact short
  | cons b rest ih => exact ih (short.lsbStep entries b)

end TableCrc
