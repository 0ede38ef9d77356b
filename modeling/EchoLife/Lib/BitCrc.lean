import EchoLife.Lib.TableCrc

/-!
# Bitwise checksums and bursts

The reflected form of a cyclic redundancy check, bit by bit (`pushBit`). The register is linear
(`pushBit_xor`, `foldl_xor`), and a table of the remainders of single bytes replaces eight bits
(`lsbStep_eq_pushBits`). Two strings of bits that agree outside a window as wide as the register
leave different registers unless they are equal (`foldl_pushBit_injOn`).
-/

namespace TableCrc

open List

variable {poly : UInt32} {top : Nat}

def pushBit (poly c : UInt32) (bit : Bool) : UInt32 :=
  if c.toBitVec.getLsbD 0 != bit then (c >>> 1) ^^^ poly else c >>> 1

def byteBits (b : UInt8) : List Bool :=
  (List.range 8).map b.toBitVec.getLsbD

def lsbBits (bytes : List UInt8) : List Bool :=
  bytes.flatMap byteBits

def AgreeOutside (start width : Nat) (p q : List Bool) : Prop :=
  ∀ i, i < start ∨ start + width ≤ i → p[i]? = q[i]?

theorem length_byteBits (b : UInt8) : (byteBits b).length = 8 := by simp [byteBits]

theorem byteBits_injective : Function.Injective byteBits := by
  intro a b same
  apply UInt8.eq_of_toBitVec_eq
  apply BitVec.eq_of_getLsbD_eq
  intro i inside
  exact map_inj_left.mp same i (mem_range.mpr inside)

theorem lsbBits_injective {p q : List UInt8} (same : lsbBits p = lsbBits q) : p = q := by
  induction p generalizing q with
  | nil =>
    cases q with
    | nil => rfl
    | cons b q => simp [lsbBits, byteBits, range_succ] at same
  | cons a p ih =>
    cases q with
    | nil => simp [lsbBits, byteBits, range_succ] at same
    | cons b q =>
      have parts : byteBits a = byteBits b ∧ lsbBits p = lsbBits q :=
        append_inj same (by rw [length_byteBits, length_byteBits])
      rw [byteBits_injective parts.1, ih parts.2]

theorem length_lsbBits (bytes : List UInt8) : (lsbBits bytes).length = 8 * bytes.length := by
  induction bytes with
  | nil => rfl
  | cons b rest ih =>
    simp only [lsbBits, flatMap_cons, length_append, length_byteBits] at ih ⊢
    rw [ih, length_cons]
    omega

/-! ## Linearity -/

theorem shiftRight_one_xor (a b : UInt32) : (a ^^^ b) >>> 1 = (a >>> 1) ^^^ (b >>> 1) := by
  apply UInt32.eq_of_toBitVec_eq
  simp [BitVec.ushiftRight_xor_distrib]

theorem xor_xor_cancel (a b c : UInt32) : (a ^^^ c) ^^^ (b ^^^ c) = a ^^^ b := by
  rw [UInt32.xor_comm b c, UInt32.xor_assoc, ← UInt32.xor_assoc c, UInt32.xor_self,
    UInt32.zero_xor]

theorem pushBit_xor (a b : UInt32) (x y : Bool) :
    pushBit poly (a ^^^ b) (x ^^ y) = pushBit poly a x ^^^ pushBit poly b y := by
  simp only [pushBit, shiftRight_one_xor, UInt32.toBitVec_xor, BitVec.getLsbD_xor]
  cases a.toBitVec.getLsbD 0 <;> cases b.toBitVec.getLsbD 0 <;> cases x <;> cases y <;>
    grind [xor_xor_cancel, UInt32.xor_assoc, UInt32.xor_comm]

theorem foldl_xor {α : Type*} [XorOp α] {step : α → Bool → α}
    (linear : ∀ a b x y, step (a ^^^ b) (x ^^ y) = step a x ^^^ step b y) (a b : α)
    {p q : List Bool} (length : p.length = q.length) :
    (p.zipWith (· ^^ ·) q).foldl step (a ^^^ b) = p.foldl step a ^^^ q.foldl step b := by
  induction p generalizing a b q with
  | nil =>
    rw [length_eq_zero_iff.mp length.symm]
    rfl
  | cons x p ih =>
    cases q with
    | nil => cases length
    | cons y q =>
      rw [zipWith_cons_cons, foldl_cons, foldl_cons, foldl_cons, linear,
        ih _ _ (Nat.succ.inj length)]

theorem foldl_pushBit_self (c : UInt32) (n : Nat) :
    (((List.range n).map c.toBitVec.getLsbD).foldl (pushBit poly) c).toBitVec =
      c.toBitVec >>> n := by
  induction n with
  | zero => simp
  | succ n ih =>
    rw [range_succ, map_append, foldl_append]
    simp only [map_cons, map_nil, foldl_cons, foldl_nil]
    rw [pushBit, ih, BitVec.getLsbD_ushiftRight, Nat.add_zero, bne_self_eq_false,
      if_neg Bool.false_ne_true, UInt32.toBitVec_shiftRight, ih, BitVec.shiftRight_add]
    rfl

variable {table : UInt32 → UInt32} {c : UInt32}

/-- **The table replaces eight bits** when every entry is the remainder of its index. -/
theorem lsbStep_eq_pushBits
    (entries : ∀ i : UInt8, table i.toUInt32 = (byteBits i).foldl (pushBit poly) 0)
    (c : UInt32) (b : UInt8) : lsbStep table c b = (byteBits b).foldl (pushBit poly) c := by
  have index : (c ^^^ b.toUInt32) &&& 0xFF = (c.toUInt8 ^^^ b).toUInt32 := by
    apply UInt32.eq_of_toBitVec_eq
    simp only [UInt32.toBitVec_and, UInt32.toBitVec_xor, UInt8.toBitVec_toUInt32,
      UInt32.toBitVec_toUInt8, UInt8.toBitVec_xor]
    ext i hi
    interval_cases i <;> simp
  have low : byteBits c.toUInt8 = (List.range 8).map c.toBitVec.getLsbD := by
    apply map_congr_left
    intro i inside
    rw [UInt32.toBitVec_toUInt8, BitVec.getLsbD_setWidth, decide_eq_true (mem_range.mp inside),
      Bool.true_and]
  have own : (byteBits c.toUInt8).foldl (pushBit poly) c = c >>> 8 := by
    apply UInt32.eq_of_toBitVec_eq
    rw [low, foldl_pushBit_self]
    rfl
  have bits : byteBits b =
      (byteBits (c.toUInt8 ^^^ b)).zipWith (· ^^ ·) (byteBits c.toUInt8) := by
    simp [byteBits, range_succ]
    grind
  have split := foldl_xor (@pushBit_xor poly) 0 c
    (show (byteBits (c.toUInt8 ^^^ b)).length = (byteBits c.toUInt8).length by
      rw [length_byteBits, length_byteBits])
  rw [← bits, UInt32.zero_xor] at split
  rw [split, own, ← entries, lsbStep, index, UInt32.xor_comm]

theorem foldl_lsbStep_eq
    (entries : ∀ i : UInt8, table i.toUInt32 = (byteBits i).foldl (pushBit poly) 0)
    (bytes : List UInt8) (c : UInt32) :
    bytes.foldl (lsbStep table) c = (lsbBits bytes).foldl (pushBit poly) c := by
  induction bytes generalizing c with
  | nil => rfl
  | cons b rest ih =>
    rw [foldl_cons, ih, lsbStep_eq_pushBits entries, lsbBits, lsbBits, flatMap_cons,
      foldl_append]

/-! ## Bursts -/

def Below (n : Nat) (c : UInt32) : Prop := ∀ i, n ≤ i → c.toBitVec.getLsbD i = false

structure Tops (poly : UInt32) (top : Nat) : Prop where
  lead : poly.toBitVec.getLsbD top = true
  below : Below (top + 1) poly

theorem below_of_bits {n : Nat} (bits : ∀ i : Fin 32, n ≤ i.val → c.toBitVec.getLsbD i = false) :
    Below n c := by
  intro i beyond
  by_cases inside : i < 32
  · exact bits ⟨i, inside⟩ beyond
  · exact BitVec.getLsbD_of_ge _ _ (by omega)

theorem eq_zero_of_below (none : Below 0 c) : c = 0 := by
  apply UInt32.eq_of_toBitVec_eq
  apply BitVec.eq_of_getLsbD_eq
  intro i _
  rw [none i (Nat.zero_le i)]
  simp

theorem below_zero (n : Nat) : Below n 0 := fun i _ => by simp

theorem Below.xor {n : Nat} {a b : UInt32} (left : Below n a) (right : Below n b) :
    Below n (a ^^^ b) := by
  intro i beyond
  rw [UInt32.toBitVec_xor, BitVec.getLsbD_xor, left i beyond, right i beyond]
  rfl

theorem getLsbD_shiftRight_one (c : UInt32) (i : Nat) :
    (c >>> 1).toBitVec.getLsbD i = c.toBitVec.getLsbD (i + 1) := by
  rw [UInt32.toBitVec_shiftRight, Nat.add_comm i 1]
  exact BitVec.getLsbD_ushiftRight _ _ _

section Bursts

variable (tops : Tops poly top)
include tops

variable {c : UInt32}

theorem Below.pushBit (small : Below (top + 1) c) (bit : Bool) :
    Below (top + 1) (TableCrc.pushBit poly c bit) := by
  have shifted : Below (top + 1) (c >>> 1) := by
    intro i beyond
    rw [getLsbD_shiftRight_one, small _ (by omega)]
  unfold TableCrc.pushBit
  split
  · exact shifted.xor tops.below
  · exact shifted

theorem Below.foldl_pushBit (small : Below (top + 1) c) (bits : List Bool) :
    Below (top + 1) (bits.foldl (TableCrc.pushBit poly) c) := by
  induction bits generalizing c with
  | nil => exact small
  | cons bit rest ih => exact ih (small.pushBit tops bit)

theorem shifted_of_below {bit : Bool} {n : Nat} (small : Below (top + 1) c)
    (after : Below n (pushBit poly c bit)) (short : n ≤ top) :
    c.toBitVec.getLsbD 0 = bit ∧ pushBit poly c bit = c >>> 1 := by
  by_cases added : (c.toBitVec.getLsbD 0 != bit) = true
  · have lead := after top short
    rw [pushBit, if_pos added, UInt32.toBitVec_xor, BitVec.getLsbD_xor, getLsbD_shiftRight_one,
      small _ (le_refl _), tops.lead] at lead
    cases lead
  · exact ⟨by simpa using added, if_neg added⟩

theorem own_of_foldl_eq_zero {bits : List Bool} (small : Below (top + 1) c)
    (short : bits.length ≤ top + 1) (zero : bits.foldl (pushBit poly) c = 0) :
    Below bits.length c ∧ ∀ i (inside : i < bits.length), bits[i] = c.toBitVec.getLsbD i := by
  induction bits generalizing c with
  | nil =>
    rw [show c = 0 from zero]
    exact ⟨below_zero 0, fun i inside => absurd inside (Nat.not_lt_zero i)⟩
  | cons bit rest ih =>
    rw [length_cons] at short
    obtain ⟨below, own⟩ := ih (small.pushBit tops bit) (by omega) zero
    obtain ⟨low, shifted⟩ := shifted_of_below tops small below (by omega)
    rw [shifted] at below own
    refine ⟨fun i beyond => ?_, fun i inside => ?_⟩
    · cases i with
      | zero => cases beyond
      | succ i =>
        rw [← getLsbD_shiftRight_one]
        exact below i (Nat.le_of_succ_le_succ beyond)
    · cases i with
      | zero => exact low.symm
      | succ i =>
        rw [getElem_cons_succ, own i (Nat.lt_of_succ_lt_succ inside), getLsbD_shiftRight_one]

theorem foldl_pushBit_left_inj {a b : UInt32} (bits : List Bool) (left : Below (top + 1) a)
    (right : Below (top + 1) b)
    (same : bits.foldl (pushBit poly) a = bits.foldl (pushBit poly) b) : a = b := by
  induction bits generalizing a b with
  | nil => exact same
  | cons bit rest ih =>
    have stepped := ih (left.pushBit tops bit) (right.pushBit tops bit) same
    have zero : [false].foldl (pushBit poly) (a ^^^ b) = 0 := by
      have sum := @pushBit_xor poly a b bit bit
      rwa [stepped, UInt32.xor_self, Bool.xor_self] at sum
    obtain ⟨below, own⟩ := own_of_foldl_eq_zero tops (left.xor right) (by simp) zero
    have none : Below 0 (a ^^^ b) := by
      intro i _
      cases i with
      | zero => exact (own 0 Nat.one_pos).symm
      | succ i => exact below _ (Nat.succ_le_succ (Nat.zero_le i))
    exact UInt32.xor_eq_zero_iff.mp (eq_zero_of_below none)

theorem foldl_pushBit_short_inj {p q : List Bool} (length : p.length = q.length)
    (short : p.length ≤ top + 1)
    (same : p.foldl (pushBit poly) c = q.foldl (pushBit poly) c) : p = q := by
  have zero : (p.zipWith (· ^^ ·) q).foldl (pushBit poly) 0 = 0 := by
    have sum := foldl_xor (@pushBit_xor poly) c c length
    rwa [same, UInt32.xor_self, UInt32.xor_self] at sum
  have own := (own_of_foldl_eq_zero tops (below_zero _) (by simp; omega) zero).2
  apply ext_getElem length
  intro i left right
  have bit := own i (by simp; omega)
  simpa using bit

/-- **A burst within the width of the register is detected.** -/
theorem foldl_pushBit_injOn {p q : List Bool} (small : Below (top + 1) c)
    (length : p.length = q.length) (start : Nat) (agree : AgreeOutside start (top + 1) p q)
    (same : p.foldl (pushBit poly) c = q.foldl (pushBit poly) c) : p = q := by
  have front : p.take start = q.take start := by
    apply ext_getElem?
    intro i
    by_cases before : i < start
    · rw [getElem?_take_of_lt before, getElem?_take_of_lt before, agree i (.inl before)]
    · rw [getElem?_take_eq_none (by omega), getElem?_take_eq_none (by omega)]
  have back : (p.drop start).drop (top + 1) = (q.drop start).drop (top + 1) := by
    apply ext_getElem?
    intro i
    rw [drop_drop, drop_drop, getElem?_drop, getElem?_drop,
      agree _ (.inr (by omega))]
  -- The string is what precedes the window, the window and what follows it.
  have split : ∀ bits : List Bool, bits.take start ++ ((bits.drop start).take (top + 1) ++
      (bits.drop start).drop (top + 1)) = bits := fun bits => by
    rw [take_append_drop, take_append_drop]
  rw [← split p, ← split q, front, back, foldl_append, foldl_append, foldl_append,
    foldl_append] at same
  have reached := small.foldl_pushBit tops (q.take start)
  have window := foldl_pushBit_short_inj tops (by simp; omega) (by simp)
    (foldl_pushBit_left_inj tops _ (reached.foldl_pushBit tops _) (reached.foldl_pushBit tops _)
      same)
  rw [← split p, ← split q, front, window, back]

end Bursts

theorem foldl_lsbStep_injOn (tops : Tops poly top)
    (entries : ∀ i : UInt8, table i.toUInt32 = (byteBits i).foldl (pushBit poly) 0)
    (small : Below (top + 1) c) {p q : List UInt8} (length : p.length = q.length)
    (start : Nat) (agree : AgreeOutside start (top + 1) (lsbBits p) (lsbBits q))
    (same : p.foldl (lsbStep table) c = q.foldl (lsbStep table) c) : p = q := by
  rw [foldl_lsbStep_eq entries, foldl_lsbStep_eq entries] at same
  refine lsbBits_injective (foldl_pushBit_injOn tops small ?_ start agree same)
  rw [length_lsbBits, length_lsbBits, length]

end TableCrc
