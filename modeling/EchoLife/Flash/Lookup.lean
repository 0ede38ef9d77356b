import EchoLife.Flash.Device

/-!
# The block lookup of the two flash drivers

The CFI and the SPI driver look an address up with the same loop and differ in the comparison after
it: that of the SPI driver is one of unsigned numbers. An address below `FLASH_BASE` is then a
large one, and the SPI driver finds the first sector where the CFI driver finds none.

`getBlk_agree_iff` says that this is the only difference, and that both lookups are right elsewhere.
-/

namespace EchoLife.Flash

open BlockTable

def toUnsigned (i : Int) : Int := i % 2 ^ 32

def spiFlashGetBlk (sizes : List Nat) (relativeAddr : Int) : Int :=
  let (blk, i) := getBlkLoop relativeAddr sizes 0 0
  if toUnsigned i > toUnsigned relativeAddr then blk - 1
  else if blk = sizes.length then -1
  else blk

def InSector (sizes : List Nat) (relativeAddr : Int) (b : Nat) : Prop :=
  b < sizes.length ∧ start sizes b ≤ relativeAddr ∧
    relativeAddr < (start sizes b + size sizes b : Nat)

def LooksUp (sizes : List Nat) (relativeAddr result : Int) : Prop :=
  if 0 ≤ relativeAddr ∧ relativeAddr < total sizes then
    ∃ b : Nat, result = b ∧ InSector sizes relativeAddr b ∧
      ∀ b', InSector sizes relativeAddr b' → b' = b
  else result = -1

variable {sizes : List Nat} {relativeAddr : Int}

theorem inSector_unique {b b' : Nat} (here : InSector sizes relativeAddr b)
    (there : InSector sizes relativeAddr b') : b' = b := by
  obtain ⟨-, lower, upper⟩ := here
  obtain ⟨-, lower', upper'⟩ := there
  refine @block_unique sizes relativeAddr.toNat b' b ?_ ?_
  · rw [start_succ]
    omega
  · rw [start_succ]
    omega

theorem cfiFlashGetBlk_of_total_le (positive : ∀ s ∈ sizes, 0 < s)
    (above : total sizes ≤ relativeAddr) : cfiFlashGetBlk sizes relativeAddr = -1 := by
  by_contra found
  obtain ⟨b, -, known, -, upper, -⟩ := cfiFlashGetBlk_spec found
  have last := start_le_total sizes (b + 1)
  have some := positive _ (size_mem sizes known)
  rw [start_succ] at last upper
  omega

theorem cfiFlashGetBlk_looksUp (positive : ∀ s ∈ sizes, 0 < s) :
    LooksUp sizes relativeAddr (cfiFlashGetBlk sizes relativeAddr) := by
  rw [LooksUp]
  split
  next inside =>
    obtain ⟨b, found, known, lower, upper, -⟩ :=
      cfiFlashGetBlk_spec (cfiFlashGetBlk_ne inside.1 inside.2)
    have some := positive _ (size_mem sizes known)
    rw [start_succ] at upper
    have here : InSector sizes relativeAddr b := ⟨known, lower, by omega⟩
    exact ⟨b, found, here, fun b' there => inSector_unique here there⟩
  next outside =>
    by_cases negative : relativeAddr < 0
    · exact cfiFlashGetBlk_neg sizes negative
    · exact cfiFlashGetBlk_of_total_le positive (by omega)

theorem spiFlashGetBlk_eq (small : total sizes < 2 ^ 31) (lower : 0 ≤ relativeAddr)
    (upper : relativeAddr < 2 ^ 31) :
    spiFlashGetBlk sizes relativeAddr = cfiFlashGetBlk sizes relativeAddr := by
  obtain ⟨b, loop, -, -, -⟩ := getBlkLoop_spec sizes relativeAddr sizes 0 rfl (by omega)
  rw [start_zero, Nat.cast_zero] at loop
  have last := start_le_total sizes b
  have start_eq : toUnsigned (start sizes b) = start sizes b :=
    Int.emod_eq_of_lt (by omega) (by omega)
  have addr_eq : toUnsigned relativeAddr = relativeAddr :=
    Int.emod_eq_of_lt lower (by omega)
  simp only [spiFlashGetBlk, cfiFlashGetBlk, loop, start_eq, addr_eq]

theorem spiFlashGetBlk_of_neg (negative : relativeAddr < 0) :
    spiFlashGetBlk sizes relativeAddr = if sizes.length = 0 then -1 else 0 := by
  have loop : getBlkLoop relativeAddr sizes 0 0 = (0, 0) := by
    cases sizes with
    | nil => rfl
    | cons s rest => rw [getBlkLoop, if_neg (by omega)]
  have wrapped : ¬ toUnsigned 0 > toUnsigned relativeAddr :=
    not_lt.mpr (Int.emod_nonneg relativeAddr (by decide))
  simp only [spiFlashGetBlk, loop, if_neg wrapped, eq_comm, Nat.cast_zero]

/-- **Both drivers look addresses up alike, and rightly, exactly from `FLASH_BASE` on**, or when the
chip has no sectors. -/
theorem getBlk_agree_iff (positive : ∀ s ∈ sizes, 0 < s) (small : total sizes < 2 ^ 31)
    (flashBase addr : Int32) :
    (cfiFlashGetBlk sizes (addr - flashBase).toInt = spiFlashGetBlk sizes (addr - flashBase).toInt ∧
        LooksUp sizes (addr - flashBase).toInt (cfiFlashGetBlk sizes (addr - flashBase).toInt) ∧
        LooksUp sizes (addr - flashBase).toInt (spiFlashGetBlk sizes (addr - flashBase).toInt)) ↔
      0 ≤ (addr - flashBase).toInt ∨ sizes = [] := by
  generalize relative : (addr - flashBase).toInt = relativeAddr
  have upper : relativeAddr < 2 ^ 31 := by
    rw [← relative]
    exact Int32.toInt_lt _
  have right := @cfiFlashGetBlk_looksUp sizes relativeAddr positive
  have below (negative : relativeAddr < 0) : cfiFlashGetBlk sizes relativeAddr =
      spiFlashGetBlk sizes relativeAddr ↔ sizes = [] := by
    rw [cfiFlashGetBlk_neg sizes negative, spiFlashGetBlk_of_neg negative,
      ← List.length_eq_zero_iff]
    split
    next none => exact iff_of_true rfl none
    next some => exact iff_of_false (by decide) some
  constructor
  · grind
  · intro inside
    have same : cfiFlashGetBlk sizes relativeAddr = spiFlashGetBlk sizes relativeAddr := by
      by_cases negative : relativeAddr < 0
      · exact (below negative).mpr (inside.resolve_left (not_le.mpr negative))
      · exact (spiFlashGetBlk_eq small (not_lt.mp negative) upper).symm
    exact ⟨same, right, by rw [← same]; exact right⟩

/-- An address in the second of two sectors. -/
theorem getBlk_agree_iff_second :
    (cfiFlashGetBlk [8, 64] (108 - 90 : Int32).toInt =
          spiFlashGetBlk [8, 64] (108 - 90 : Int32).toInt ∧
        LooksUp [8, 64] (108 - 90 : Int32).toInt (cfiFlashGetBlk [8, 64] (108 - 90 : Int32).toInt) ∧
        LooksUp [8, 64] (108 - 90 : Int32).toInt
          (spiFlashGetBlk [8, 64] (108 - 90 : Int32).toInt)) ↔
      0 ≤ (108 - 90 : Int32).toInt ∨ ([8, 64] : List Nat) = [] :=
  getBlk_agree_iff (by decide) (by decide) 90 108

/-- The address before the chip. -/
theorem getBlk_before_flashBase :
    cfiFlashGetBlk [8, 64] (89 - 90 : Int32).toInt = -1 ∧
      spiFlashGetBlk [8, 64] (89 - 90 : Int32).toInt = 0 := by
  decide

end EchoLife.Flash
