import EchoLife.Flash.Device

/-!
# The partition layout

`kerSysFlashInit` lays nine partitions out from the end of the flash chip downwards. Each one ends
where the sectors of the previous one start, owns whole sectors and lies at their end. For every
table of sector sizes the partitions are disjoint and inside their own sectors (`flash_layout`).
-/

namespace EchoLife.Flash

open BlockTable

/-! ## Constants of the board -/

def onek : Nat := 1024

def nvramPsiDefault : Nat := 64

def nvramLength : Nat := onek

def nvramDataOffset : Nat := 0x580

def fixMaxLen : Nat := 8 * onek

def availMaxLen : Nat := 16 * onek

def vaMaxLen : Nat := 8 * onek

def spMaxLen : Nat := 8 * onek

def firewallLogMaxLen : Nat := 10 * onek

def systemLogMaxLen : Nat := 16 * onek

def atherosWlanParamMaxLen : Nat := 8 * onek

def ralinkWlanParamMaxLen : Nat := 512

def hg55vdfa : UInt8 := 0

structure Board where
  sizes : List Nat
  nvramCrcOk : Bool
  /-- Configuration size in kilobytes from the board parameters, if the board id is set. -/
  bpPsiSize : Option Nat
  hardwareType : UInt8
  deriving Repr, DecidableEq

structure FlashPart where
  startBlk : Int
  numberBlk : Int
  length : Int
  blkOffset : Int
  deriving Repr, DecidableEq

structure FlashAddrInfo where
  nvram : FlashPart
  persistent : FlashPart
  psiBackup : FlashPart
  fix : FlashPart
  avail : FlashPart
  variableArea : FlashPart
  scratchPad : FlashPart
  firewalllog : FlashPart
  systemlog : FlashPart
  wlanparam : FlashPart
  deriving Repr, DecidableEq

def FlashAddrInfo.upper (info : FlashAddrInfo) : List FlashPart :=
  [info.persistent, info.psiBackup, info.fix, info.avail, info.variableArea, info.scratchPad,
    info.firewalllog, info.systemlog]

def FlashAddrInfo.partitions (info : FlashAddrInfo) : List FlashPart :=
  info.upper ++ [info.wlanparam]

def Board.persistentLength (board : Board) : Nat :=
  (if board.nvramCrcOk then board.bpPsiSize.getD nvramPsiDefault else nvramPsiDefault) * onek

def Board.wlanparamLength (board : Board) : Nat :=
  if board.hardwareType = hg55vdfa then atherosWlanParamMaxLen else ralinkWlanParamMaxLen

/-- Place a partition below the sector `endBlk`, when the sectors from `endBlk` on have
`usedBlkSize` bytes. The second component is `usedBlkSize` for the next partition. -/
def placeBelow (sizes : List Nat) (usedBlkSize endBlk length : Int) : FlashPart × Int :=
  let startAddr := flashGetTotalSize sizes - usedBlkSize - length
  let startBlk := cfiFlashGetBlk sizes startAddr
  let numberBlk := endBlk - startBlk
  let usedSize : Int := spanSize sizes startBlk.toNat numberBlk.toNat
  ({ startBlk, numberBlk, length, blkOffset := usedSize - length }, usedBlkSize + usedSize)

def kerSysFlashInit (board : Board) : FlashAddrInfo :=
  let sizes := board.sizes
  let persistent := placeBelow sizes 0 (flashGetNumsectors sizes) board.persistentLength
  let psiBackup := placeBelow sizes persistent.2 persistent.1.startBlk board.persistentLength
  let fix := placeBelow sizes psiBackup.2 psiBackup.1.startBlk fixMaxLen
  let avail := placeBelow sizes fix.2 fix.1.startBlk availMaxLen
  let variableArea := placeBelow sizes avail.2 avail.1.startBlk vaMaxLen
  let scratchPad := placeBelow sizes variableArea.2 variableArea.1.startBlk spMaxLen
  let firewalllog := placeBelow sizes scratchPad.2 scratchPad.1.startBlk firewallLogMaxLen
  let systemlog := placeBelow sizes firewalllog.2 firewalllog.1.startBlk systemLogMaxLen
  let wlanparam := placeBelow sizes systemlog.2 systemlog.1.startBlk board.wlanparamLength
  { nvram :=
      { startBlk := 0, numberBlk := 1, length := nvramLength, blkOffset := nvramDataOffset }
    persistent := persistent.1
    psiBackup := psiBackup.1
    fix := fix.1
    avail := avail.1
    variableArea := variableArea.1
    scratchPad := scratchPad.1
    firewalllog := firewalllog.1
    systemlog := systemlog.1
    wlanparam := wlanparam.1 }

def LookupsSucceed (board : Board) : Prop :=
  ∀ p ∈ (kerSysFlashInit board).partitions, p.startBlk ≠ -1

instance (board : Board) : Decidable (LookupsSucceed board) :=
  inferInstanceAs (Decidable (∀ p ∈ (kerSysFlashInit board).partitions, p.startBlk ≠ -1))

/-! ## Byte ranges -/

def sectorAddr (sizes : List Nat) (blk : Int) : Int :=
  start sizes blk.toNat

def FlashPart.first (sizes : List Nat) (p : FlashPart) : Int :=
  sectorAddr sizes p.startBlk + p.blkOffset

def FlashPart.bytes (sizes : List Nat) (p : FlashPart) : Set Int :=
  Set.Ico (p.first sizes) (p.first sizes + p.length)

def FlashPart.sectorBytes (sizes : List Nat) (p : FlashPart) : Set Int :=
  Set.Ico (sectorAddr sizes p.startBlk) (sectorAddr sizes (p.startBlk + p.numberBlk))

def bootSector (sizes : List Nat) : Set Int :=
  Set.Ico 0 (size sizes 0)

/-! ## The chain of placements -/

structure Placed (sizes : List Nat) (p : FlashPart) (b e : Nat) : Prop where
  startBlk : p.startBlk = b
  numberBlk : p.numberBlk = e - b
  blk_le : b ≤ e
  end_le : e ≤ sizes.length
  begins : p.first sizes < start sizes (b + 1) ∨ p.first sizes = start sizes b
  ends : start sizes b + p.blkOffset + p.length = start sizes e
  blkOffset_nonneg : 0 ≤ p.blkOffset
  length_nonneg : 0 ≤ p.length

variable {usedBlkSize : Int} {e s : Nat} {board : Board} {ps : List FlashPart} {q : FlashPart}

theorem placeBelow_spec {sizes : List Nat} {length : Int}
    (used : usedBlkSize = total sizes - start sizes e) (end_le : e ≤ sizes.length)
    (length_nonneg : 0 ≤ length) (found : (placeBelow sizes usedBlkSize e length).1.startBlk ≠ -1) :
    ∃ b, Placed sizes (placeBelow sizes usedBlkSize e length).1 b e ∧
      (placeBelow sizes usedBlkSize e length).2 = total sizes - start sizes b := by
  have addr : flashGetTotalSize sizes - usedBlkSize - length = start sizes e - length := by
    simp only [flashGetTotalSize, used]
    ring
  simp only [placeBelow, addr] at found ⊢
  obtain ⟨b, blk, _, lower, upper, before⟩ := cfiFlashGetBlk_spec found
  have blk_le : b ≤ e := by
    by_contra h
    have := start_mono sizes (show e ≤ b - 1 by omega)
    omega
  have span := start_add_spanSize sizes b (e - b)
  rw [Nat.add_sub_cancel' blk_le] at span
  have count : ((e : Int) - b).toNat = e - b := by omega
  simp only [blk, Int.toNat_natCast, count]
  refine ⟨b, ⟨rfl, rfl, blk_le, end_le, ?_, ?_, ?_, length_nonneg⟩, by omega⟩
  · simp only [FlashPart.first, sectorAddr, Int.toNat_natCast]
    omega
  · dsimp only
    omega
  · dsimp only
    omega

def layDown (sizes : List Nat) : (lengths : List Nat) → (usedBlkSize endBlk : Int) → List FlashPart
  | [], _, _ => []
  | length :: rest, usedBlkSize, endBlk =>
    let placed := placeBelow sizes usedBlkSize endBlk length
    placed.1 :: layDown sizes rest placed.2 placed.1.startBlk

def Board.lengths (board : Board) : List Nat :=
  [board.persistentLength, board.persistentLength, fixMaxLen, availMaxLen, vaMaxLen, spMaxLen,
    firewallLogMaxLen, systemLogMaxLen, board.wlanparamLength]

theorem partitions_eq_layDown (board : Board) : (kerSysFlashInit board).partitions =
    layDown board.sizes board.lengths 0 (flashGetNumsectors board.sizes) :=
  rfl

/-- A list of partitions in which each one is placed below the sectors of the one before it, the
first one below sector `e`. -/
inductive Descends (sizes : List Nat) : Nat → List FlashPart → Prop where
  | nil (e : Nat) : Descends sizes e []
  | cons {p : FlashPart} {rest : List FlashPart} {b e : Nat} (placed : Placed sizes p b e)
      (below : Descends sizes b rest) : Descends sizes e (p :: rest)

/-- **The chain of placements**, by induction on the partitions still to be placed: the sectors in
use are always those from the last partition's first sector on. -/
theorem descends_layDown {sizes : List Nat} (lengths : List Nat)
    (used : usedBlkSize = total sizes - start sizes e) (end_le : e ≤ sizes.length)
    (found : ∀ p ∈ layDown sizes lengths usedBlkSize e, p.startBlk ≠ -1) :
    Descends sizes e (layDown sizes lengths usedBlkSize e) := by
  induction lengths generalizing usedBlkSize e with
  | nil => exact .nil e
  | cons length rest ih =>
    simp only [layDown, List.forall_mem_cons] at found ⊢
    obtain ⟨b, placed, used'⟩ := placeBelow_spec used end_le (Int.natCast_nonneg _) found.1
    rw [placed.startBlk] at found ⊢
    exact .cons placed (ih used' (placed.blk_le.trans placed.end_le) found.2)

theorem descends_partitions (ok : LookupsSucceed board) :
    Descends board.sizes board.sizes.length (kerSysFlashInit board).partitions := by
  exact descends_layDown board.lengths (by rw [start_length]; ring) (le_refl _) ok

/-! ## Consequences of the chain -/

section Chain

variable {sizes : List Nat} {p : FlashPart} {b e : Nat}

section

variable (placed : Placed sizes p b e)
include placed

theorem Placed.first_eq : p.first sizes = start sizes b + p.blkOffset := by
  rw [FlashPart.first, placed.startBlk, sectorAddr, Int.toNat_natCast]

theorem Placed.bytes_eq :
    p.bytes sizes = Set.Ico (start sizes b + p.blkOffset) (start sizes e : Int) := by
  rw [FlashPart.bytes, placed.first_eq, placed.ends]

theorem Placed.sectorBytes_eq :
    p.sectorBytes sizes = Set.Ico (start sizes b : Int) (start sizes e) := by
  have last : p.startBlk + p.numberBlk = e := by
    rw [placed.startBlk, placed.numberBlk]
    ring
  rw [FlashPart.sectorBytes, last, placed.startBlk, sectorAddr, sectorAddr, Int.toNat_natCast,
    Int.toNat_natCast]

theorem Placed.bytes_subset : p.bytes sizes ⊆ Set.Ico (start sizes b : Int) (start sizes e) := by
  rw [placed.bytes_eq]
  exact Set.Ico_subset_Ico_left (by linarith [placed.blkOffset_nonneg])

end

theorem Descends.exists_placed (chain : Descends sizes e ps) (h : p ∈ ps) :
    ∃ b' e', Placed sizes p b' e' ∧ e' ≤ e := by
  induction chain with
  | nil => cases h
  | cons placed _ ih =>
    rcases List.mem_cons.mp h with rfl | h
    · exact ⟨_, _, placed, le_refl _⟩
    · obtain ⟨b', e', placed', le⟩ := ih h
      exact ⟨b', e', placed', le.trans placed.blk_le⟩

theorem Descends.pairwise_disjoint (chain : Descends sizes e ps) :
    ps.Pairwise fun p q => Disjoint (p.bytes sizes) (q.bytes sizes) := by
  induction chain with
  | nil => exact .nil
  | cons placed below ih =>
    refine .cons ?_ ih
    intro q hq
    obtain ⟨b', e', placed', le⟩ := below.exists_placed hq
    rw [Set.disjoint_left]
    intro x hx hx'
    have upper := (placed'.bytes_subset hx').2
    have lower := (placed.bytes_subset hx).1
    have := start_mono sizes le
    omega

theorem Descends.disjoint (chain : Descends sizes e ps) (hp : p ∈ ps) (hq : q ∈ ps) (ne : p ≠ q) :
    Disjoint (p.bytes sizes) (q.bytes sizes) := by
  exact chain.pairwise_disjoint.forall hp hq ne

theorem Descends.startBlk_le (chain : Descends sizes e (ps ++ [q])) (h : p ∈ ps ++ [q]) :
    q.startBlk ≤ p.startBlk := by
  induction ps generalizing e with
  | nil => rw [List.mem_singleton.mp h]
  | cons r rest ih =>
    cases chain with
    | cons placed below =>
      obtain ⟨b', e', placed', le⟩ := below.exists_placed (p := q) (by simp)
      rcases List.mem_cons.mp h with rfl | h
      · rw [placed.startBlk, placed'.startBlk]
        exact_mod_cast placed'.blk_le.trans le
      · exact ih below h

theorem Descends.startBlk_pos (chain : Descends sizes e (ps ++ [q])) (nonempty : 0 < q.length)
    (h : p ∈ ps) : 0 < p.startBlk := by
  induction ps generalizing e with
  | nil => cases h
  | cons r rest ih =>
    cases chain with
    | cons placed below =>
      rcases List.mem_cons.mp h with rfl | h
      · obtain ⟨b', e', placed', le⟩ := below.exists_placed (p := q) (by simp)
        have ends := placed'.ends
        have := placed'.blkOffset_nonneg
        rw [placed.startBlk]
        rcases Nat.eq_zero_or_pos e' with rfl | pos
        · rw [start_zero] at ends
          omega
        · omega
      · exact ih below h

theorem Placed.disjoint_bootSector (placed : Placed sizes p b e) (pos : 0 < b) :
    Disjoint (p.bytes sizes) (bootSector sizes) := by
  rw [Set.disjoint_left]
  intro x hx boot
  have lower := (placed.bytes_subset hx).1
  have upper := boot.2
  have := start_mono sizes (show 1 ≤ b by omega)
  rw [show (1 : Nat) = 0 + 1 from rfl, start_succ, start_zero] at this
  omega

theorem Placed.not_disjoint_bootSector (placed : Placed sizes p 0 e) (boot : 0 < size sizes 0)
    (nonempty : 0 < p.length) : ¬ Disjoint (p.bytes sizes) (bootSector sizes) := by
  rw [Set.not_disjoint_iff]
  have first := placed.first_eq
  have begins := placed.begins
  have := placed.blkOffset_nonneg
  rw [start_succ] at begins
  rw [start_zero] at first begins
  refine ⟨p.first sizes, ⟨le_refl _, by linarith⟩, ?_, ?_⟩
  · omega
  · omega

end Chain

theorem below_cons (s : Nat) (rest : List Nat) (usedBlkSize length : Int) :
    flashGetTotalSize (s :: rest) - usedBlkSize - length =
      s + (flashGetTotalSize rest - usedBlkSize - length) := by
  simp only [flashGetTotalSize, total, List.sum_cons]
  push_cast
  ring

theorem placeBelow_cons (pos : 0 < s) {rest : List Nat} {length : Int}
    (found : (placeBelow rest usedBlkSize e length).1.startBlk ≠ -1) :
    (placeBelow (s :: rest) usedBlkSize (e + 1 : Nat) length).1.startBlk =
        (placeBelow rest usedBlkSize e length).1.startBlk + 1 ∧
      (placeBelow (s :: rest) usedBlkSize (e + 1 : Nat) length).2 =
        (placeBelow rest usedBlkSize e length).2 := by
  have addr := below_cons s rest usedBlkSize length
  simp only [placeBelow] at found
  obtain ⟨b, blk, -⟩ := cfiFlashGetBlk_spec found
  have inside : 0 ≤ flashGetTotalSize rest - usedBlkSize - length := by
    by_contra h
    exact found (cfiFlashGetBlk_neg rest (by omega))
  have count : (((e + 1 : Nat) : Int) - (b + 1)).toNat = ((e : Int) - b).toNat := by omega
  have above : cfiFlashGetBlk (s :: rest) (s + (flashGetTotalSize rest - usedBlkSize - length)) =
      b + 1 := by
    rw [cfiFlashGetBlk_cons pos rest inside, if_neg found, blk]
  simp only [placeBelow, addr, above, blk, count, true_and]
  rw [show ((b : Int) + 1).toNat = b + 1 by omega, spanSize_cons_succ, Int.toNat_natCast]

theorem placeBelow_cons_le (pos : 0 < s) {rest : List Nat} {length : Int}
    (missed : (placeBelow rest usedBlkSize e length).1.startBlk = -1) :
    (placeBelow (s :: rest) usedBlkSize (e + 1 : Nat) length).1.startBlk ≤ 0 := by
  have addr := below_cons s rest usedBlkSize length
  simp only [placeBelow, addr] at missed ⊢
  by_cases inside : 0 ≤ flashGetTotalSize rest - usedBlkSize - length
  · rw [cfiFlashGetBlk_cons pos rest inside, if_pos missed]
    omega
  · by_contra above
    have found : cfiFlashGetBlk (s :: rest)
        (s + (flashGetTotalSize rest - usedBlkSize - length)) ≠ -1 := by omega
    obtain ⟨b, blk, -, lower, -⟩ := cfiFlashGetBlk_spec found
    have := start_mono (s :: rest) (show 1 ≤ b by omega)
    rw [show (1 : Nat) = 0 + 1 from rfl, start_cons_succ, start_zero] at this
    omega

theorem layDown_tail_iff (pos : 0 < s) (rest : List Nat) (lengths : List Nat) :
    (∀ p ∈ layDown rest lengths usedBlkSize e, p.startBlk ≠ -1) ↔
      ∀ p ∈ layDown (s :: rest) lengths usedBlkSize (e + 1 : Nat), 0 < p.startBlk := by
  induction lengths generalizing usedBlkSize e with
  | nil => simp [layDown]
  | cons length lengths ih =>
    simp only [layDown, List.forall_mem_cons]
    by_cases found : (placeBelow rest usedBlkSize e length).1.startBlk = -1
    · have := placeBelow_cons_le pos found
      constructor
      · exact fun h => absurd found h.1
      · exact fun h => absurd h.1 (by omega)
    · obtain ⟨blk, used⟩ := placeBelow_cons pos found
      obtain ⟨b, hb⟩ : ∃ b : Nat, (placeBelow rest usedBlkSize e length).1.startBlk = b :=
        let ⟨b, hb, _⟩ := cfiFlashGetBlk_spec found
        ⟨b, hb⟩
      rw [blk, used, hb]
      have next := @ih (placeBelow rest usedBlkSize e length).2 b
      rw [next]
      exact and_congr_left' ⟨fun _ => by omega, fun _ => by omega⟩

/-! ## The layout of a board -/

def FitsAboveBoot (board : Board) : Prop :=
  LookupsSucceed { board with sizes := board.sizes.tail }

instance (board : Board) : Decidable (FitsAboveBoot board) :=
  inferInstanceAs (Decidable (LookupsSucceed _))

theorem fitsAboveBoot_iff (boot : 0 < size board.sizes 0) :
    FitsAboveBoot board ↔ ∀ p ∈ (kerSysFlashInit board).partitions, 0 < p.startBlk := by
  obtain ⟨sizes, crcOk, psi, hw⟩ := board
  cases sizes with
  | nil => simp [size] at boot
  | cons s rest =>
    rw [FitsAboveBoot, LookupsSucceed, partitions_eq_layDown, partitions_eq_layDown]
    exact layDown_tail_iff boot rest _

theorem wlanparamLength_pos (board : Board) : 0 < board.wlanparamLength := by
  unfold Board.wlanparamLength
  split <;> decide

theorem startBlk_pos_of_upper (ok : LookupsSucceed board) {p : FlashPart}
    (h : p ∈ (kerSysFlashInit board).upper) : 0 < p.startBlk :=
  (descends_partitions ok).startBlk_pos (Int.natCast_pos.mpr (wlanparamLength_pos board)) h

/-- **The partition layout.** For every table of sector sizes on which all lookups succeed the
partitions are pairwise disjoint, each one lies inside its own sectors and inside the chip, and
they all keep clear of the boot sector exactly when the sectors above it suffice. -/
theorem flash_layout (board : Board) (ok : LookupsSucceed board) :
    ((kerSysFlashInit board).partitions.Pairwise fun p q =>
        Disjoint (p.bytes board.sizes) (q.bytes board.sizes)) ∧
      (∀ p ∈ (kerSysFlashInit board).partitions, 0 ≤ p.blkOffset ∧
        p.bytes board.sizes ⊆ p.sectorBytes board.sizes ∧
        p.bytes board.sizes ⊆ Set.Ico 0 (flashGetTotalSize board.sizes)) ∧
      (0 < size board.sizes 0 →
        ((∀ p ∈ (kerSysFlashInit board).partitions,
          Disjoint (p.bytes board.sizes) (bootSector board.sizes)) ↔ FitsAboveBoot board)) := by
  have chain := descends_partitions ok
  refine ⟨chain.pairwise_disjoint, ?_, ?_⟩
  · intro p hp
    obtain ⟨b, e, placed, le⟩ := chain.exists_placed hp
    refine ⟨placed.blkOffset_nonneg, ?_, placed.bytes_subset.trans ?_⟩
    · rw [placed.sectorBytes_eq]
      exact placed.bytes_subset
    · have : (start board.sizes e : Int) ≤ total board.sizes := by
        exact_mod_cast start_le_total board.sizes e
      exact Set.Ico_subset_Ico (by omega) this
  · intro boot
    rw [fitsAboveBoot_iff boot]
    constructor
    · intro clear p hp
      -- The lowest partition, the WLAN parameters, is nonempty, so it is not in the boot sector.
      have last : (kerSysFlashInit board).wlanparam ∈ (kerSysFlashInit board).partitions :=
        List.mem_append_right _ (List.mem_singleton_self _)
      obtain ⟨b, e, placed, -⟩ := chain.exists_placed last
      have lowest := chain.startBlk_le hp
      have nonempty : 0 < (kerSysFlashInit board).wlanparam.length :=
        Int.natCast_pos.mpr (wlanparamLength_pos board)
      rcases Nat.eq_zero_or_pos b with rfl | pos
      · exact absurd (clear _ last) (placed.not_disjoint_bootSector boot nonempty)
      · have := placed.startBlk
        omega
    · intro above p hp
      obtain ⟨b, e, placed, -⟩ := chain.exists_placed hp
      have := above p hp
      exact placed.disjoint_bootSector (by rw [placed.startBlk] at this; omega)

def nineSectors : Board where
  sizes := List.replicate 9 (64 * onek)
  nvramCrcOk := true
  bpPsiSize := some 64
  hardwareType := hg55vdfa

/-- On nine sectors every lookup succeeds and the layout reaches into the boot sector. -/
theorem nineSectors_meets_bootSector :
    LookupsSucceed nineSectors ∧ ¬ ∀ p ∈ (kerSysFlashInit nineSectors).partitions,
      Disjoint (p.bytes nineSectors.sizes) (bootSector nineSectors.sizes) := by
  refine ⟨by decide, fun clear => ?_⟩
  have last := clear (kerSysFlashInit nineSectors).wlanparam (by decide)
  have byte : (57344 : Int) ∈ (kerSysFlashInit nineSectors).wlanparam.bytes nineSectors.sizes :=
    ⟨by decide, by decide⟩
  exact Set.disjoint_left.mp last byte ⟨by decide, by decide⟩

def sixteenSectors : Board where
  sizes := List.replicate 16 (64 * onek)
  nvramCrcOk := true
  bpPsiSize := some 64
  hardwareType := hg55vdfa

theorem flash_layout_sixteenSectors :
    LookupsSucceed sixteenSectors ∧ ∀ p ∈ (kerSysFlashInit sixteenSectors).partitions,
      Disjoint (p.bytes sixteenSectors.sizes) (bootSector sixteenSectors.sizes) :=
  ⟨by decide, ((flash_layout sixteenSectors (by decide)).2.2 (by decide)).mpr (by decide)⟩

end EchoLife.Flash
