import Mathlib.Tactic

/-!
# Memory shared with the core

Blocks are taken downwards from the start of the shared memory. When there is no room left the
memory is initialized again and the block is taken from its start, over blocks that are in use
(`sharedMem_overlap`). Blocks that fit into the memory together are disjoint and inside it
(`sharedMem_blocks`).
-/

namespace EchoLife.Dsl.Shared

open List

/-! ## The source -/

def adslSdramReserved : Nat := 32

def shareMemRequire : Nat := 2048

/-- What the initialization reads: the layout of the memory, and the address that `calloc` would
return. -/
structure Sdram where
  pageAddr : Nat
  pageSize : Nat
  imageSizeMax : Nat
  imageSize : Nat
  calloc : Nat
  deriving Repr, DecidableEq

structure SharedMem where
  isCalloc : Bool
  sizeAllow : Nat
  start : Nat
  alloc : Nat
  deriving Repr, DecidableEq

def adslCoreSharedMemInit (m : SharedMem) (sdram : Sdram) : SharedMem :=
  let shareMemAvailable : Int := sdram.imageSizeMax - adslSdramReserved - sdram.imageSize
  let m :=
    if m.isCalloc then m
    else if shareMemAvailable < shareMemRequire then
      { m with
        start := 0xA0000000 ||| (sdram.calloc + shareMemRequire)
        isCalloc := true
        sizeAllow := shareMemRequire }
    else
      { m with
        start := sdram.pageAddr + sdram.pageSize - adslSdramReserved
        sizeAllow := shareMemAvailable.toNat }
  { m with alloc := m.start }

def below (addr size : Nat) : Nat := (addr + 2 ^ 32 - size) % 2 ^ 32 / 4 * 4

def adslCoreSharedMemAlloc (m : SharedMem) (sdram : Sdram) (size : Nat) : SharedMem :=
  let m := if below m.alloc size < m.start - m.sizeAllow then adslCoreSharedMemInit m sdram else m
  { m with alloc := below m.alloc size }

def blocks (m : SharedMem) : List (Sdram × Nat) → List (Nat × Nat)
  | [] => []
  | (sdram, size) :: calls =>
    let m := adslCoreSharedMemAlloc m sdram size
    (m.alloc, size) :: blocks m calls

/-! ## Blocks that fit -/

def rounded (size : Nat) : Nat := (size + 3) / 4 * 4

def Disjoint (a b : Nat × Nat) : Prop := a.1 + a.2 ≤ b.1 ∨ b.1 + b.2 ≤ a.1

structure Room (m : SharedMem) (room : Nat) : Prop where
  aligned : m.alloc % 4 = 0
  address : m.start < 2 ^ 32
  region : m.sizeAllow ≤ m.start
  upper : m.alloc ≤ m.start
  lower : m.start - m.sizeAllow + room ≤ m.alloc

theorem Room.alloc {m : SharedMem} {size rest : Nat} (room : Room m (rounded size + rest))
    (sdram : Sdram) :
    adslCoreSharedMemAlloc m sdram size = { m with alloc := m.alloc - rounded size } ∧
      Room { m with alloc := m.alloc - rounded size } rest := by
  obtain ⟨aligned, address, region, upper, lower⟩ := room
  rw [rounded] at lower ⊢
  have addr : below m.alloc size = m.alloc - (size + 3) / 4 * 4 := by
    rw [below]
    omega
  refine ⟨?_, ?_, address, region, ?_, ?_⟩
  · rw [adslCoreSharedMemAlloc, addr, if_neg (by omega), addr]
  · show (m.alloc - (size + 3) / 4 * 4) % 4 = 0
    omega
  · show m.alloc - (size + 3) / 4 * 4 ≤ m.start
    omega
  · show m.start - m.sizeAllow + rest ≤ m.alloc - (size + 3) / 4 * 4
    omega

theorem Room.blocks {m : SharedMem} {calls : List (Sdram × Nat)}
    (room : Room m (calls.map fun c => rounded c.2).sum) :
    (∀ b ∈ blocks m calls, m.start - m.sizeAllow ≤ b.1 ∧ b.1 + b.2 ≤ m.alloc) ∧
      (blocks m calls).Pairwise Disjoint := by
  induction calls generalizing m with
  | nil => exact ⟨fun _ mem => absurd mem not_mem_nil, .nil⟩
  | cons c calls ih =>
    obtain ⟨sdram, size⟩ := c
    obtain ⟨step, next⟩ := room.alloc sdram
    obtain ⟨inside, apart⟩ := ih next
    have lower : m.start - m.sizeAllow + (rounded size + _) ≤ m.alloc := room.lower
    have enough : size ≤ rounded size := by
      rw [rounded]
      omega
    rw [Shared.blocks, step]
    refine ⟨fun b mem => ?_, pairwise_cons.mpr ⟨fun b mem => .inr (inside b mem).2, apart⟩⟩
    rcases mem_cons.mp mem with rfl | mem
    · exact ⟨by dsimp only; omega, by dsimp only; omega⟩
    · exact ⟨(inside b mem).1, (inside b mem).2.trans (Nat.sub_le ..)⟩

/-- **Blocks that fit together are inside the memory and disjoint**, after an initialization in any
state and with any layout of the memory. -/
theorem sharedMem_blocks (m : SharedMem) (sdram : Sdram) (calls : List (Sdram × Nat))
    (aligned : (adslCoreSharedMemInit m sdram).start % 4 = 0)
    (address : (adslCoreSharedMemInit m sdram).start < 2 ^ 32)
    (region : (adslCoreSharedMemInit m sdram).sizeAllow ≤ (adslCoreSharedMemInit m sdram).start)
    (fit : (calls.map fun c => rounded c.2).sum ≤ (adslCoreSharedMemInit m sdram).sizeAllow) :
    (∀ b ∈ blocks (adslCoreSharedMemInit m sdram) calls,
      (adslCoreSharedMemInit m sdram).start - (adslCoreSharedMemInit m sdram).sizeAllow ≤ b.1 ∧
        b.1 + b.2 ≤ (adslCoreSharedMemInit m sdram).start) ∧
      (blocks (adslCoreSharedMemInit m sdram) calls).Pairwise Disjoint := by
  have start : (adslCoreSharedMemInit m sdram).alloc = (adslCoreSharedMemInit m sdram).start := rfl
  have room : Room (adslCoreSharedMemInit m sdram) (calls.map fun c => rounded c.2).sum :=
    ⟨start ▸ aligned, address, region, start.le, by omega⟩
  exact room.blocks

def sampleSdram : Sdram := ⟨0xA0600000, 0x200000, 0x60000, 0x50000, 0x80400000⟩

theorem sharedMem_blocks_three :
    blocks (adslCoreSharedMemInit ⟨false, 0, 0, 0⟩ sampleSdram)
        [(sampleSdram, 30000), (sampleSdram, 1), (sampleSdram, 35000)] =
      [(0xA07F8AB0, 30000), (0xA07F8AAC, 1), (0xA07F01F4, 35000)] ∧
    (blocks (adslCoreSharedMemInit ⟨false, 0, 0, 0⟩ sampleSdram)
      [(sampleSdram, 30000), (sampleSdram, 1), (sampleSdram, 35000)]).Pairwise Disjoint :=
  ⟨by decide +kernel, (sharedMem_blocks ⟨false, 0, 0, 0⟩ sampleSdram _ (by decide +kernel)
    (by decide +kernel) (by decide +kernel) (by decide +kernel)).2⟩

/-- **Without room a block overlaps one that is in use, and one that is too large leaves the
memory.** -/
theorem sharedMem_overlap :
    blocks (adslCoreSharedMemInit ⟨false, 0, 0, 0⟩ sampleSdram)
        [(sampleSdram, 40000), (sampleSdram, 30000)] =
      [(0xA07F63A0, 40000), (0xA07F8AB0, 30000)] ∧
    ¬ Disjoint (0xA07F63A0, 40000) (0xA07F8AB0, 30000) ∧
    blocks (adslCoreSharedMemInit ⟨false, 0, 0, 0⟩ sampleSdram) [(sampleSdram, 70000)] =
      [(0xA07EEE70, 70000)] ∧
    (adslCoreSharedMemInit ⟨false, 0, 0, 0⟩ sampleSdram).start -
      (adslCoreSharedMemInit ⟨false, 0, 0, 0⟩ sampleSdram).sizeAllow = 0xA07F0000 :=
  ⟨by decide +kernel, by simp [Disjoint], by decide +kernel, by decide +kernel⟩

end EchoLife.Dsl.Shared
