import EchoLife.Firmware.Tag

/-!
# Writing an image

`kerSysBcmImageSet` erases and writes sector after sector, from the start of the sector that holds
its address. It stops in front of the variable area, and never looks at the other partitions.
`within_kerSysBcmImageSet` bounds the sectors that a call touches, and `kerSysBcmImageSet_spec` says
what it writes where it succeeds.
-/

namespace EchoLife.Firmware

open List BlockTable ByteStore CrashTrace EchoLife.Flash Traced

/-! ## The loop -/

structure LoopEnd where
  blkStart : Nat
  size : Int
  deriving Repr, DecidableEq

def evenUp (size : Int) : Int :=
  if size % 2 = 1 then size + 1 else size

theorem evenUp_le {size bound : Int} (h : size < bound) : evenUp size ≤ bound := by
  unfold evenUp
  split
  · omega
  · omega

theorem le_evenUp (size : Int) : size ≤ evenUp size := by
  unfold evenUp
  split
  · omega
  · exact le_refl _

def flashWriteFails (sizes : List Nat) (blk : Nat) : DriverM Unit := do
  flashSectorEraseInt sizes blk
  flashSectorEraseInt sizes blk
  flashSectorEraseInt sizes blk

def writeShared (board : Board) (memory : Nat → UInt8) (blk string : Nat) (size : Int) :
    DriverM LoopEnd := do
  let sectSize := BlockTable.size board.sizes blk
  if size > sectSize - (kerSysFlashInit board).variableArea.length ∨ size < 0 then
    pure ⟨blk, size⟩
  else
    let pTempBuf ← .observe (flashReadBuf board.sizes blk 0 sectSize)
    flashSectorEraseInt board.sizes blk
    let _ ← flashWriteBuf board.sizes blk 0 (overwrite pTempBuf 0 (load memory string size.toNat))
    pure ⟨blk, 0⟩

/-- The writing loop. `string` is the position in the image; `n` counts the sectors from `blk` to
the end of the table, behind which the loop would read sector sizes from other memory: `none`. -/
def imageLoop (board : Board) (memory : Nat → UInt8) (wholeImage : Bool) :
    (n blk string : Nat) → (size : Int) → DriverM (Option LoopEnd)
  | 0, _, _, _ => pure none
  | n + 1, blk, string, size => do
      let sectSize := BlockTable.size board.sizes blk
      if wholeImage = false ∧ (blk : Int) = (kerSysFlashInit board).variableArea.startBlk then
        let left ← writeShared board memory blk string size
        pure (some left)
      else
        flashSectorEraseInt board.sizes blk
        if sectSize > size then
          if evenUp size < 0 then
            flashWriteFails board.sizes blk
            pure (some ⟨blk, evenUp size⟩)
          else
            let _ ← flashWriteBuf board.sizes blk 0 (load memory string (evenUp size).toNat)
            pure (some ⟨blk + 1, 0⟩)
        else
          let _ ← flashWriteBuf board.sizes blk 0 (load memory string sectSize)
          if size - sectSize > 0 then
            imageLoop board memory wholeImage n (blk + 1) (string + sectSize) (size - sectSize)
          else pure (some ⟨blk + 1, size - sectSize⟩)

def eraseBlks (sizes : List Nat) : (n blk : Nat) → DriverM Unit
  | 0, _ => pure ()
  | n + 1, blk => do
      flashSectorEraseInt sizes blk
      eraseBlks sizes n (blk + 1)

def LoopEnd.status (left : LoopEnd) : Int :=
  if left.size = 0 then 0 else left.blkStart

def eraseToEnd (sizes : List Nat) (wholeImage : Bool) (left : LoopEnd) : DriverM Unit :=
  if wholeImage then eraseBlks sizes (sizes.length - left.blkStart) left.blkStart else pure ()

/-- Write `size` bytes of the image, from position `string` on, to an address relative to the start
of the flash. -/
def kerSysBcmImageSet (board : Board) (memory : Nat → UInt8) (flashStartAddr : Int) (string : Nat)
    (size : Int) : DriverM (Option Int) := do
  let blkStart := cfiFlashGetBlk board.sizes flashStartAddr
  let wholeImage := decide (flashStartAddr = 0 ∧ size > flashLengthBootRom)
  if blkStart < 0 then pure (some (-1))
  else
    match ← imageLoop board memory wholeImage (board.sizes.length - blkStart.toNat)
        blkStart.toNat string size with
    | none => pure none
    | some left =>
      eraseToEnd board.sizes wholeImage left
      pure (some left.status)

/-! ## The sectors that are touched -/

variable {board : Board} {flashStartAddr : Int} {b blk : Nat}

theorem kerSysBcmImageSet_eq (found : cfiFlashGetBlk board.sizes flashStartAddr = b) (later : 0 < b)
    (memory : Nat → UInt8) (string : Nat) (size : Int) :
    kerSysBcmImageSet board memory flashStartAddr string size = (do
      let left ← imageLoop board memory false (board.sizes.length - b) b string size
      pure (left.map LoopEnd.status)) := by
  have notWhole : decide (flashStartAddr = 0 ∧ size > flashLengthBootRom) = false := by
    rw [decide_eq_false_iff_not]
    rintro ⟨rfl, -⟩
    obtain ⟨b', found', -, -, -, previous⟩ := cfiFlashGetBlk_spec (by rw [found]; omega)
    omega
  simp only [kerSysBcmImageSet, found, notWhole, Int.toNat_natCast]
  rw [if_neg (by omega)]
  congr 1
  funext left
  cases left with
  | none => rfl
  | some left => rfl

section Range

variable {board : Board} (memory : Nat → UInt8) {e : Nat}
  (below : (e : Int) ≤ (kerSysFlashInit board).variableArea.startBlk)
include below

theorem within_imageLoop (wholeImage : Bool) (n blk string : Nat) (size : Int) (before : blk < e)
    (fits : start board.sizes blk + size ≤ start board.sizes e) :
    Within (start board.sizes blk) (start board.sizes e)
      (imageLoop board memory wholeImage n blk string size) := by
  induction n generalizing blk string size with
  | zero => exact within_pure _
  | succ n ih =>
    have next := start_succ board.sizes blk
    have last := start_mono board.sizes (show blk + 1 ≤ e by omega)
    have erase : Within (start board.sizes blk) (start board.sizes e)
        (flashSectorEraseInt board.sizes blk) := within_flashSectorEraseInt (le_refl _) last
    have write (k : Nat) (small : k ≤ BlockTable.size board.sizes blk) :
        Within (start board.sizes blk) (start board.sizes e)
          (flashWriteBuf board.sizes blk 0 (load memory string k)) :=
      within_flashWriteBuf (le_refl _) (by rw [length_load]; omega)
    rw [imageLoop, if_neg (by omega)]
    refine erase.bind fun _ => ?_
    split
    · rename_i short
      have even := evenUp_le short
      split
      · exact (erase.bind fun _ => erase.bind fun _ => erase).bind fun _ => within_pure _
      · exact (write _ (by omega)).bind fun _ => within_pure _
    · refine (write _ (le_refl _)).bind fun _ => ?_
      split
      · have goesOn : blk + 1 < e := lt_of_start_lt board.sizes (by omega)
        exact (ih (blk + 1) _ _ goesOn (by omega)).mono (by omega) (le_refl _)
      · exact within_pure _

/-- **What a call touches.** A call that begins in sector `b` and whose bytes end in front of
sector `e`, below the variable area, stays inside the sectors from `b` up to `e`. -/
theorem within_kerSysBcmImageSet (string : Nat) {size : Int}
    (found : cfiFlashGetBlk board.sizes flashStartAddr = b) (later : 0 < b) (before : b < e)
    (fits : start board.sizes b + size ≤ start board.sizes e) :
    Within (start board.sizes b) (start board.sizes e)
      (kerSysBcmImageSet board memory flashStartAddr string size) := by
  rw [kerSysBcmImageSet_eq found later]
  exact (within_imageLoop memory below false _ b string size before fits).bind fun _ =>
    within_pure _

end Range

/-! ## The bytes that are written -/

/-- Every sector that an image meets is in the table, and in the first sector of the variable area
the image ends in front of the variables. `last` is the end of the image. -/
def Room (board : Board) (wholeImage : Bool) (b : Nat) (last : Int) : Prop :=
  ∀ k, b ≤ k → k = b ∨ start board.sizes k < last → k < board.sizes.length ∧
    (wholeImage = false → (k : Int) = (kerSysFlashInit board).variableArea.startBlk →
      last ≤ start board.sizes (k + 1) - (kerSysFlashInit board).variableArea.length)

theorem Room.succ {wholeImage : Bool} {last : Int} (room : Room board wholeImage b last)
    (more : start board.sizes (b + 1) < last) : Room board wholeImage (b + 1) last := by
  intro k later inside
  refine room k (Nat.le_of_succ_le later) (.inr ?_)
  rcases inside with rfl | inside
  · exact more
  · exact inside

theorem spares_flashSectorEraseInt {sizes : List Nat} {x : Nat} (before : x < start sizes blk) :
    Spares x (flashSectorEraseInt sizes blk) := by
  intro chip e he
  rw [mem_singleton.mp he]
  exact .inl before

theorem spares_flashWriteBuf {sizes : List Nat} {x : Nat} (before : x < start sizes blk)
    (buffer : List UInt8) : Spares x (flashWriteBuf sizes blk 0 buffer) := by
  intro chip e he
  rw [mem_singleton.mp he]
  exact .inl before

section Bytes

variable {board : Board} (memory : Nat → UInt8) {wholeImage : Bool}

theorem spares_imageLoop {n string : Nat} {size : Int} {x : Nat}
    (before : x < start board.sizes blk) :
    Spares x (imageLoop board memory wholeImage n blk string size) := by
  induction n generalizing blk string size with
  | zero => exact spares_pure _
  | succ n ih =>
    have next := start_succ board.sizes blk
    have erase := spares_flashSectorEraseInt before
    have write := spares_flashWriteBuf before
    rw [imageLoop, writeShared]
    split
    · refine Spares.bind ?_ fun _ => spares_pure _
      split
      · exact spares_pure _
      · exact (spares_observe _).bind fun _ => erase.bind fun _ =>
          (write _).bind fun _ => spares_pure _
    · refine erase.bind fun _ => ?_
      split
      · split
        · exact (erase.bind fun _ => erase.bind fun _ => erase).bind fun _ => spares_pure _
        · exact (write _).bind fun _ => spares_pure _
      · refine (write _).bind fun _ => ?_
        split
        · exact ih (by omega)
        · exact spares_pure _

theorem holds_written {string k : Nat} (chip : Chip) {i : Nat} (inside : i < k) :
    (flashWriteBuf board.sizes blk 0 (load memory string k)).final
        ((flashSectorEraseInt board.sizes blk).final chip) (start board.sizes blk + i) =
      memory (string + i) := by
  change store _ (start board.sizes blk + 0) (load memory string k) _ = _
  rw [store_apply_inside (by omega) (by rw [length_load]; omega)]
  simp [load]

theorem writeShared_spec (memory : Nat → UInt8) (string : Nat) {size : Int} (nonneg : 0 ≤ size)
    (fits : size ≤ BlockTable.size board.sizes blk - (kerSysFlashInit board).variableArea.length)
    (chip : Chip) : (writeShared board memory blk string size).value chip = ⟨blk, 0⟩ ∧
      ∀ i : Nat, i < size → (writeShared board memory blk string size).final chip
        (start board.sizes blk + i) = memory (string + i) := by
  rw [writeShared, if_neg (by omega)]
  refine ⟨rfl, fun i inside => ?_⟩
  change store _ (start board.sizes blk + 0) (overwrite _ 0 (load memory string size.toNat)) _ = _
  rw [Nat.add_zero, store, if_pos (Nat.le_add_right _ _), Nat.add_sub_cancel_left, List.getD,
    overwrite, take_zero, nil_append,
    getElem?_append_left (by rw [length_load]; omega), getElem?_load, if_pos (by omega)]
  rfl

theorem imageLoop_spec {n blk string : Nat} {size : Int} (nonneg : 0 ≤ size)
    (sectors : n = board.sizes.length - blk)
    (room : Room board wholeImage blk (start board.sizes blk + size)) (chip : Chip) :
    (∃ last, (imageLoop board memory wholeImage n blk string size).value chip =
      some ⟨last, 0⟩ ∧
        (wholeImage = true → start board.sizes blk + size ≤ start board.sizes last)) ∧
    ∀ i : Nat, i < size → (imageLoop board memory wholeImage n blk string size).final chip
      (start board.sizes blk + i) = memory (string + i) := by
  induction n generalizing blk string size chip with
  | zero =>
    have := (room blk (le_refl _) (.inl rfl)).1
    omega
  | succ n ih =>
    have next := start_succ board.sizes blk
    rw [imageLoop]
    by_cases shared : wholeImage = false ∧
        (blk : Int) = (kerSysFlashInit board).variableArea.startBlk
    · have fits := (room blk (le_refl _) (.inl rfl)).2 shared.1 shared.2
      obtain ⟨value, bytes⟩ := writeShared_spec memory string nonneg
        (show size ≤ BlockTable.size board.sizes blk - _ by omega) chip
      rw [if_pos shared]
      simp only [value_bind, final_bind, value_pure, final_pure,
        value]
      refine ⟨⟨blk, rfl, fun whole => ?_⟩, bytes⟩
      rw [whole] at shared
      exact Bool.noConfusion shared.1
    · rw [if_neg shared]
      simp only [value_bind, final_bind]
      by_cases short : BlockTable.size board.sizes blk > size
      · have even := le_evenUp size
        rw [if_pos short, if_neg (by omega)]
        exact ⟨⟨blk + 1, rfl, fun _ => by omega⟩,
          fun i inside => holds_written memory chip (by omega)⟩
      · rw [if_neg short]
        simp only [value_bind, final_bind]
        by_cases more : size - BlockTable.size board.sizes blk > 0
        · have rest : Room board wholeImage (blk + 1) (start board.sizes (blk + 1) +
              (size - BlockTable.size board.sizes blk)) := by
            rw [show start board.sizes (blk + 1) + (size - BlockTable.size board.sizes blk) =
              start board.sizes blk + size by omega]
            exact room.succ (by omega)
          obtain ⟨⟨last, value, ends⟩, bytes⟩ := @ih (blk + 1)
            (string + BlockTable.size board.sizes blk) _ more.le (by omega) rest
            ((flashWriteBuf board.sizes blk 0 (load memory string _)).final
              ((flashSectorEraseInt board.sizes blk).final chip))
          rw [if_pos more]
          refine ⟨⟨last, value, fun whole => ?_⟩, fun i inside => ?_⟩
          · have := ends whole
            omega
          · by_cases here : i < BlockTable.size board.sizes blk
            · rw [(spares_imageLoop memory (by omega)).crash (crash_final _ _)]
              exact holds_written memory chip here
            · have there := bytes (i - BlockTable.size board.sizes blk) (by omega)
              rwa [next, Nat.add_assoc, Nat.add_sub_cancel' (by omega), Nat.add_assoc,
                Nat.add_sub_cancel' (by omega)] at there
        · rw [if_neg more, show size - BlockTable.size board.sizes blk = 0 by omega]
          exact ⟨⟨blk + 1, rfl, fun _ => by omega⟩,
            fun i inside => holds_written memory chip (by omega)⟩

/-- **What a call writes.** Below the variable area a call succeeds and leaves its bytes at the
start of sector `b`. -/
theorem kerSysBcmImageSet_spec {e : Nat}
    (below : (e : Int) ≤ (kerSysFlashInit board).variableArea.startBlk) (string : Nat) {size : Int}
    (found : cfiFlashGetBlk board.sizes flashStartAddr = b) (later : 0 < b) (before : b < e)
    (fits : start board.sizes b + size ≤ start board.sizes e) (nonneg : 0 ≤ size)
    (known : e ≤ board.sizes.length) (chip : Chip) :
    (kerSysBcmImageSet board memory flashStartAddr string size).value chip = some 0 ∧
      ∀ i : Nat, i < size →
        (kerSysBcmImageSet board memory flashStartAddr string size).final chip
          (start board.sizes b + i) = memory (string + i) := by
  have room : Room board false b (start board.sizes b + size) := by
    intro k _ inside
    have front : k < e := by
      rcases inside with rfl | inside
      · exact before
      · exact lt_of_start_lt board.sizes (by omega)
    exact ⟨front.trans_le known, fun _ shared => by omega⟩
  obtain ⟨⟨last, value, -⟩, bytes⟩ := @imageLoop_spec board memory _ _ b string size nonneg rfl
    room chip
  rw [kerSysBcmImageSet_eq found later]
  simp only [value_bind, final_bind, value]
  exact ⟨rfl, bytes⟩

end Bytes

theorem imageLoop_one (apart : (blk : Int) ≠ (kerSysFlashInit board).variableArea.startBlk)
    (memory : Nat → UInt8) (wholeImage : Bool) (n string : Nat) :
    imageLoop board memory wholeImage (n + 1) blk string (size board.sizes blk) = (do
      flashSectorEraseInt board.sizes blk
      let _ ← flashWriteBuf board.sizes blk 0 (load memory string (size board.sizes blk))
      pure (some ⟨blk + 1, 0⟩)) := by
  rw [imageLoop, if_neg (fun shared => apart shared.2), if_neg (lt_irrefl _), sub_self,
    if_neg (lt_irrefl _)]

section

variable (found : cfiFlashGetBlk board.sizes flashStartAddr = b) (later : 0 < b)
  (apart : (b : Int) ≠ (kerSysFlashInit board).variableArea.startBlk)
include found later apart

theorem crash_kerSysBcmImageSet_one {memory : Nat → UInt8} (known : b < board.sizes.length)
    {string : Nat} {chip t : Chip}
    (crash : (kerSysBcmImageSet board memory flashStartAddr string (size board.sizes b)).Crash
      chip t) :
    t = chip ∨ t = store chip (start board.sizes b) (replicate (size board.sizes b) 0xFF) ∨
      t = store chip (start board.sizes b) (load memory string (size board.sizes b)) := by
  have sectors : board.sizes.length - b = board.sizes.length - b - 1 + 1 := by omega
  have full : (load memory string (size board.sizes b)).length = size board.sizes b :=
    length_load _ _ _
  rw [kerSysBcmImageSet_eq found later, sectors, imageLoop_one apart] at crash
  simp only [crash_bind, crash_pure, final_bind, final_pure,
    crash_flashSectorEraseInt, crash_flashWriteBuf, final_sector full] at crash
  have erased : (flashSectorEraseInt board.sizes b).final chip =
      store chip (start board.sizes b) (replicate (size board.sizes b) 0xFF) := rfl
  rw [erased, store_store (by simp [full])] at crash
  tauto

theorem crash_kerSysBcmImageSet_erase (known : b < board.sizes.length) (memory : Nat → UInt8)
    (string : Nat) (size : Int) (chip : Chip) :
    (kerSysBcmImageSet board memory flashStartAddr string size).Crash chip
      (store chip (start board.sizes b) (replicate (BlockTable.size board.sizes b) 0xFF)) := by
  have sectors : board.sizes.length - b = board.sizes.length - b - 1 + 1 := by omega
  rw [kerSysBcmImageSet_eq found later, sectors, imageLoop, if_neg (fun shared => apart shared.2)]
  exact crash_bind.mpr (.inl (crash_bind.mpr
    (.inl (crash_flashSectorEraseInt.mpr (.inr rfl)))))

theorem final_kerSysBcmImageSet_one (known : b < board.sizes.length) (memory : Nat → UInt8)
    (string : Nat) (chip : Chip) :
    (kerSysBcmImageSet board memory flashStartAddr string (size board.sizes b)).final chip =
      store chip (start board.sizes b) (load memory string (size board.sizes b)) := by
  have sectors : board.sizes.length - b = board.sizes.length - b - 1 + 1 := by omega
  rw [kerSysBcmImageSet_eq found later, sectors, imageLoop_one apart]
  simp only [final_bind, final_pure]
  exact final_sector (length_load _ _ _) chip

end

end EchoLife.Firmware
