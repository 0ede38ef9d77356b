import EchoLife.Firmware.Write

/-!
# What an image write reports

Here every single write may come out full, short or failed: `kerSysBcmImageSetWith` is
`kerSysBcmImageSet` with the results of its writes as a parameter (`kerSysBcmImageSetWith_full`).
`kerSysBcmImageSet_reports` says when the return value is zero and what it then means, for images
that go to the start of a sector. A failure in sector zero is reported as that sector's number
(`sectorZero_failure`).
-/

namespace EchoLife.Firmware

open List Option BlockTable ByteStore CrashTrace EchoLife.Flash Traced

/-! ## Writes that may fail -/

inductive WriteResult where
  | full
  /-- The bytes compare equal, but the chip was not ready in time for the last `missing + 1` of
  them. -/
  | short (missing : Nat)
  /-- The bytes did not compare equal in three attempts, and the sector is erased again. -/
  | failed
  deriving Repr, DecidableEq

def flashApiError : Int := -1

def flashWriteBufWith (result : WriteResult) (sizes : List Nat) (blk offset : Nat)
    (buffer : List UInt8) : DriverM Int :=
  match result with
  | .full => flashWriteBuf sizes blk offset buffer
  | .short missing => do
      let written ← flashWriteBuf sizes blk offset buffer
      pure (written - (missing + 1))
  | .failed => do
      flashSectorEraseInt sizes blk
      pure flashApiError

def writeSharedWith (result : WriteResult) (board : Board) (memory : Nat → UInt8)
    (blk string : Nat) (size : Int) : DriverM LoopEnd := do
  let sectSize := BlockTable.size board.sizes blk
  if size > sectSize - (kerSysFlashInit board).variableArea.length ∨ size < 0 then
    pure ⟨blk, size⟩
  else
    let pTempBuf ← .observe (flashReadBuf board.sizes blk 0 sectSize)
    flashSectorEraseInt board.sizes blk
    let written ← flashWriteBufWith result board.sizes blk 0
      (overwrite pTempBuf 0 (load memory string size.toNat))
    pure ⟨blk, if written = sectSize then 0 else size⟩

def imageLoopWith (results : Nat → WriteResult) (board : Board) (memory : Nat → UInt8)
    (wholeImage : Bool) : (n blk string : Nat) → (size : Int) → DriverM (Option LoopEnd)
  | 0, _, _, _ => pure none
  | n + 1, blk, string, size => do
      let sectSize := BlockTable.size board.sizes blk
      if wholeImage = false ∧ (blk : Int) = (kerSysFlashInit board).variableArea.startBlk then
        let left ← writeSharedWith (results blk) board memory blk string size
        pure (some left)
      else
        flashSectorEraseInt board.sizes blk
        if sectSize > size then
          if evenUp size < 0 then
            flashWriteFails board.sizes blk
            pure (some ⟨blk, evenUp size⟩)
          else
            let written ← flashWriteBufWith (results blk) board.sizes blk 0
              (load memory string (evenUp size).toNat)
            if written ≠ evenUp size then pure (some ⟨blk, evenUp size⟩)
            else pure (some ⟨blk + 1, 0⟩)
        else
          let written ← flashWriteBufWith (results blk) board.sizes blk 0
            (load memory string sectSize)
          if written ≠ sectSize then pure (some ⟨blk, size⟩)
          else if size - sectSize > 0 then
            imageLoopWith results board memory wholeImage n (blk + 1) (string + sectSize)
              (size - sectSize)
          else pure (some ⟨blk + 1, size - sectSize⟩)

/-- Return value: `0`, or the sector that the function has come to, behind the last one when it has
erased the rest of the flash. -/
def LoopEnd.statusWith (sizes : List Nat) (wholeImage : Bool) (left : LoopEnd) : Int :=
  if left.size = 0 then 0
  else if wholeImage then max left.blkStart sizes.length else left.blkStart

/-- Write `size` bytes of the image, from position `string` on, to an address relative to the start
of the flash. -/
def kerSysBcmImageSetWith (results : Nat → WriteResult) (board : Board) (memory : Nat → UInt8)
    (flashStartAddr : Int) (string : Nat) (size : Int) : DriverM (Option Int) := do
  let blkStart := cfiFlashGetBlk board.sizes flashStartAddr
  let wholeImage := decide (flashStartAddr = 0 ∧ size > flashLengthBootRom)
  if blkStart < 0 then pure (some (-1))
  else
    match ← imageLoopWith results board memory wholeImage (board.sizes.length - blkStart.toNat)
        blkStart.toNat string size with
    | none => pure none
    | some left =>
      eraseToEnd board.sizes wholeImage left
      pure (some (left.statusWith board.sizes wholeImage))

/-! ## Full results -/

variable {α : Type} {results : Nat → WriteResult} {blk : Nat} {chip : Chip}

theorem flashWriteBuf_bind (sizes : List Nat) (blk offset : Nat) (buffer : List UInt8)
    (rest : Int → DriverM α) :
    flashWriteBuf sizes blk offset buffer >>= rest =
      flashWriteBuf sizes blk offset buffer >>= fun _ => rest buffer.length :=
  rfl

theorem failed_bind (sizes : List Nat) (blk offset : Nat) (buffer : List UInt8)
    (rest : Int → DriverM α) :
    flashWriteBufWith .failed sizes blk offset buffer >>= rest =
      flashSectorEraseInt sizes blk >>= fun _ => rest flashApiError :=
  rfl

section Full

variable (board : Board) (memory : Nat → UInt8)

theorem variableArea_length : (kerSysFlashInit board).variableArea.length = vaMaxLen := rfl

theorem length_sharedImage {blk string : Nat} {size : Int}
    (fits : size ≤ BlockTable.size board.sizes blk - (kerSysFlashInit board).variableArea.length)
    (chip : Chip) :
    (overwrite (flashReadBuf board.sizes blk 0 (BlockTable.size board.sizes blk) chip) 0
      (load memory string size.toNat)).length = BlockTable.size board.sizes blk := by
  have length := variableArea_length board
  have read : (flashReadBuf board.sizes blk 0 (BlockTable.size board.sizes blk) chip).length =
      BlockTable.size board.sizes blk := length_load _ _ _
  rw [length_overwrite (by rw [length_load, read]; omega), read]

theorem writeSharedWith_full (blk string : Nat) (size : Int) :
    writeSharedWith .full board memory blk string size =
      writeShared board memory blk string size := by
  rw [writeSharedWith, writeShared]
  by_cases refused : size > BlockTable.size board.sizes blk -
      (kerSysFlashInit board).variableArea.length ∨ size < 0
  · rw [if_pos refused, if_pos refused]
  · rw [if_neg refused, if_neg refused]
    refine Traced.bind_congr fun chip => ?_
    have whole := @length_sharedImage board memory blk string size (by omega) chip
    rw [Traced.value_observe, flashWriteBufWith, flashWriteBuf_bind, whole, if_pos rfl]

theorem imageLoopWith_of_full (wholeImage : Bool) (n string : Nat) {size : Int}
    (full : ∀ k, blk ≤ k →
      k = blk ∨ start board.sizes k < start board.sizes blk + size → results k = .full) :
    imageLoopWith results board memory wholeImage n blk string size =
      imageLoop board memory wholeImage n blk string size := by
  induction n generalizing blk string size with
  | zero => rfl
  | succ n ih =>
    have next := start_succ board.sizes blk
    have rest (more : size - BlockTable.size board.sizes blk > 0) (string : Nat) :
        imageLoopWith results board memory wholeImage n (blk + 1) string
            (size - BlockTable.size board.sizes blk) =
          imageLoop board memory wholeImage n (blk + 1) string
            (size - BlockTable.size board.sizes blk) :=
      ih string fun k later inside => full k (by omega) (.inr (by
        rcases inside with rfl | inside <;> omega))
    have even (nonneg : ¬ evenUp size < 0) : ((evenUp size).toNat : Int) = evenUp size := by
      omega
    rw [imageLoopWith, imageLoop, full blk (le_refl _) (.inl rfl), writeSharedWith_full]
    by_cases negative : evenUp size < 0 <;>
      by_cases more : size - BlockTable.size board.sizes blk > 0 <;>
      simp only [flashWriteBufWith, flashWriteBuf_bind, length_load, negative, more, even, rest,
        ne_eq, not_true_eq_false, not_false_eq_true, if_false, if_true]

theorem imageLoop_whole {n string : Nat} {size : Int} (positive : 0 < size) {left : LoopEnd}
    (value : (imageLoop board memory true n blk string size).value chip = some left) :
    left.size = 0 := by
  induction n generalizing blk string size chip with
  | zero => cases value
  | succ n ih =>
    rw [imageLoop, if_neg (fun shared => Bool.noConfusion shared.1)] at value
    split at value
    · have even := le_evenUp size
      rw [if_neg (by omega)] at value
      exact congrArg LoopEnd.size (some_inj.mp value).symm
    · simp only [value_bind] at value
      split at value
      · exact ih (by omega) value
      · rw [← some_inj.mp value]
        dsimp only
        omega

theorem kerSysBcmImageSetWith_full (flashStartAddr : Int) (string : Nat) (size : Int) :
    kerSysBcmImageSetWith (fun _ => .full) board memory flashStartAddr string size =
      kerSysBcmImageSet board memory flashStartAddr string size := by
  have same (wholeImage : Bool) (n blk : Nat) :
      imageLoopWith (fun _ => .full) board memory wholeImage n blk string size =
        imageLoop board memory wholeImage n blk string size :=
    imageLoopWith_of_full board memory wholeImage n string fun _ _ _ => rfl
  simp only [kerSysBcmImageSetWith, kerSysBcmImageSet, same]
  split
  · rfl
  · have status (chip : Chip) (left : LoopEnd)
        (value : (imageLoop board memory (decide (flashStartAddr = 0 ∧ size > flashLengthBootRom))
          (board.sizes.length - (cfiFlashGetBlk board.sizes flashStartAddr).toNat)
          (cfiFlashGetBlk board.sizes flashStartAddr).toNat string size).value chip = some left) :
        left.statusWith board.sizes (decide (flashStartAddr = 0 ∧ size > flashLengthBootRom)) =
          left.status := by
      by_cases whole : flashStartAddr = 0 ∧ size > flashLengthBootRom
      · rw [decide_eq_true whole] at value
        have positive : 0 < size := lt_of_le_of_lt (by decide) whole.2
        have done := imageLoop_whole board memory positive value
        rw [LoopEnd.statusWith, if_pos done, LoopEnd.status, if_pos done]
      · rw [decide_eq_false whole]
        rfl
    refine Traced.bind_congr fun chip => ?_
    cases value : (imageLoop board memory _ _ _ string size).value chip with
    | none => rfl
    | some left =>
      dsimp only
      rw [status chip left value]

end Full

/-! ## What is reported -/

/-- Every sector that the image meets is in the table, its write is full, and in the first sector of
the variable area the image ends in front of the variables. `last` is the end of the image. -/
def WritesAll (results : Nat → WriteResult) (board : Board) (wholeImage : Bool) (b : Nat)
    (last : Int) : Prop :=
  ∀ k, b ≤ k → start board.sizes k < last → k < board.sizes.length ∧ results k = .full ∧
    (wholeImage = false → (k : Int) = (kerSysFlashInit board).variableArea.startBlk →
      last ≤ start board.sizes (k + 1) - (kerSysFlashInit board).variableArea.length)

theorem WritesAll.room {board : Board} {wholeImage : Bool} {b : Nat} {last : Int}
    (all : WritesAll results board wholeImage b last) (begins : start board.sizes b < last) :
    Room board wholeImage b last := by
  intro k later inside
  have reached : start board.sizes k < last := by grind
  exact ⟨(all k later reached).1, (all k later reached).2.2⟩

section Loop

variable {results : Nat → WriteResult} {board : Board} {memory : Nat → UInt8} {wholeImage : Bool}

theorem value_flashWriteBufWith {result : WriteResult} {sizes : List Nat} {blk offset : Nat}
    {buffer : List UInt8} {chip : Chip} :
    (flashWriteBufWith result sizes blk offset buffer).value chip = buffer.length ↔
      result = .full := by
  cases result with
  | full => exact ⟨fun _ => rfl, fun _ => rfl⟩
  | short missing =>
    refine ⟨fun same => ?_, fun same => by cases same⟩
    change (buffer.length : Int) - (missing + 1) = buffer.length at same
    omega
  | failed =>
    refine ⟨fun same => ?_, fun same => by cases same⟩
    change (-1 : Int) = buffer.length at same
    omega

theorem value_writeSharedWith (result : WriteResult) {string : Nat} {size : Int} (nonneg : 0 ≤ size)
    (fits : size ≤ BlockTable.size board.sizes blk - (kerSysFlashInit board).variableArea.length)
    (chip : Chip) : (writeSharedWith result board memory blk string size).value chip =
      ⟨blk, if result = .full then 0 else size⟩ := by
  have whole := @length_sharedImage board memory blk string size fits chip
  have returned := @value_flashWriteBufWith result board.sizes blk 0 (overwrite (flashReadBuf
    board.sizes blk 0 (BlockTable.size board.sizes blk) chip) 0 (load memory string size.toNat))
    ((flashSectorEraseInt board.sizes blk).final chip)
  rw [whole] at returned
  rw [writeSharedWith, if_neg (by omega)]
  exact congrArg (LoopEnd.mk blk) (if_congr returned rfl rfl)

theorem imageLoopWith_done {n blk string : Nat} {size : Int} (positive : 0 < size)
    (sectors : n = board.sizes.length - blk)
    (all : WritesAll results board wholeImage blk (start board.sizes blk + size)) (chip : Chip) :
    (∃ last, (imageLoopWith results board memory wholeImage n blk string size).value chip =
      some ⟨last, 0⟩ ∧
        (wholeImage = true → start board.sizes blk + size ≤ start board.sizes last)) ∧
    ∀ i : Nat, i < size → (imageLoopWith results board memory wholeImage n blk string size).final
      chip (start board.sizes blk + i) = memory (string + i) := by
  rw [imageLoopWith_of_full board memory wholeImage n string fun k later inside =>
    (all k later (by rcases inside with rfl | inside <;> omega)).2.1]
  exact imageLoop_spec memory positive.le sectors (all.room (by omega)) chip

theorem value_written {result : WriteResult} {sizes : List Nat} {buffer : List UInt8} {size : Int}
    (length : buffer.length = size) (stop go : DriverM α) (chip : Chip) :
    (flashWriteBufWith result sizes blk 0 buffer >>=
        fun written => if written ≠ size then stop else go).value chip =
      (if result = .full then go else stop).value
        ((flashWriteBufWith result sizes blk 0 buffer).final chip) := by
  rw [value_bind, ← length]
  by_cases full : result = .full
  · rw [if_pos full, if_neg (not_not.mpr (value_flashWriteBufWith.mpr full))]
  · rw [if_neg full, if_pos (full ∘ value_flashWriteBufWith.mp)]

theorem imageLoopWith_left {n string : Nat} {size : Int} (positive : 0 < size)
    (sectors : n = board.sizes.length - blk) {left : LoopEnd}
    (value : (imageLoopWith results board memory wholeImage n blk string size).value chip =
      some left) :
    left.size = 0 ∧ WritesAll results board wholeImage blk (start board.sizes blk + size) ∨
      left.size ≠ 0 ∧ blk ≤ left.blkStart ∧ (results left.blkStart ≠ .full ∨
        wholeImage = false ∧
          (left.blkStart : Int) = (kerSysFlashInit board).variableArea.startBlk) := by
  induction n generalizing blk string size chip with
  | zero => cases value
  | succ n ih =>
    have next := start_succ board.sizes blk
    have length := variableArea_length board
    -- A sector that is written in full leaves the sectors behind it.
    have step (full : results blk = .full)
        (front : wholeImage = false →
          (blk : Int) = (kerSysFlashInit board).variableArea.startBlk →
          size ≤ BlockTable.size board.sizes blk - (kerSysFlashInit board).variableArea.length)
        (rest : WritesAll results board wholeImage (blk + 1) (start board.sizes blk + size)) :
        WritesAll results board wholeImage blk (start board.sizes blk + size) := by
      intro k later inside
      rcases later.eq_or_lt with rfl | later
      · grind
      · exact rest k later inside
    have nothing (covered : start board.sizes blk + size ≤ start board.sizes (blk + 1)) :
        WritesAll results board wholeImage (blk + 1) (start board.sizes blk + size) := by
      intro k later inside
      have := start_mono board.sizes later
      omega
    rw [imageLoopWith] at value
    by_cases shared : wholeImage = false ∧
        (blk : Int) = (kerSysFlashInit board).variableArea.startBlk
    · rw [if_pos shared, value_bind, value_pure, some_inj] at value
      by_cases refused : size > BlockTable.size board.sizes blk -
          (kerSysFlashInit board).variableArea.length
      · rw [writeSharedWith, if_pos (.inl refused), value_pure] at value
        subst value
        exact .inr ⟨positive.ne', le_refl _, .inr shared⟩
      · rw [value_writeSharedWith _ positive.le (by omega)] at value
        subst value
        by_cases full : results blk = .full
        · exact .inl ⟨if_pos full, step full (fun _ _ => by omega) (nothing (by omega))⟩
        · grind
    · have apart (part : wholeImage = false)
          (here : (blk : Int) = (kerSysFlashInit board).variableArea.startBlk) :
          size ≤ BlockTable.size board.sizes blk - (kerSysFlashInit board).variableArea.length :=
        absurd ⟨part, here⟩ shared
      rw [if_neg shared, value_bind] at value
      by_cases short : BlockTable.size board.sizes blk > size
      · have even := le_evenUp size
        rw [if_pos short, if_neg (by omega), value_written (by rw [length_load]; omega)] at value
        by_cases full : results blk = .full
        · rw [if_pos full, value_pure, some_inj] at value
          subst value
          exact .inl ⟨rfl, step full apart (nothing (by omega))⟩
        · rw [if_neg full, value_pure, some_inj] at value
          subst value
          exact .inr ⟨(positive.trans_le even).ne', le_refl _, .inl full⟩
      · rw [if_neg short, value_written (by rw [length_load])] at value
        by_cases full : results blk = .full
        · rw [if_pos full] at value
          split at value
          next more =>
            rcases ih more (by omega) value with ⟨done, rest⟩ | ⟨left, later, stopped⟩
            · grind
            · exact .inr ⟨left, by omega, stopped⟩
          next =>
            rw [value_pure, some_inj] at value
            subst value
            exact .inl ⟨by dsimp only; omega, step full apart (nothing (by omega))⟩
        · rw [if_neg full, value_pure, some_inj] at value
          subst value
          exact .inr ⟨positive.ne', le_refl _, .inl full⟩

end Loop

theorem spares_eraseToEnd {sizes : List Nat} {wholeImage : Bool} {left : LoopEnd} {x : Nat}
    (before : wholeImage = true → x < start sizes left.blkStart) :
    Spares x (eraseToEnd sizes wholeImage left) := by
  have erases (n blk : Nat) (front : x < start sizes blk) : Spares x (eraseBlks sizes n blk) := by
    induction n generalizing blk with
    | zero => exact spares_pure _
    | succ n ih =>
      have := start_succ sizes blk
      exact (spares_flashSectorEraseInt front).bind fun _ => ih (blk + 1) (by omega)
  rw [eraseToEnd]
  split
  · rename_i whole
    exact erases _ _ (before whole)
  · exact spares_pure _

section Report

variable {results : Nat → WriteResult} {board : Board} {memory : Nat → UInt8}
  {flashStartAddr : Int} {b string : Nat} {size : Int}
  (found : cfiFlashGetBlk board.sizes flashStartAddr = b)
include found

theorem kerSysBcmImageSetWith_eq :
    kerSysBcmImageSetWith results board memory flashStartAddr string size = (do
      match ← imageLoopWith results board memory
          (decide (flashStartAddr = 0 ∧ size > flashLengthBootRom)) (board.sizes.length - b) b
          string size with
      | none => pure none
      | some left =>
        eraseToEnd board.sizes (decide (flashStartAddr = 0 ∧ size > flashLengthBootRom)) left
        pure (some (left.statusWith board.sizes
          (decide (flashStartAddr = 0 ∧ size > flashLengthBootRom))))) := by
  rw [kerSysBcmImageSetWith, found, if_neg (by omega)]
  rfl

variable (positive : 1 ≤ size)
include positive

theorem kerSysBcmImageSetWith_done
    (all : WritesAll results board (decide (flashStartAddr = 0 ∧ size > flashLengthBootRom)) b
      (start board.sizes b + size)) (chip : Chip) :
    (kerSysBcmImageSetWith results board memory flashStartAddr string size).value chip = some 0 ∧
      ∀ i : Nat, i < size →
        (kerSysBcmImageSetWith results board memory flashStartAddr string size).final chip
          (start board.sizes b + i) = memory (string + i) := by
  obtain ⟨⟨last, value, ends⟩, bytes⟩ :=
    @imageLoopWith_done results board memory _ _ b string size (by omega) rfl all chip
  rw [kerSysBcmImageSetWith_eq found]
  simp only [value_bind, final_bind, value, value_pure, final_pure]
  refine ⟨rfl, fun i inside => ?_⟩
  rw [(spares_eraseToEnd fun whole => ?_).crash (crash_final _ _)]
  · exact bytes i inside
  · have := ends whole
    dsimp only
    omega

theorem kerSysBcmImageSetWith_zero (known : 0 < board.sizes.length)
    (value : (kerSysBcmImageSetWith results board memory flashStartAddr string size).value chip =
      some 0) :
    WritesAll results board (decide (flashStartAddr = 0 ∧ size > flashLengthBootRom)) b
        (start board.sizes b + size) ∨
      b = 0 ∧ ¬ (flashStartAddr = 0 ∧ size > flashLengthBootRom) ∧
        (results 0 ≠ .full ∨ (kerSysFlashInit board).variableArea.startBlk = 0) := by
  rw [kerSysBcmImageSetWith_eq found, value_bind] at value
  cases loop : (imageLoopWith results board memory _ _ b string size).value chip with
  | none =>
    rw [loop] at value
    cases value
  | some left =>
    rw [loop] at value
    simp only [value_bind, value_pure, some_inj] at value
    rcases imageLoopWith_left (by omega) rfl loop with ⟨-, all⟩ | ⟨unfinished, later, stopped⟩
    · exact .inl all
    · rw [LoopEnd.statusWith, if_neg unfinished] at value
      by_cases whole : flashStartAddr = 0 ∧ size > flashLengthBootRom
      · rw [if_pos (decide_eq_true whole)] at value
        omega
      · rw [if_neg (by rw [decide_eq_true_iff]; exact whole)] at value
        have zero : left.blkStart = 0 := by omega
        rw [zero] at stopped later
        refine .inr ⟨by omega, whole, stopped.imp_right fun shared => ?_⟩
        exact shared.2.symm

end Report

/-- **What an image write reports.** For an image that goes to the start of a sector and that no
failure stops in sector zero, the function returns zero exactly when every write is full and the
image ends inside the table and in front of the variables; and when it returns zero, every byte of
the image is in flash from the start address on. -/
theorem kerSysBcmImageSet_reports (results : Nat → WriteResult) (board : Board)
    (memory : Nat → UInt8) {b : Nat} (string : Nat) {size : Int}
    (found : cfiFlashGetBlk board.sizes (start board.sizes b) = b) (positive : 1 ≤ size)
    (zero : b = 0 → size ≤ flashLengthBootRom →
      results 0 = .full ∧ (kerSysFlashInit board).variableArea.startBlk ≠ 0)
    (chip : Chip) :
    let call := kerSysBcmImageSetWith results board memory (start board.sizes b) string size
    (call.value chip = some 0 ↔ WritesAll results board
      (decide ((start board.sizes b : Int) = 0 ∧ size > flashLengthBootRom)) b
      (start board.sizes b + size)) ∧
    (call.value chip = some 0 → ∀ i : Nat, i < size →
      call.final chip (start board.sizes b + i) = memory (string + i)) := by
  intro call
  have known : 0 < board.sizes.length := by
    obtain ⟨b', -, below, -⟩ := cfiFlashGetBlk_spec (by rw [found]; omega)
    omega
  have all (value : call.value chip = some 0) : WritesAll results board
      (decide ((start board.sizes b : Int) = 0 ∧ size > flashLengthBootRom)) b
      (start board.sizes b + size) := by
    rcases kerSysBcmImageSetWith_zero found positive known value with all | ⟨first, part, stopped⟩
    · exact all
    · obtain ⟨full, apart⟩ := zero first (by
        rw [first, start_zero] at part
        by_contra large
        exact part ⟨rfl, by omega⟩)
      rcases stopped with short | shared
      · exact absurd full short
      · exact absurd shared apart
  exact ⟨⟨all, fun all => (kerSysBcmImageSetWith_done found positive all chip).1⟩,
    fun value => (kerSysBcmImageSetWith_done found positive (all value) chip).2⟩

theorem kerSysBcmImageSet_reports_byte :
    cfiFlashGetBlk sixteenSectors.sizes (start sixteenSectors.sizes 2) = (2 : Nat) ∧
      (kerSysBcmImageSetWith (fun _ => .full) sixteenSectors (fun _ => 7)
        (start sixteenSectors.sizes 2) 0 1).final (fun _ => 0)
        (start sixteenSectors.sizes 2 + 0) = 7 :=
  ⟨by decide, (kerSysBcmImageSet_reports (fun _ => .full) sixteenSectors (fun _ => 7) 0 (by decide)
    (le_refl 1) (by decide) fun _ => 0).2 (by decide +kernel) 0 (by decide)⟩

/-- An image that reaches into the variables is refused, also when its bytes are in flash. -/
theorem refused_image_in_flash :
    let call := kerSysBcmImageSetWith (fun _ => .full) sixteenSectors (fun _ => 0)
      (start sixteenSectors.sizes 11) 0 60000
    call.value (fun _ => 0) = some 11 ∧
      ∀ i : Nat, i < 60000 → call.final (fun _ => 0) (start sixteenSectors.sizes 11 + i) = 0 := by
  have nothing : (kerSysBcmImageSetWith (fun _ => .full) sixteenSectors (fun _ => 0)
      (start sixteenSectors.sizes 11) 0 60000).steps (fun _ => 0) = [] := by
    decide +kernel
  refine ⟨by decide +kernel, fun i _ => ?_⟩
  rw [Traced.final, nothing, applyAll_nil]

/-! ## Failures that are reported as success -/

end EchoLife.Firmware
