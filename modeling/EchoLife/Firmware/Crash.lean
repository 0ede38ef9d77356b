import EchoLife.Firmware.Bootline

/-!
# Power failures during an update

An update writes the sector of the tag last. The old tag does not know that its image is being
overwritten: where the two images share a sector behind the first one, a power failure leaves the
old tag in front of a mixture (`update_crash_mixes`). `SafeUpdate` lists what an update needs to be
safe: then every power failure leaves no image, an old one or the new one (`update_crash_safe`).
-/

namespace EchoLife.Firmware

open List Option BlockTable ByteStore CrashTrace TableCrc TextSearch EchoLife.Flash Traced

/-! ## Outcomes -/

inductive FirstImage (board : Board) (image : Image) (chip t : Chip) : Prop where
  | kept (tag : getTagFromPartition board.sizes 1 t = getTagFromPartition board.sizes 1 chip)
      (body : ∀ tag, getTagFromPartition board.sizes 1 chip = some tag → ∀ x ∈ imageArea tag,
        t x = chip x)
  | erased (tag : getTagFromPartition board.sizes 1 t = none)
  | written (tag : getTagFromPartition board.sizes 1 t =
        some (image.newTag (newImageSequence board.sizes chip)))
      (body : ∀ x ∈ imageArea (image.newTag (newImageSequence board.sizes chip)),
        t x = image.bytes (newImageSequence board.sizes chip)
          (tagLen + (x - (rootfsAddr (image.newTag (newImageSequence board.sizes chip))).toNat)))

/-- **What the boot loader finds after a power failure**: no image, an image that was in flash
before, or the new one, each with all its bytes. -/
inductive AfterUpdate (board : Board) (stack : List UInt8) (image : Image) (chip t : Chip) :
    Prop where
  | noImage (now : getBootImageTag board.sizes stack t = none)
  | oldImage {n : Nat} {tag : List UInt8} (now : getBootImageTag board.sizes stack t = some tag)
      (before : getTagFromPartition board.sizes n chip = some tag)
      (body : ∀ x ∈ imageArea tag, t x = chip x)
  | newImage (now : getBootImageTag board.sizes stack t =
        some (image.newTag (newImageSequence board.sizes chip)))
      (body : ∀ x ∈ imageArea (image.newTag (newImageSequence board.sizes chip)),
        t x = image.bytes (newImageSequence board.sizes chip)
          (tagLen + (x - (rootfsAddr (image.newTag (newImageSequence board.sizes chip))).toNat)))

theorem getBootImageTag_or (sizes : List Nat) (stack : List UInt8) (chip : Chip) :
    getBootImageTag sizes stack chip = getTagFromPartition sizes 1 chip ∨
      getBootImageTag sizes stack chip = getTagFromPartition sizes 2 chip := by
  rw [getBootImageTag]
  cases getTagFromPartition sizes 1 chip with
  | none =>
    cases getTagFromPartition sizes 2 chip with
    | none => exact .inl rfl
    | some pTag2 => exact .inr rfl
  | some pTag1 =>
    cases getTagFromPartition sizes 2 chip with
    | none => exact .inl rfl
    | some pTag2 =>
      dsimp only
      split_ifs
      · exact .inr rfl
      · exact .inl rfl
      · exact .inr rfl
      · exact .inl rfl

variable {stack nvram : List UInt8} {image : Image} {chip t : Chip} {x i : Nat}

theorem FirstImage.afterUpdate {board : Board} (first : FirstImage board image chip t)
    (second : getTagFromPartition board.sizes 2 t = getTagFromPartition board.sizes 2 chip)
    (area : ∀ tag, getTagFromPartition board.sizes 2 chip = some tag → ∀ x ∈ imageArea tag,
      t x = chip x) : AfterUpdate board stack image chip t := by
  rcases getBootImageTag_or board.sizes stack t with follows | follows
  · cases first with
    | kept tag body =>
      rw [tag] at follows
      cases found : getTagFromPartition board.sizes 1 chip with
      | none => exact .noImage (follows.trans found)
      | some old => exact .oldImage (follows.trans found) found (body old found)
    | erased tag => exact .noImage (follows.trans tag)
    | written tag body => exact .newImage (follows.trans tag) body
  · rw [second] at follows
    cases found : getTagFromPartition board.sizes 2 chip with
    | none => exact .noImage (follows.trans found)
    | some old => exact .oldImage (follows.trans found) found (area old found)

/-! ## What an update touches -/

def variableSectors (board : Board) : Set Nat :=
  {x | (x : Int) ∈ (kerSysFlashInit board).variableArea.sectorBytes board.sizes}

def tagSector (sizes : List Nat) : Nat :=
  (tagBlk sizes 1).toNat

theorem tagStart_one (sizes : List Nat) : tagStart sizes 1 = start sizes (tagSector sizes) := rfl

/-- An address outside the boot sector, outside the sectors of the image, which end in front of
sector `e`, and outside those of the variable area. -/
structure Apart (board : Board) (e x : Nat) : Prop where
  boot : start board.sizes 1 ≤ x
  image : x < tagStart board.sizes 1 ∨ start board.sizes e ≤ x
  outside : x ∉ variableSectors board

structure NewestWins (board : Board) (chip : Chip) : Prop where
  room : nvramDataOffset + sizeofNvramData ≤ start board.sizes 1
  bootline : ∃ k, 2 ≤ k ∧ szBootlineAt + k < ulCheckSumAt ∧
    (nvramData chip)[szBootlineAt + k]? = some 0
  sequence : ∀ n tag, getTagFromPartition board.sizes n chip = some tag →
    (imageSequence tag).toNat + 1 < 2 ^ 31

/-- **A safe update.** The image is accepted and goes to the sector of the first tag, fills at
least that sector and ends in front of sector `e` and the partitions. The image of the first tag
shares no sector behind its first one with the new image; a second tag and its image share none. -/
structure SafeUpdate (board : Board) (chip : Chip) (image : Image) (e : Nat) : Prop where
  accepted : imgSize image.tag ≤ availableSizeOneImg board image.tag
  nonempty : ∀ s ∈ board.sizes, 0 < s
  addressable : total board.sizes < 2 ^ 31
  first : 0 < tagBlk board.sizes 1
  aligned : (rootfsAddr image.tag).toNat = tagStart board.sizes 1 + tagLen
  fields : fieldsEnd image.tag = true
  holdsTag : tagLen ≤ size board.sizes (tagSector board.sizes)
  covers : size board.sizes (tagSector board.sizes) ≤ tagLen + (imgSize image.tag).toNat
  before : tagSector board.sizes + 1 < e
  ends : tagStart board.sizes 1 + (tagLen + (imgSize image.tag).toNat) ≤ start board.sizes e
  below : e ≤ dataBlk board
  firstApart : ∀ tag, getTagFromPartition board.sizes 1 chip = some tag → ∀ x ∈ imageArea tag,
    x ∉ variableSectors board ∧
      (x < start board.sizes (tagSector board.sizes + 1) ∨ start board.sizes e ≤ x)
  tagApart : ∀ x, tagStart board.sizes 2 ≤ x → x < tagStart board.sizes 2 + tagLen →
    Apart board e x
  secondApart : ∀ tag, getTagFromPartition board.sizes 2 chip = some tag → ∀ x ∈ imageArea tag,
    Apart board e x
  newest : getTagFromPartition board.sizes 2 chip ≠ none → NewestWins board chip

theorem signed_eq {n : UInt32} (small : n.toNat < 2 ^ 31) : signed n = n.toNat := by
  rw [signed, BitVec.toInt_eq_toNat_of_lt]
  · rfl
  · change 2 * n.toNat < 2 ^ 32
    omega

theorem toNat_ofNat_eq {n : Nat} (small : n < 2 ^ 31) : (UInt32.ofNat n).toNat = n :=
  UInt32.toNat_ofNat_of_lt' (small.trans (by decide))

section Geometry

variable {board : Board} {chip : Chip} {image : Image} {e : Nat}
  (safe : SafeUpdate board chip image e)
include safe

theorem SafeUpdate.tagBlk_eq : tagBlk board.sizes 1 = tagSector board.sizes :=
  (Int.toNat_of_nonneg safe.first.le).symm

theorem SafeUpdate.tagSector_pos : 0 < tagSector board.sizes := by
  have := safe.first
  rw [safe.tagBlk_eq] at this
  omega

theorem SafeUpdate.start_le (k : Nat) : start board.sizes k < 2 ^ 31 :=
  (start_le_total board.sizes k).trans_lt safe.addressable

theorem SafeUpdate.tagAddr_eq : (tagAddr image.tag).toNat = tagStart board.sizes 1 := by
  have aligned := safe.aligned
  have len : (UInt32.ofNat tagLen).toNat = tagLen := rfl
  rw [tagAddr, UInt32.toNat_sub_of_le _ _ (UInt32.le_iff_toNat_le.mpr (by omega)), len]
  omega

variable (ok : LookupsSucceed board)
include ok

theorem SafeUpdate.known : e ≤ board.sizes.length := by
  obtain ⟨b, e', placed, -⟩ := (descends_partitions ok).exists_placed (variableArea_mem board)
  have lowest := dataBlk_le ok (variableArea_mem board)
  have below := safe.below
  have := placed.startBlk
  have := placed.blk_le
  have := placed.end_le
  omega

theorem SafeUpdate.fsBlk_eq : fsBlk board image.tag = tagSector board.sizes := by
  have small := safe.start_le (tagSector board.sizes)
  have known := safe.known ok
  have before := safe.before
  have addr := safe.tagAddr_eq
  rw [tagStart_one] at addr
  rw [fsBlk, signed_eq (by rw [addr]; exact small), addr,
    cfiFlashGetBlk_start safe.nonempty (by omega)]

theorem SafeUpdate.ulSectorSize_eq :
    ulSectorSize board image.tag = size board.sizes (tagSector board.sizes) := by
  rw [ulSectorSize, safe.fsBlk_eq ok, Int.toNat_natCast]

theorem SafeUpdate.bodyBlk_eq :
    cfiFlashGetBlk board.sizes (bodyAddr board image.tag) = (tagSector board.sizes + 1 : Nat) := by
  have known := safe.known ok
  have before := safe.before
  have next := start_succ board.sizes (tagSector board.sizes)
  have small := safe.start_le (tagSector board.sizes + 1)
  have addr := safe.tagAddr_eq
  rw [tagStart_one] at addr
  have sum : (tagAddr image.tag + UInt32.ofNat (size board.sizes (tagSector board.sizes))).toNat =
      start board.sizes (tagSector board.sizes + 1) := by
    rw [UInt32.toNat_add, addr, toNat_ofNat_eq (by omega)]
    omega
  rw [bodyAddr, safe.ulSectorSize_eq ok, signed_eq (by rw [sum]; exact small), sum,
    cfiFlashGetBlk_start safe.nonempty (by omega)]

theorem SafeUpdate.bodySize_eq : bodySize board image.tag =
    (tagLen + (imgSize image.tag).toNat : Nat) - size board.sizes (tagSector board.sizes) := by
  have covers := safe.covers
  have ends := safe.ends
  have small := safe.start_le e
  have len : (UInt32.ofNat tagLen).toNat = tagLen := rfl
  have whole : (UInt32.ofNat tagLen + imgSize image.tag).toNat =
      tagLen + (imgSize image.tag).toNat := by
    rw [UInt32.toNat_add, len]
    omega
  have sector : (UInt32.ofNat (size board.sizes (tagSector board.sizes))).toNat =
      size board.sizes (tagSector board.sizes) := toNat_ofNat_eq (by omega)
  have rest : (UInt32.ofNat tagLen + imgSize image.tag -
      UInt32.ofNat (size board.sizes (tagSector board.sizes))).toNat =
      tagLen + (imgSize image.tag).toNat - size board.sizes (tagSector board.sizes) := by
    rw [UInt32.toNat_sub_of_le _ _ (UInt32.le_iff_toNat_le.mpr (by omega)), whole, sector]
  rw [bodySize, safe.ulSectorSize_eq ok, signed_eq (by omega), rest]
  omega

theorem SafeUpdate.writtenBelow : WrittenBelow board image.tag e := by
  have pos := safe.tagSector_pos
  have before := safe.before
  have ends := safe.ends
  have next := start_succ board.sizes (tagSector board.sizes)
  rw [tagStart_one] at ends
  constructor
  · rw [safe.fsBlk_eq ok]
    omega
  · rw [safe.fsBlk_eq ok]
    omega
  · rw [safe.bodyBlk_eq ok]
    omega
  · rw [safe.bodyBlk_eq ok]
    omega
  · rw [safe.bodyBlk_eq ok, safe.bodySize_eq ok, Int.toNat_natCast]
    omega

end Geometry

section Phases

variable {call rest : DriverM (Option Int)} {x : Nat}

theorem spares_ifOk (first : Spares x call) (second : Spares x rest) :
    Spares x (ifOk call rest) := by
  refine first.bind fun status => ?_
  split
  · exact second
  · exact spares_pure _

theorem spares_regardless (first : Spares x call) (second : Spares x rest) :
    Spares x (regardless call rest) := by
  refine first.bind fun status => ?_
  split
  · exact spares_pure _
  · exact second

variable {board : Board}

theorem spares_markDone
    (flag : ∀ digit, Spares x (kerSysVariableSet board (acFlag digit) flagOffset))
    (behind : start board.sizes 1 ≤ x) : Spares x (markDone board stack nvram) :=
  spares_regardless ((within_setBootline stack nvram).spares (.inr behind))
    (spares_regardless (flag _) (spares_pure _))

theorem crash_writeImage {sequence : UInt32} (found : 0 ≤ fsBlk board image.tag)
    (crash : (writeImage board stack nvram image sequence).Crash chip t) :
    (writeBody board image sequence).Crash chip t ∨
      (writeTag board image sequence).Crash ((writeBody board image sequence).final chip) t ∨
      (markDone board stack nvram).Crash ((writeTag board image sequence).final
        ((writeBody board image sequence).final chip)) t := by
  rw [writeImage, if_neg (by omega)] at crash
  rcases crash_ifOk crash with body | ⟨-, crash⟩
  · exact .inl body
  · exact .inr ((crash_ifOk crash).imp_right And.right)

theorem crash_flashFsKernelImage (ok : LookupsSucceed board)
    (accepted : imgSize image.tag ≤ availableSizeOneImg board image.tag) {s : Chip}
    (marked : s = store chip (flagAddr board) (acFlag 0x33))
    (crash : (flashFsKernelImage board stack image).Crash chip t) :
    (kerSysVariableSet board (acFlag 0x33) flagOffset).Crash chip t ∨
      (writeImage board stack (nvramData chip) image (newImageSequence board.sizes s)).Crash
        s t := by
  rw [flashFsKernelImage, crash_bind, value_observe, final_observe,
    if_neg (UInt32.not_lt.mpr accepted)] at crash
  rcases crash with unchanged | crash
  · rw [crash_observe] at unchanged
    exact .inl (unchanged ▸ crash_start _ _)
  · rcases crash_regardless crash with flag | ⟨-, crash⟩
    · exact .inl flag
    · rw [(kerSysVariableSet_flag ok 0x33 chip).2, ← marked, crash_bind,
        value_observe, final_observe, crash_observe] at crash
      rcases crash with unchanged | crash
      · rw [unchanged]
        exact .inr (crash_start _ _)
      · exact .inr crash

end Phases

section Failures

variable {board : Board} {chip : Chip} {image : Image} {e : Nat} (ok : LookupsSucceed board)
include ok

theorem spares_flag (outside : x ∉ variableSectors board) (digit : UInt8) :
    Spares x (kerSysVariableSet board (acFlag digit) flagOffset) := by
  obtain ⟨b, e', placed, -⟩ := (descends_partitions ok).exists_placed (variableArea_mem board)
  refine (placed.owns.within_partSet (acFlag digit) flagOffset).spares ?_
  by_contra inside
  refine outside ?_
  rw [variableSectors, Set.mem_ofPred_eq, placed.sectorBytes_eq]
  exact ⟨by omega, by omega⟩

variable (safe : SafeUpdate board chip image e)
include safe

theorem SafeUpdate.not_mem_variableSectors (before : x < start board.sizes e) :
    x ∉ variableSectors board := by
  obtain ⟨b, e', placed, -⟩ := (descends_partitions ok).exists_placed (variableArea_mem board)
  have lowest := dataBlk_le ok (variableArea_mem board)
  have below := safe.below
  have first := placed.startBlk
  have behind := start_mono board.sizes (show e ≤ b by omega)
  rw [variableSectors, Set.mem_ofPred_eq, placed.sectorBytes_eq]
  intro inside
  have := inside.1
  omega

theorem SafeUpdate.below_variableArea :
    (e : Int) ≤ (kerSysFlashInit board).variableArea.startBlk := by
  have lowest := dataBlk_le ok (variableArea_mem board)
  have below := safe.below
  omega

theorem SafeUpdate.spares_writeBody (sequence : UInt32)
    (outside : x < start board.sizes (tagSector board.sizes + 1) ∨ start board.sizes e ≤ x) :
    Spares x (writeBody board image sequence) := by
  have ends := (safe.writtenBelow ok).body_ends
  rw [safe.bodyBlk_eq ok, Int.toNat_natCast] at ends
  exact (within_kerSysBcmImageSet _ (safe.below_variableArea ok) _ (safe.bodyBlk_eq ok)
    (Nat.succ_pos _) safe.before ends).spares outside

theorem SafeUpdate.spares_writeTag (sequence : UInt32)
    (outside : x < tagStart board.sizes 1 ∨ start board.sizes (tagSector board.sizes + 1) ≤ x) :
    Spares x (writeTag board image sequence) := by
  have inside := within_writeTag (safe.below_variableArea ok) (safe.writtenBelow ok) sequence
  rw [safe.fsBlk_eq ok, Int.toNat_natCast] at inside
  exact inside.spares outside

/-- **What an update touches**: the boot sector, the sectors of the image and those of the variable
area. -/
theorem SafeUpdate.spares_update (apart : Apart board e x) (stack : List UInt8) :
    Spares x (flashFsKernelImage board stack image) := by
  have flag := spares_flag ok apart.outside
  have before := start_mono board.sizes safe.before.le
  have next := start_succ board.sizes (tagSector board.sizes)
  have image := apart.image
  rw [tagStart_one] at image
  refine (spares_observe _).bind fun nvram => ?_
  split
  · exact spares_pure _
  · refine spares_regardless (flag _) ((spares_observe _).bind fun sequence => ?_)
    rw [writeImage]
    split
    · exact spares_pure _
    · exact spares_ifOk (safe.spares_writeBody ok sequence (by omega))
        (spares_ifOk (safe.spares_writeTag ok sequence (image.imp id (by omega)))
          (spares_markDone flag apart.boot))

theorem SafeUpdate.kept
    (same : ∀ x, x ∉ variableSectors board →
      (x < start board.sizes (tagSector board.sizes + 1) ∨ start board.sizes e ≤ x) →
      t x = chip x) : FirstImage board image chip t := by
  have holds := safe.holdsTag
  have next := start_succ board.sizes (tagSector board.sizes)
  have before := start_mono board.sizes safe.before.le
  have front (x : Nat) (inside : x < tagStart board.sizes 1 + tagLen) :
      x < start board.sizes (tagSector board.sizes + 1) := by
    rw [tagStart_one] at inside
    omega
  refine .kept (getTagFromPartition_congr fun x _ upper => ?_) fun tag found x inside => ?_
  · have early := front x upper
    exact same x (safe.not_mem_variableSectors ok (early.trans_le before)) (.inl early)
  · obtain ⟨outside, apart⟩ := safe.firstApart tag found x inside
    exact same x outside apart

omit ok in
theorem SafeUpdate.written
    (bytes : ∀ i < tagLen + (imgSize image.tag).toNat,
      t (tagStart board.sizes 1 + i) = image.bytes (newImageSequence board.sizes chip) i) :
    getTagFromPartition board.sizes 1 t =
        some (image.newTag (newImageSequence board.sizes chip)) ∧
      ∀ x ∈ imageArea (image.newTag (newImageSequence board.sizes chip)),
        t x = image.bytes (newImageSequence board.sizes chip)
          (tagLen + (x - (rootfsAddr
            (image.newTag (newImageSequence board.sizes chip))).toNat)) := by
  have length := image.length_newTag (newImageSequence board.sizes chip)
  have tag : load t (tagStart board.sizes 1) tagLen =
      image.newTag (newImageSequence board.sizes chip) := by
    refine ext_getElem? fun i => ?_
    rw [getElem?_load]
    by_cases inside : i < tagLen
    · rw [if_pos inside, bytes i (by omega), Image.bytes, List.getD,
        getElem?_append_left (by omega), getElem?_eq_getElem (by omega)]
      rfl
    · rw [if_neg inside, getElem?_eq_none (by omega)]
  constructor
  · rw [getTagFromPartition_eq safe.first, tag, image.tagOk_newTag, if_pos rfl]
  · intro x inside
    rw [imageArea, Image.rootfsAddr_newTag _ safe.fields, Image.imgSize_newTag _ safe.fields,
      safe.aligned] at inside
    obtain ⟨lower, upper⟩ := inside
    have position : tagStart board.sizes 1 + (tagLen + (x - (tagStart board.sizes 1 + tagLen))) =
        x := by omega
    rw [Image.rootfsAddr_newTag _ safe.fields, safe.aligned, ← bytes _ (by omega), position]

theorem SafeUpdate.bytes_written (sequence : UInt32) (s : Chip)
    (inside : i < tagLen + (imgSize image.tag).toNat) :
    (writeTag board image sequence).final ((writeBody board image sequence).final s)
      (tagStart board.sizes 1 + i) = image.bytes sequence i := by
  have below := safe.below_variableArea ok
  have known := safe.known ok
  have before := safe.before
  have next := start_succ board.sizes (tagSector board.sizes)
  have sector := safe.ulSectorSize_eq ok
  have bodySize := safe.bodySize_eq ok
  have clear := safe.writtenBelow ok
  rw [tagStart_one]
  by_cases first : i < size board.sizes (tagSector board.sizes)
  · have last := start_mono board.sizes before.le
    have fits : (start board.sizes (tagSector board.sizes) : Int) + ulSectorSize board image.tag ≤
        start board.sizes e := by omega
    have tag := (kerSysBcmImageSet_spec (image.bytes sequence) below 0 (safe.fsBlk_eq ok)
      safe.tagSector_pos (by omega) fits (by omega) known
      ((writeBody board image sequence).final s)).2 i (by omega)
    rw [Nat.zero_add] at tag
    exact tag
  · rw [(safe.spares_writeTag ok sequence (.inr (by omega))).crash (crash_final _ _)]
    have ends := clear.body_ends
    rw [safe.bodyBlk_eq ok, Int.toNat_natCast] at ends
    have body := (kerSysBcmImageSet_spec (image.bytes sequence) below
      (ulSectorSize board image.tag) (safe.bodyBlk_eq ok) (Nat.succ_pos _) before ends
      (by omega) known s).2 (i - size board.sizes (tagSector board.sizes)) (by omega)
    rw [next, Nat.add_assoc, sector, Nat.add_sub_cancel' (by omega)] at body
    rw [writeBody, sector]
    exact body

theorem SafeUpdate.newImageSequence_marked :
    newImageSequence board.sizes (store chip (flagAddr board) (acFlag 0x33)) =
      newImageSequence board.sizes chip := by
  have same (x : Nat) (outside : x ∉ variableSectors board) :
      store chip (flagAddr board) (acFlag 0x33) x = chip x := by
    rw [← (kerSysVariableSet_flag ok 0x33 chip).2]
    exact (spares_flag ok outside 0x33).crash (crash_final _ _)
  have holds := safe.holdsTag
  have next := start_succ board.sizes (tagSector board.sizes)
  have before := start_mono board.sizes safe.before.le
  have first : getTagFromPartition board.sizes 1 (store chip (flagAddr board) (acFlag 0x33)) =
      getTagFromPartition board.sizes 1 chip := by
    refine getTagFromPartition_congr fun x _ upper => ?_
    rw [tagStart_one] at upper
    exact same x (safe.not_mem_variableSectors ok (by omega))
  have second : getTagFromPartition board.sizes 2 (store chip (flagAddr board) (acFlag 0x33)) =
      getTagFromPartition board.sizes 2 chip :=
    getTagFromPartition_congr fun x lower upper => same x (safe.tagApart x lower upper).outside
  rw [newImageSequence, first, second, newImageSequence]

theorem SafeUpdate.written_markDone {s : Chip}
    (crash : (markDone board stack nvram).Crash
      ((writeTag board image (newImageSequence board.sizes chip)).final
        ((writeBody board image (newImageSequence board.sizes chip)).final s)) t) :
    ∀ i < tagLen + (imgSize image.tag).toNat,
      t (tagStart board.sizes 1 + i) = image.bytes (newImageSequence board.sizes chip) i := by
  intro i inside
  have ends := safe.ends
  have boot := start_mono board.sizes (show 1 ≤ _ from safe.tagSector_pos)
  rw [← safe.bytes_written ok _ s inside]
  refine (spares_markDone (spares_flag ok ?_) ?_).crash crash
  · exact safe.not_mem_variableSectors ok (by omega)
  · rw [tagStart_one]
    omega

theorem SafeUpdate.firstImage (crash : (flashFsKernelImage board stack image).Crash chip t) :
    FirstImage board image chip t := by
  have flag := (kerSysVariableSet_flag ok 0x33 chip).2
  have found := safe.fsBlk_eq ok
  have known := safe.known ok
  have before := safe.before
  have later := safe.below_variableArea ok
  have sector := safe.ulSectorSize_eq ok
  rcases crash_flashFsKernelImage ok safe.accepted flag crash with marking | crash
  · exact safe.kept ok fun x outside _ => (spares_flag ok outside 0x33).crash marking
  · have marked (x : Nat) (outside : x ∉ variableSectors board) :
        (kerSysVariableSet board (acFlag 0x33) flagOffset).final chip x = chip x :=
      (spares_flag ok outside 0x33).crash (crash_final _ _)
    rw [flag, safe.newImageSequence_marked ok, ← flag] at crash
    rcases crash_writeImage (by omega) crash with body | tag | done
    · refine safe.kept ok fun x outside apart => ?_
      rw [(safe.spares_writeBody ok _ apart).crash body, marked x outside]
    · rw [writeTag, sector] at tag
      rcases crash_kerSysBcmImageSet_one found safe.tagSector_pos (by omega) (by omega) tag with
        same | erased | written
      · refine safe.kept ok fun x outside apart => ?_
        rw [same, (safe.spares_writeBody ok _ apart).crash (crash_final _ _),
          marked x outside]
      · refine .erased ?_
        have holds := safe.holdsTag
        have blank := load_store_inside ((writeBody board image
          (newImageSequence board.sizes chip)).final
          ((kerSysVariableSet board (acFlag 0x33) flagOffset).final chip))
          (start board.sizes (tagSector board.sizes)) 0 tagLen
          (replicate (size board.sizes (tagSector board.sizes)) 0xFF)
          (by rw [length_replicate]; omega)
        rw [drop_zero, take_replicate, min_eq_left holds, Nat.add_zero] at blank
        rw [getTagFromPartition_eq safe.first, erased, tagStart_one, blank, not_tagOk_erased]
        rfl
      · rw [← final_kerSysBcmImageSet_one found safe.tagSector_pos (by omega) (by omega),
          ← sector] at written
        have bytes (i : Nat) (inside : i < tagLen + (imgSize image.tag).toNat) :
            t (tagStart board.sizes 1 + i) =
              image.bytes (newImageSequence board.sizes chip) i := by
          rw [written]
          exact safe.bytes_written ok _ _ inside
        exact .written (safe.written bytes).1 (safe.written bytes).2
    · have bytes := safe.written_markDone ok done
      exact .written (safe.written bytes).1 (safe.written bytes).2

theorem SafeUpdate.second_kept (crash : (flashFsKernelImage board stack image).Crash chip t) :
    getTagFromPartition board.sizes 2 t = getTagFromPartition board.sizes 2 chip ∧
      ∀ tag, getTagFromPartition board.sizes 2 chip = some tag → ∀ x ∈ imageArea tag,
        t x = chip x :=
  ⟨getTagFromPartition_congr fun x lower upper =>
      (safe.spares_update ok (safe.tagApart x lower upper) stack).crash crash,
    fun tag found x inside =>
      (safe.spares_update ok (safe.secondApart tag found x inside) stack).crash crash⟩

theorem SafeUpdate.final_eq (stack : List UInt8) :
    (flashFsKernelImage board stack image).final chip =
      (markDone board stack (nvramData chip)).final
        ((writeTag board image (newImageSequence board.sizes chip)).final
          ((writeBody board image (newImageSequence board.sizes chip)).final
            ((kerSysVariableSet board (acFlag 0x33) flagOffset).final chip))) := by
  have flag := (kerSysVariableSet_flag ok 0x33 chip).2
  have nonneg : 0 ≤ bodySize board image.tag := by
    have covers := safe.covers
    rw [safe.bodySize_eq ok]
    omega
  rw [final_update (safe.below_variableArea ok) (safe.writtenBelow ok) nonneg (safe.known ok) ok
    safe.accepted stack flag, flag, safe.newImageSequence_marked ok]

theorem SafeUpdate.nvramData_final
    (room : nvramDataOffset + sizeofNvramData ≤ start board.sizes 1) (stack : List UInt8) :
    nvramData ((flashFsKernelImage board stack image).final chip) =
      match otherPartition stack (nvramData chip) with
      | none => nvramData chip
      | some i => nvramLatest (nvramData chip) i := by
  have length := length_nvramData chip
  have first := start_mono board.sizes (show 1 ≤ _ from safe.tagSector_pos)
  have next := start_succ board.sizes (tagSector board.sizes)
  have last := start_mono board.sizes safe.before.le
  have flagBehind : nvramDataOffset + sizeofNvramData ≤ flagAddr board := by
    have data := start_dataBlk_le ok (variableArea_mem board)
    have below := start_mono board.sizes safe.below
    rw [flagAddr]
    omega
  rw [safe.final_eq ok, final_markDone ok room stack length]
  generalize written : (writeTag board image _).final _ = s
  have unchanged : nvramData s = nvramData chip := by
    refine load_congr fun x lower upper => ?_
    rw [← written, (safe.spares_writeTag ok _ (.inl (by rw [tagStart_one]; omega))).crash
        (crash_final _ _),
      (safe.spares_writeBody ok _ (.inl (by omega))).crash (crash_final _ _)]
    exact (spares_flag ok (safe.not_mem_variableSectors ok (by omega)) 0x33).crash
      (crash_final _ _)
  rw [nvramData, load_store_of_disjoint (.inl flagBehind), (setBootline_spec room stack length s).2]
  cases otherPartition stack (nvramData chip) with
  | none => exact unchanged
  | some i =>
    have size := length_nvramLatest length i
    rw [← size]
    exact load_store_self _ _ _

omit ok in
theorem SafeUpdate.sequence_lt {second : List UInt8}
    (found : getTagFromPartition board.sizes 2 chip = some second) :
    (imageSequence second).toNat < (newImageSequence board.sizes chip).toNat ∧
      (newImageSequence board.sizes chip).toNat < 2 ^ 31 := by
  have counted := (safe.newest (by rw [found]; exact some_ne_none _)).sequence
  have secondSmall := counted 2 second found
  have firstSmall :
      (((getTagFromPartition board.sizes 1 chip).map imageSequence).getD 0).toNat + 1 < 2 ^ 31 := by
    cases tag : getTagFromPartition board.sizes 1 chip with
    | none => decide
    | some first => exact counted 1 first tag
  have next {n : UInt32} (small : n.toNat + 1 < 2 ^ 31) : (n + 1).toNat = n.toNat + 1 := by
    exact Nat.mod_eq_of_lt (small.trans (by decide))
  rw [newImageSequence, found]
  dsimp only
  split
  · rw [next secondSmall]
    omega
  · rename_i le
    rw [next firstSmall]
    have := UInt32.le_iff_toNat_le.mp (UInt32.not_lt.mp le)
    omega

omit ok in
theorem SafeUpdate.newest_wins {second : List UInt8}
    (found : getTagFromPartition board.sizes 2 chip = some second)
    (first : getTagFromPartition board.sizes 1 t =
      some (image.newTag (newImageSequence board.sizes chip)))
    (same : getTagFromPartition board.sizes 2 t = some second)
    (latest : bootPartition stack t = bootLatestImage) :
    getBootImageTag board.sizes stack t =
      some (image.newTag (newImageSequence board.sizes chip)) := by
  obtain ⟨above, small⟩ := safe.sequence_lt found
  have new : (newImageSequence board.sizes chip).toBitVec.toInt =
      (newImageSequence board.sizes chip).toNat := signed_eq small
  have old : (imageSequence second).toBitVec.toInt = (imageSequence second).toNat :=
    signed_eq (above.trans small)
  rw [getBootImageTag, first, same]
  dsimp only
  rw [if_pos latest, image.imageSequence_newTag small, new, old, if_neg (by omega)]

/-- **Power failures during a safe update.** Whenever the power fails, the boot loader finds no
image, an image that was in flash before with all its bytes, or the new image with all its bytes.
After the complete update it finds the new one. -/
theorem update_crash_safe (stack : List UInt8) :
    (∀ t, (flashFsKernelImage board stack image).Crash chip t →
      AfterUpdate board stack image chip t) ∧
    getBootImageTag board.sizes stack ((flashFsKernelImage board stack image).final chip) =
      some (image.newTag (newImageSequence board.sizes chip)) := by
  constructor
  · intro t crash
    obtain ⟨second, area⟩ := safe.second_kept ok crash
    exact (safe.firstImage ok crash).afterUpdate second area
  · have bytes : ∀ i < tagLen + (imgSize image.tag).toNat,
        (flashFsKernelImage board stack image).final chip (tagStart board.sizes 1 + i) =
          image.bytes (newImageSequence board.sizes chip) i := by
      rw [safe.final_eq ok stack]
      exact safe.written_markDone ok (Traced.crash_final _ _)
    have first := (safe.written bytes).1
    have second := (safe.second_kept ok (Traced.crash_final
      (flashFsKernelImage board stack image) chip)).1
    cases found : getTagFromPartition board.sizes 2 chip with
    | none =>
      rw [getBootImageTag_first stack (second.trans found), first]
    | some tag =>
      have newest := safe.newest (by rw [found]; exact some_ne_none _)
      obtain ⟨k, late, inside, nul⟩ := newest.bootline
      exact safe.newest_wins found first (second.trans found)
        (bootPartition_updated stack late inside nul (safe.nvramData_final ok newest.room stack))

end Failures

/-! ## Images on sixteen sectors -/

def imageAddr : Nat := 0x20000

def flashed (tag body : List UInt8) : Chip :=
  store (fun _ => 0xFF) imageAddr (setTagToken tag ++ body)

section Flashed

variable {tag body : List UInt8} (length : tag.length = tagLen)
include length

theorem load_flashed : load (flashed tag body) imageAddr tagLen = setTagToken tag := by
  have whole := load_store_inside (fun _ => 0xFF) imageAddr 0 tagLen (setTagToken tag ++ body)
    (by rw [length_append, length_setTagToken length]; omega)
  rw [Nat.add_zero, drop_zero, take_left' (length_setTagToken length)] at whole
  exact whole

theorem flashed_byte {n : Nat} {v : UInt8} (inside : i < n) :
    flashed tag (replicate n v) (imageAddr + (tagLen + i)) = v := by
  have size := length_setTagToken length
  rw [flashed, store, if_pos (Nat.le_add_right _ _), Nat.add_sub_cancel_left, List.getD,
    getElem?_append_right (by omega), size, Nat.add_sub_cancel_left,
    getElem?_replicate_of_lt inside]
  rfl

theorem first_flashed (same : load t imageAddr tagLen = load (flashed tag body) imageAddr tagLen) :
    getTagFromPartition sixteenSectors.sizes 1 t = some (setTagToken tag) := by
  have addr : tagStart sixteenSectors.sizes 1 = imageAddr := by decide
  rw [getTagFromPartition_eq (by decide), addr, same, load_flashed length,
    tagOk_setTagToken length, if_pos rfl]

omit length in
theorem second_erased (erased : load t 0x80000 tagLen = replicate tagLen 0xFF) :
    getTagFromPartition sixteenSectors.sizes 2 t = none := by
  have addr : tagStart sixteenSectors.sizes 2 = 0x80000 := by decide
  rw [getTagFromPartition_eq (by decide), addr, erased, not_tagOk_erased]
  rfl

theorem load_second_flashed (short : body.length ≤ 0x50000) :
    load (flashed tag body) 0x80000 tagLen = replicate tagLen 0xFF := by
  rw [flashed, load_store_of_disjoint, load_const]
  rw [length_append, length_setTagToken length]
  have : imageAddr + (tagLen + 0x50000) ≤ 0x80000 := by decide
  omega

end Flashed

theorem not_mem_variableSectors_sixteenSectors (before : x < 0xB0000 ∨ 0xC0000 ≤ x) :
    x ∉ variableSectors sixteenSectors := by
  intro inside
  have lower : sectorAddr sixteenSectors.sizes
      (kerSysFlashInit sixteenSectors).variableArea.startBlk = 0xB0000 := by decide
  have upper : sectorAddr sixteenSectors.sizes
      ((kerSysFlashInit sixteenSectors).variableArea.startBlk +
        (kerSysFlashInit sixteenSectors).variableArea.numberBlk) = 0xC0000 := by decide
  have := inside.1
  have := inside.2
  omega

def smallImage : Chip :=
  flashed (sampleTag "100") (replicate 100 1)

theorem safeUpdate_smallImage : SafeUpdate sixteenSectors smallImage twoSectors 4 := by
  have length : (sampleTag "100").length = tagLen := by decide +kernel
  have first : getTagFromPartition sixteenSectors.sizes 1 smallImage =
      some (setTagToken (sampleTag "100")) := first_flashed length rfl
  have second : getTagFromPartition sixteenSectors.sizes 2 smallImage = none :=
    second_erased (load_second_flashed length (by decide))
  constructor
  case firstApart =>
    intro tag found x inside
    rw [first, some_inj] at found
    subst found
    have addr : (rootfsAddr (setTagToken (sampleTag "100"))).toNat = 0x20100 := by decide +kernel
    have size : (imgSize (setTagToken (sampleTag "100"))).toNat = 100 := by decide +kernel
    have next : start sixteenSectors.sizes (tagSector sixteenSectors.sizes + 1) = 0x30000 := by
      decide
    rw [imageArea, addr, size] at inside
    have upper := inside.2
    exact ⟨not_mem_variableSectors_sixteenSectors (.inl (by omega)), .inl (by omega)⟩
  case tagApart =>
    intro x lower upper
    have addr : tagStart sixteenSectors.sizes 2 = 0x80000 := by decide
    have boot : start sixteenSectors.sizes 1 = 0x10000 := by decide
    have image : start sixteenSectors.sizes 4 = 0x40000 := by decide
    have tag : tagLen = 0x100 := rfl
    exact ⟨by omega, .inr (by omega), not_mem_variableSectors_sixteenSectors (.inl (by omega))⟩
  case secondApart =>
    intro tag found
    rw [second] at found
    cases found
  case newest => exact fun valid => absurd second valid
  all_goals decide +kernel

theorem update_crash_safe_smallImage :
    LookupsSucceed sixteenSectors ∧ SafeUpdate sixteenSectors smallImage twoSectors 4 ∧
      getBootImageTag sixteenSectors.sizes []
        ((flashFsKernelImage sixteenSectors [] twoSectors).final smallImage) =
          some (twoSectors.newTag (newImageSequence sixteenSectors.sizes smallImage)) :=
  ⟨by decide, safeUpdate_smallImage,
    (update_crash_safe (by decide) safeUpdate_smallImage []).2⟩

/-! ## An image that is overwritten while its tag is valid -/

theorem crash_update_erase {board : Board} (ok : LookupsSucceed board)
    (accepted : imgSize image.tag ≤ availableSizeOneImg board image.tag)
    (found : 0 ≤ fsBlk board image.tag) {b : Nat}
    (body : cfiFlashGetBlk board.sizes (bodyAddr board image.tag) = b) (later : 0 < b)
    (apart : (b : Int) ≠ (kerSysFlashInit board).variableArea.startBlk)
    (known : b < board.sizes.length) (stack : List UInt8) (chip : Chip) :
    (flashFsKernelImage board stack image).Crash chip
      (store (store chip (flagAddr board) (acFlag 0x33)) (start board.sizes b)
        (replicate (size board.sizes b) 0xFF)) := by
  obtain ⟨value, final⟩ := kerSysVariableSet_flag ok 0x33 chip
  rw [flashFsKernelImage, crash_bind, value_observe, final_observe,
    if_neg (UInt32.not_lt.mpr accepted), regardless, crash_bind, value, final, if_neg (some_ne_none _),
    crash_bind, final_observe, writeImage, if_neg (by omega), ifOk,
    crash_bind]
  exact .inr (.inr (.inr (.inl (crash_kerSysBcmImageSet_erase body later apart known _ _ _ _))))

def largeImage : Chip :=
  flashed (sampleTag "65536") (replicate 65536 1)

def largeTag : List UInt8 :=
  setTagToken (sampleTag "65536")

theorem largeImage_byte (at_x : imageAddr + (tagLen + i) = x) (inside : i < 65536) :
    largeImage x = 1 := by
  rw [← at_x]
  exact flashed_byte twoSectors.length_tag inside

theorem mem_imageArea_largeTag (lower : 0x20100 ≤ x) (upper : x < 0x30100) :
    x ∈ imageArea largeTag := by
  have addr : (rootfsAddr largeTag).toNat = 0x20100 := by decide +kernel
  have size : (imgSize largeTag).toNat = 0x10000 := by decide +kernel
  rw [imageArea, addr, size]
  exact ⟨lower, upper⟩

theorem update_crash_mixes :
    imgSize twoSectors.tag ≤ availableSizeOneImg sixteenSectors twoSectors.tag ∧
      getBootImageTag sixteenSectors.sizes [] largeImage = some largeTag ∧
      ∃ t, (flashFsKernelImage sixteenSectors [] twoSectors).Crash largeImage t ∧
        getBootImageTag sixteenSectors.sizes [] t = some largeTag ∧
        (0x20100 ∈ imageArea largeTag ∧ largeImage 0x20100 = 1 ∧ t 0x20100 = 1) ∧
        (0x30000 ∈ imageArea largeTag ∧ largeImage 0x30000 = 1 ∧ t 0x30000 = 0xFF) := by
  have length := twoSectors.length_tag
  have accepted : imgSize twoSectors.tag ≤ availableSizeOneImg sixteenSectors twoSectors.tag := by
    decide +kernel
  have body : cfiFlashGetBlk sixteenSectors.sizes (bodyAddr sixteenSectors twoSectors.tag) =
      (3 : Nat) := by
    decide +kernel
  have erased : load largeImage 0x80000 tagLen = replicate tagLen 0xFF :=
    load_second_flashed length (by rw [length_replicate]; decide)
  have flag : flagAddr sixteenSectors = 0xBE100 := by decide
  have sector : start sixteenSectors.sizes 3 = 0x30000 := by decide
  have size : size sixteenSectors.sizes 3 = 0x10000 := by decide
  have crash := crash_update_erase (by decide) accepted (by decide +kernel) body (by decide)
    (by decide) (by decide) [] largeImage
  rw [flag, sector, size] at crash
  -- Neither the flag nor the erased sector meets a tag.
  have same {a : Nat} (apart : a + tagLen ≤ 0x30000 ∨ 0x40000 ≤ a ∧ a + tagLen ≤ 0xBE100) :
      load (store (store largeImage 0xBE100 (acFlag 0x33)) 0x30000
        (replicate 0x10000 0xFF)) a tagLen = load largeImage a tagLen := by
    rw [load_store_of_disjoint, load_store_of_disjoint]
    · omega
    · rw [length_replicate]
      omega
  refine ⟨accepted, ?_, _, crash, ?_, ⟨?_, ?_, ?_⟩, ⟨?_, ?_, ?_⟩⟩
  · rw [getBootImageTag_first [] (second_erased erased)]
    exact first_flashed length rfl
  · rw [getBootImageTag_first [] (second_erased ((same (.inr (by decide))).trans erased))]
    exact first_flashed length (same (.inl (by decide)))
  · exact mem_imageArea_largeTag (by omega) (by omega)
  · exact largeImage_byte (i := 0) rfl (by omega)
  · rw [store_apply_of_lt _ (by omega), store_apply_of_lt _ (by omega)]
    exact largeImage_byte (i := 0) rfl (by omega)
  · exact mem_imageArea_largeTag (by omega) (by omega)
  · exact largeImage_byte (i := 0xFF00) rfl (by omega)
  · rw [store_apply_inside (by omega) (by rw [length_replicate]; omega),
      getElem_replicate]

end EchoLife.Firmware
