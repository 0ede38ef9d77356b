import EchoLife.Flash.Device

/-!
# Programming a sector word by word

`cfi_flash_write_buf` programs a buffer into a sector and compares. When they differ it erases the
whole sector and programs the buffer again, up to three times (`cfiFlashWriteLoop_spec`). The bytes
around the buffer are lost with the first erase (`cfiFlashWriteBuf_keeps_iff`). On an erased range
and without failures the function is the one write step of `Flash.Device`
(`cfiFlashWriteBuf_refines`).
-/

namespace EchoLife.Flash

open List BlockTable ByteStore CrashTrace

def flashApiError : Int := -1

abbrev Failures : Type := Nat → Nat → UInt8

def progByte (failed old data : UInt8) : UInt8 := old &&& (data ||| failed)

def flashProg (failed : Nat → UInt8) (a : Nat) (b₀ b₁ : UInt8) (chip : Chip) : Chip :=
  store chip a [progByte (failed a) (chip a) b₀, progByte (failed (a + 1)) (chip (a + 1)) b₁]

def cfiFlashWait (a : Nat) (b₀ b₁ : UInt8) (chip : Chip) : Bool :=
  chip a == b₀ && chip (a + 1) == b₁

def cfiFlashWriteLoop (failed : Nat → UInt8) : (a : Nat) → List UInt8 → Chip → Nat × Chip
  | a, b₀ :: b₁ :: rest, chip =>
    let chip := flashProg failed a b₀ b₁ chip
    if cfiFlashWait a b₀ b₁ chip then
      let (n, chip) := cfiFlashWriteLoop failed (a + 2) rest chip
      (n + 2, chip)
    else (0, chip)
  | _, _, chip => (0, chip)

def cfiFlashWrite (failed : Nat → UInt8) (sizes : List Nat) (sector offset : Nat)
    (buf : List UInt8) (chip : Chip) : Int × Chip :=
  if (buf.length ||| offset) &&& 1 ≠ 0 then (flashApiError, chip)
  else
    let (n, chip) := cfiFlashWriteLoop failed (start sizes sector + offset) buf chip
    (n, chip)

def eraseLoop (sizes : List Nat) (sector : Nat) : (left : Nat) → Chip → Chip
  | 0, chip => chip
  | left + 1, chip =>
    let chip := store chip (start sizes sector) (replicate (size sizes sector) 0xFF)
    if cfiFlashWait (start sizes sector) 0xFF 0xFF chip then chip
    else eraseLoop sizes sector left chip

def cfiFlashSectorEraseInt (sizes : List Nat) (sector : Nat) (chip : Chip) : Chip :=
  eraseLoop sizes sector 3 chip

def writeBufLoop (failed : Failures) (sizes : List Nat) (sector offset : Nat)
    (buffer : List UInt8) : (i left : Nat) → Chip → Int × Chip
  | _, 0, chip => (flashApiError, chip)
  | i, left + 1, chip =>
    let (ret, chip) := cfiFlashWrite (failed i) sizes sector offset buffer chip
    if load chip (start sizes sector + offset) buffer.length = buffer then (ret, chip)
    else
      -- erase and try again
      writeBufLoop failed sizes sector offset buffer (i + 1) left
        (cfiFlashSectorEraseInt sizes sector chip)

def cfiFlashWriteBuf (failed : Failures) (sizes : List Nat) (sector offset : Nat)
    (buffer : List UInt8) (chip : Chip) : Int × Chip :=
  writeBufLoop failed sizes sector offset buffer 0 3 chip

/-! ## One attempt -/

def Programs (failed : Nat → UInt8) (a : Nat) (buf : List UInt8) (chip : Chip) : Prop :=
  ∀ i, (h : i < buf.length) → progByte (failed (a + i)) (chip (a + i)) buf[i] = buf[i]

instance (failed : Nat → UInt8) (a : Nat) (buf : List UInt8) (chip : Chip) :
    Decidable (Programs failed a buf chip) :=
  Nat.decidableBallLT buf.length _

variable {failed : Nat → UInt8} {chip : Chip}

theorem programs_cons {a : Nat} {b : UInt8} {buf : List UInt8} :
    Programs failed a (b :: buf) chip ↔
      progByte (failed a) (chip a) b = b ∧ Programs failed (a + 1) buf chip := by
  constructor
  · intro all
    refine ⟨all 0 (by simp), fun i h => ?_⟩
    have later := all (i + 1) (by simpa using h)
    rw [show a + (i + 1) = a + 1 + i by omega] at later
    simpa using later
  · rintro ⟨first, rest⟩ i h
    cases i with
    | zero => exact first
    | succ i =>
      have later := rest i (by simpa using h)
      rw [show a + 1 + i = a + (i + 1) by omega] at later
      simpa using later

theorem programs_congr {a : Nat} {buf : List UInt8} {chip' : Chip}
    (same : ∀ x, a ≤ x → x < a + buf.length → chip x = chip' x) :
    Programs failed a buf chip ↔ Programs failed a buf chip' := by
  have eq (i : Nat) (h : i < buf.length) : chip (a + i) = chip' (a + i) :=
    same _ (by omega) (by omega)
  constructor
  · intro all i h
    rw [← eq i h]
    exact all i h
  · intro all i h
    rw [eq i h]
    exact all i h

theorem cfiFlashWait_flashProg {a : Nat} {b₀ b₁ : UInt8} :
    cfiFlashWait a b₀ b₁ (flashProg failed a b₀ b₁ chip) = true ↔
      progByte (failed a) (chip a) b₀ = b₀ ∧ progByte (failed (a + 1)) (chip (a + 1)) b₁ = b₁ := by
  have first : flashProg failed a b₀ b₁ chip a = progByte (failed a) (chip a) b₀ := by
    simp [flashProg, store]
  have second : flashProg failed a b₀ b₁ chip (a + 1) =
      progByte (failed (a + 1)) (chip (a + 1)) b₁ := by
    simp [flashProg, store]
  rw [cfiFlashWait, first, second, Bool.and_eq_true, beq_iff_eq, beq_iff_eq]

theorem flashProg_outside {a x : Nat} {b₀ b₁ : UInt8} (outside : x < a ∨ a + 2 ≤ x) :
    flashProg failed a b₀ b₁ chip x = chip x :=
  store_apply_outside outside

/-- **The loop stores the buffer, or stops at a word that differs from it.** Nothing changes
outside the range. -/
theorem cfiFlashWriteLoop_spec (failed : Nat → UInt8) (buf : List UInt8)
    (even : buf.length % 2 = 0) (a : Nat) (chip : Chip) :
    (Programs failed a buf chip →
      cfiFlashWriteLoop failed a buf chip = (buf.length, store chip a buf)) ∧
    (¬ Programs failed a buf chip →
      load (cfiFlashWriteLoop failed a buf chip).2 a buf.length ≠ buf) ∧
    ∀ x, x < a ∨ a + buf.length ≤ x → (cfiFlashWriteLoop failed a buf chip).2 x = chip x := by
  fun_induction cfiFlashWriteLoop failed a buf chip with
  | case1 a b₀ b₁ rest chip chip' ready n chip'' eq ih =>
    obtain ⟨stores, differs, outside⟩ :=
      ih (by rw [length_cons, length_cons] at even; omega)
    rw [eq] at stores differs outside
    have word := cfiFlashWait_flashProg.mp ready
    have programs_rest : Programs failed (a + 2) rest chip' ↔ Programs failed (a + 2) rest chip :=
      programs_congr fun x above _ => flashProg_outside (Or.inr above)
    have programs : Programs failed a (b₀ :: b₁ :: rest) chip ↔
        Programs failed (a + 2) rest chip' := by
      rw [programs_cons, programs_cons, programs_rest]
      exact ⟨fun all => all.2.2, fun later => ⟨word.1, word.2, later⟩⟩
    refine ⟨?_, ?_, ?_⟩
    · intro all
      obtain ⟨rfl, rfl⟩ := Prod.mk.inj (stores (programs.mp all))
      have first : chip' = store chip a [b₀, b₁] := by
        change store chip a [progByte _ _ b₀, progByte _ _ b₁] = _
        rw [word.1, word.2]
      have split := store_append chip a [b₀, b₁] rest
      rw [← first] at split
      exact Prod.ext rfl split.symm
    · intro not_all same
      rw [load_eq_cons_iff, load_eq_cons_iff] at same
      exact differs (mt programs.mpr not_all) same.2.2
    · intro x away
      simp only [length_cons] at away
      rw [outside x (by omega)]
      exact flashProg_outside (by omega)
  | case2 a b₀ b₁ rest chip chip' differs =>
    have word := mt cfiFlashWait_flashProg.mpr differs
    refine ⟨?_, ?_, ?_⟩
    · intro all
      rw [programs_cons, programs_cons] at all
      exact absurd ⟨all.1, all.2.1⟩ word
    · intro _ same
      -- the word that was read is the one that differs
      rw [load_eq_cons_iff, load_eq_cons_iff] at same
      have first : chip' a = b₀ := same.1
      have second : chip' (a + 1) = b₁ := same.2.1
      exact differs (by rw [cfiFlashWait, first, second]; simp)
    · intro x away
      simp only [length_cons] at away
      exact flashProg_outside (by omega)
  | case3 buf a chip short =>
    have none : buf = [] := by
      match buf with
      | [] => rfl
      | [b] => cases even
      | b₀ :: b₁ :: rest => exact absurd rfl (short b₀ b₁ rest)
    subst none
    refine ⟨fun _ => by simp, ?_, fun x _ => rfl⟩
    intro not_all
    exact absurd (fun i h => absurd h (Nat.not_lt_zero i)) not_all

/-! ## The attempts -/

section Attempts

variable {failures : Failures} {sizes : List Nat} {sector offset : Nat} {buffer : List UInt8}

theorem cfiFlashSectorEraseInt_eq (large : 2 ≤ size sizes sector) (chip : Chip) :
    cfiFlashSectorEraseInt sizes sector chip =
      store chip (start sizes sector) (replicate (size sizes sector) 0xFF) := by
  have erased (i : Nat) (h : i < 2) : store chip (start sizes sector)
      (replicate (size sizes sector) 0xFF) (start sizes sector + i) = 0xFF := by
    rw [store_apply_inside (by omega) (by rw [length_replicate]; omega),
      getElem_replicate]
  rw [cfiFlashSectorEraseInt, eraseLoop, cfiFlashWait, if_pos]
  have first := erased 0 (by decide)
  have second := erased 1 (by decide)
  rw [Nat.add_zero] at first
  rw [first, second]
  rfl

section

variable (even : buffer.length % 2 = 0) (even_offset : offset % 2 = 0)
include even even_offset

theorem cfiFlashWrite_of_even (chip : Chip) :
    cfiFlashWrite failed sizes sector offset buffer chip =
      (((cfiFlashWriteLoop failed (start sizes sector + offset) buffer chip).1 : Int),
        (cfiFlashWriteLoop failed (start sizes sector + offset) buffer chip).2) := by
  have bits : (buffer.length ||| offset) &&& 1 = 0 := by grind
  rw [cfiFlashWrite, if_neg (not_not.mpr bits)]

theorem writeBufLoop_of_programs {i left : Nat} {chip : Chip}
    (programs : Programs (failures i) (start sizes sector + offset) buffer chip) :
    writeBufLoop failures sizes sector offset buffer i (left + 1) chip =
      ((buffer.length : Int), store chip (start sizes sector + offset) buffer) := by
  have loop := (cfiFlashWriteLoop_spec (failures i) buffer even _ chip).1 programs
  rw [writeBufLoop, cfiFlashWrite_of_even even even_offset, loop]
  dsimp only
  rw [if_pos (load_store_self _ _ _)]

theorem writeBufLoop_of_not_programs (inside : offset + buffer.length ≤ size sizes sector)
    {i left : Nat} {chip : Chip}
    (fails : ¬ Programs (failures i) (start sizes sector + offset) buffer chip) :
    writeBufLoop failures sizes sector offset buffer i (left + 1) chip =
      writeBufLoop failures sizes sector offset buffer (i + 1) left
        (store chip (start sizes sector) (replicate (size sizes sector) 0xFF)) := by
  obtain ⟨-, differs, outside⟩ := cfiFlashWriteLoop_spec (failures i) buffer even
    (start sizes sector + offset) chip
  have some : 2 ≤ size sizes sector := by
    have pos : buffer ≠ [] := by
      rintro rfl
      exact fails fun i h => absurd h (Nat.not_lt_zero i)
    have := length_pos_of_ne_nil pos
    omega
  rw [writeBufLoop, cfiFlashWrite_of_even even even_offset]
  dsimp only
  rw [if_neg (differs fails), cfiFlashSectorEraseInt_eq some]
  congr 1
  funext x
  by_cases away : x < start sizes sector ∨ start sizes sector + size sizes sector ≤ x
  · rw [store_apply_outside (by rwa [length_replicate]),
      store_apply_outside (by rwa [length_replicate]), outside x (by omega)]
  · rw [store_apply_inside (by omega) (by rw [length_replicate]; omega),
      store_apply_inside (by omega) (by rw [length_replicate]; omega)]

end

def ErasedPrograms (failed : Nat → UInt8) (a : Nat) (buffer : List UInt8) : Prop :=
  Programs failed a buffer fun _ => 0xFF

instance (failed : Nat → UInt8) (a : Nat) (buffer : List UInt8) :
    Decidable (ErasedPrograms failed a buffer) :=
  inferInstanceAs (Decidable (Programs _ _ _ _))

theorem programs_erased (inside : offset + buffer.length ≤ size sizes sector) (chip : Chip) :
    Programs failed (start sizes sector + offset) buffer
        (store chip (start sizes sector) (replicate (size sizes sector) 0xFF)) ↔
      ErasedPrograms failed (start sizes sector + offset) buffer := by
  refine programs_congr fun x lower upper => ?_
  rw [store_apply_inside (by omega) (by rw [length_replicate]; omega),
    getElem_replicate]

/-- **What `cfi_flash_write_buf` returns and leaves in the chip**, by the failures of the device. -/
theorem cfiFlashWriteBuf_eq (even : buffer.length % 2 = 0) (even_offset : offset % 2 = 0)
    (inside : offset + buffer.length ≤ size sizes sector) (chip : Chip) :
    cfiFlashWriteBuf failures sizes sector offset buffer chip =
      let a := start sizes sector + offset
      let erased := store chip (start sizes sector) (replicate (size sizes sector) 0xFF)
      if Programs (failures 0) a buffer chip then ((buffer.length : Int), store chip a buffer)
      else if ErasedPrograms (failures 1) a buffer ∨ ErasedPrograms (failures 2) a buffer then
        ((buffer.length : Int), store erased a buffer)
      else (flashApiError, erased) := by
  have again : store (store chip (start sizes sector) (replicate (size sizes sector) 0xFF))
      (start sizes sector) (replicate (size sizes sector) 0xFF) =
      store chip (start sizes sector) (replicate (size sizes sector) 0xFF) :=
    store_store le_rfl
  dsimp only
  rw [cfiFlashWriteBuf]
  split
  next programs => exact writeBufLoop_of_programs even even_offset programs
  next fails =>
    rw [writeBufLoop_of_not_programs even even_offset inside fails]
    by_cases second : ErasedPrograms (failures 1) (start sizes sector + offset) buffer
    · rw [if_pos (Or.inl second)]
      exact writeBufLoop_of_programs even even_offset ((programs_erased inside chip).mpr second)
    · rw [writeBufLoop_of_not_programs even even_offset inside
        (mt (programs_erased inside chip).mp second), again]
      by_cases third : ErasedPrograms (failures 2) (start sizes sector + offset) buffer
      · rw [if_pos (Or.inr third)]
        exact writeBufLoop_of_programs even even_offset ((programs_erased inside chip).mpr third)
      · rw [writeBufLoop_of_not_programs even even_offset inside
          (mt (programs_erased inside chip).mp third), again, if_neg (not_or.mpr ⟨second, third⟩)]
        rfl

def KeepsRest (sizes : List Nat) (sector offset numbytes : Nat) (before after : Chip) : Prop :=
  ∀ o < size sizes sector, o < offset ∨ offset + numbytes ≤ o →
    after (start sizes sector + o) = before (start sizes sector + o)

/-- **A call that returns the number of bytes has written the buffer and kept the rest of the
sector** exactly when the first attempt succeeds, the rest is erased anyway, or all three attempts
fail. -/
theorem cfiFlashWriteBuf_keeps_iff (failures : Failures) (even : buffer.length % 2 = 0)
    (even_offset : offset % 2 = 0) (inside : offset + buffer.length ≤ size sizes sector)
    (chip : Chip) :
    ((cfiFlashWriteBuf failures sizes sector offset buffer chip).1 = buffer.length →
        load (cfiFlashWriteBuf failures sizes sector offset buffer chip).2
            (start sizes sector + offset) buffer.length = buffer ∧
          KeepsRest sizes sector offset buffer.length chip
            (cfiFlashWriteBuf failures sizes sector offset buffer chip).2) ↔
      Programs (failures 0) (start sizes sector + offset) buffer chip ∨
        KeepsRest sizes sector offset buffer.length chip (fun _ => 0xFF) ∨
        ¬ ErasedPrograms (failures 1) (start sizes sector + offset) buffer ∧
          ¬ ErasedPrograms (failures 2) (start sizes sector + offset) buffer := by
  have around (chip : Chip) (o : Nat) (out : o < offset ∨ offset + buffer.length ≤ o) :
      store chip (start sizes sector + offset) buffer (start sizes sector + o) =
        chip (start sizes sector + o) :=
    store_apply_outside (by omega)
  have erased (o : Nat) (lt : o < size sizes sector) :
      store chip (start sizes sector) (replicate (size sizes sector) 0xFF)
        (start sizes sector + o) = 0xFF := by
    rw [store_apply_inside (by omega) (by rw [length_replicate]; omega),
      getElem_replicate]
  rw [cfiFlashWriteBuf_eq even even_offset inside]
  by_cases first : Programs (failures 0) (start sizes sector + offset) buffer chip
  · rw [if_pos first]
    refine iff_of_true (fun _ => ⟨load_store_self _ _ _, fun o _ out => around chip o out⟩) ?_
    exact Or.inl first
  · rw [if_neg first, or_iff_right first]
    by_cases later : ErasedPrograms (failures 1) (start sizes sector + offset) buffer ∨
        ErasedPrograms (failures 2) (start sizes sector + offset) buffer
    · rw [if_pos later, ← not_or, or_iff_left (not_not.mpr later)]
      have lost (o : Nat) (lt : o < size sizes sector)
          (out : o < offset ∨ offset + buffer.length ≤ o) :
          store (store chip (start sizes sector) (replicate (size sizes sector) 0xFF))
            (start sizes sector + offset) buffer (start sizes sector + o) = 0xFF := by
        rw [around _ o out, erased o lt]
      constructor
      · intro property o lt out
        exact (lost o lt out).symm.trans ((property rfl).2 o lt out)
      · intro rest _
        refine ⟨load_store_self _ _ _, fun o lt out => ?_⟩
        exact (lost o lt out).trans (rest o lt out)
    · rw [if_neg later]
      refine iff_of_true (fun ret => ?_) (Or.inr (not_or.mp later))
      have error : (-1 : Int) = buffer.length := ret
      omega

/-- A word is written behind another one, by a device without failures. -/
theorem cfiFlashWriteBuf_keeps_iff_word :
    let chip : Chip := fun a => if a < 4 then 0x55 else 0xFF
    let written := cfiFlashWriteBuf (fun _ _ => 0) [8] 0 4 [0x12, 0x34] chip
    (written.1 = ([0x12, 0x34] : List UInt8).length →
        load written.2 (start [8] 0 + 4) ([0x12, 0x34] : List UInt8).length = [0x12, 0x34] ∧
          KeepsRest [8] 0 4 ([0x12, 0x34] : List UInt8).length chip written.2) ↔
      Programs (fun _ => 0) (start [8] 0 + 4) [0x12, 0x34] chip ∨
        KeepsRest [8] 0 4 ([0x12, 0x34] : List UInt8).length chip (fun _ => 0xFF) ∨
        ¬ ErasedPrograms (fun _ => 0) (start [8] 0 + 4) [0x12, 0x34] ∧
          ¬ ErasedPrograms (fun _ => 0) (start [8] 0 + 4) [0x12, 0x34] :=
  cfiFlashWriteBuf_keeps_iff (fun _ _ => 0) (by decide) (by decide) (by decide) _

/-- The device leaves one bit of the word in the first attempt: the word before it is erased, and
the call succeeds. -/
theorem cfiFlashWriteBuf_erases_rest :
    let chip : Chip := fun a => if a < 4 then 0x55 else 0xFF
    let written := cfiFlashWriteBuf (fun i a => if i = 0 ∧ a = 4 then 1 else 0) [8] 0 4
      [0x12, 0x34] chip
    written.1 = 2 ∧ load chip 0 8 = [0x55, 0x55, 0x55, 0x55, 0xFF, 0xFF, 0xFF, 0xFF] ∧
      load written.2 0 8 = [0xFF, 0xFF, 0xFF, 0xFF, 0x12, 0x34, 0xFF, 0xFF] := by
  decide +kernel

/-! ## The device of the other modules -/

theorem progByte_erased (data : UInt8) : progByte 0 0xFF data = data := by
  rw [progByte, UInt8.or_zero]
  exact UInt8.neg_one_and

theorem cfiFlashWriteBuf_refines (even : buffer.length % 2 = 0) (even_offset : offset % 2 = 0)
    (inside : offset + buffer.length ≤ size sizes sector) {chip : Chip}
    (erased : ∀ i < buffer.length, chip (start sizes sector + offset + i) = 0xFF) :
    cfiFlashWriteBuf (fun _ _ => 0) sizes sector offset buffer chip =
      ((flashWriteBuf sizes sector offset buffer).value chip,
        (flashWriteBuf sizes sector offset buffer).final chip) := by
  have programs : Programs (fun _ => 0) (start sizes sector + offset) buffer chip := by
    intro i h
    rw [erased i h]
    exact progByte_erased _
  rw [cfiFlashWriteBuf_eq even even_offset inside]
  rw [if_pos programs]
  simp only [flashWriteBuf, Traced.value_bind, Traced.value_pure, Traced.final_bind,
    Traced.final_perform, Traced.final_pure, Device.apply]

theorem cfiFlashWriteBuf_refines_word :
    cfiFlashWriteBuf (fun _ _ => 0) [4] 0 0 [0, 1] (fun _ => 0xFF) =
      ((flashWriteBuf [4] 0 0 [0, 1]).value fun _ => 0xFF,
        (flashWriteBuf [4] 0 0 [0, 1]).final fun _ => 0xFF) :=
  cfiFlashWriteBuf_refines rfl rfl (by decide) fun _ _ => rfl

end Attempts

end EchoLife.Flash
