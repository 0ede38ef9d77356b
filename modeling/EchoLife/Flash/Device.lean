import EchoLife.Lib.BlockTable
import EchoLife.Lib.ByteStore
import EchoLife.Lib.CrashTrace

/-!
# The flash device

The CFI flash driver knows the chip as a table of sectors of arbitrary sizes. A sector is erased as
a whole and written from its start; these are the atomic steps of the device, and both are taken to
succeed. Addresses are relative to `FLASH_BASE`.

`cfiFlashGetBlk_spec` says which sector the driver finds. `readBlks_eq` and `writeBlks_spec` read
the loops over sectors as one load and one store, and `crash_writeBlks` lists what a power failure
can leave behind.
-/

namespace EchoLife.Flash

open List BlockTable ByteStore CrashTrace Traced

abbrev Chip : Type := Nat → UInt8

inductive Step where
  | erase (addr len : Nat)
  | write (addr : Nat) (data : List UInt8)
  deriving Repr, DecidableEq

instance : Device Chip Step where
  apply chip
    | .erase addr len => store chip addr (replicate len 0xFF)
    | .write addr data => store chip addr data

abbrev DriverM (α : Type) : Type := Traced Chip Step α

/-! ## The sector table -/

def flashGetNumsectors (sizes : List Nat) : Int := sizes.length

def flashGetTotalSize (sizes : List Nat) : Int := total sizes

def flashGetSectorSize (sizes : List Nat) (sector : Int) : Nat :=
  if sector < 0 then 0 else size sizes sector.toNat

def getBlkLoop (relativeAddr : Int) : (rest : List Nat) → (blk : Nat) → (i : Int) → Nat × Int
  | [], blk, i => (blk, i)
  | s :: rest, blk, i =>
    if i < relativeAddr then getBlkLoop relativeAddr rest (blk + 1) (i + s) else (blk, i)

def cfiFlashGetBlk (sizes : List Nat) (relativeAddr : Int) : Int :=
  let (blk, i) := getBlkLoop relativeAddr sizes 0 0
  if i > relativeAddr then blk - 1
  else if blk = sizes.length then -1
  else blk

theorem getBlkLoop_spec (sizes : List Nat) (relativeAddr : Int) (rest : List Nat) (blk : Nat)
    (suffix : sizes.drop blk = rest) (before : 0 < blk → start sizes (blk - 1) < relativeAddr) :
    ∃ b, getBlkLoop relativeAddr rest blk (start sizes blk) = (b, (start sizes b : Int)) ∧
      (relativeAddr ≤ start sizes b ∨ sizes.length ≤ b) ∧
      (0 < b → start sizes (b - 1) < relativeAddr) ∧ b ≤ max blk sizes.length := by
  induction rest generalizing blk with
  | nil =>
    have long : sizes.length ≤ blk := drop_eq_nil_iff.mp suffix
    exact ⟨blk, rfl, .inr long, before, by omega⟩
  | cons s rest ih =>
    have short : blk < sizes.length := by
      by_contra h
      rw [drop_eq_nil_iff.mpr (by omega)] at suffix
      cases suffix
    rw [drop_eq_getElem_cons short] at suffix
    obtain ⟨rfl, tail⟩ := cons.inj suffix
    by_cases below : (start sizes blk : Int) < relativeAddr
    · have next : (start sizes blk : Int) + sizes[blk] = start sizes (blk + 1) := by
        have entry : size sizes blk = sizes[blk] := by simp [size, short]
        rw [start_succ, entry, Nat.cast_add]
      obtain ⟨b, loop, found, prev, bound⟩ := ih (blk + 1) tail fun _ => below
      refine ⟨b, ?_, found, prev, by omega⟩
      rw [getBlkLoop, if_pos below, next, loop]
    · exact ⟨blk, by rw [getBlkLoop, if_neg below], .inl (by omega), before, by omega⟩

/-- **What the lookup finds.** A result other than `-1` is a sector of the table that starts at or
below the address, and the address is below its end unless it is the sector's start. The sector
before it starts strictly below the address. -/
theorem cfiFlashGetBlk_spec {sizes : List Nat} {relativeAddr : Int}
    (found : cfiFlashGetBlk sizes relativeAddr ≠ -1) :
    ∃ b : Nat, cfiFlashGetBlk sizes relativeAddr = b ∧ b < sizes.length ∧
      start sizes b ≤ relativeAddr ∧
      (relativeAddr < start sizes (b + 1) ∨ relativeAddr = start sizes b) ∧
      (0 < b → start sizes (b - 1) < relativeAddr) := by
  obtain ⟨b, loop, stop, prev, bound⟩ :=
    getBlkLoop_spec sizes relativeAddr sizes 0 rfl (by omega)
  rw [start_zero, Nat.cast_zero] at loop
  simp only [cfiFlashGetBlk, loop] at found ⊢
  split at found
  · rename_i above
    have pos : 0 < b := by omega
    have earlier := start_mono sizes (show b - 1 - 1 ≤ b - 1 by omega)
    have below := prev pos
    refine ⟨b - 1, by rw [if_pos above]; omega, by omega, below.le, .inl ?_, by omega⟩
    rwa [show b - 1 + 1 = b by omega]
  · rename_i notAbove
    split at found
    · exact absurd rfl found
    · rename_i notLast
      have least : relativeAddr = start sizes b := by omega
      refine ⟨b, ?_, by omega, least.ge, .inr least, prev⟩
      rw [if_neg notAbove, if_neg notLast]

theorem cfiFlashGetBlk_ne {sizes : List Nat} {relativeAddr : Int} (lower : 0 ≤ relativeAddr)
    (upper : relativeAddr < total sizes) : cfiFlashGetBlk sizes relativeAddr ≠ -1 := by
  obtain ⟨b, loop, stop, prev, bound⟩ :=
    getBlkLoop_spec sizes relativeAddr sizes 0 rfl (by omega)
  rw [start_zero, Nat.cast_zero] at loop
  simp only [cfiFlashGetBlk, loop]
  split
  · rename_i above
    have pos : 0 < b := by
      rcases Nat.eq_zero_or_pos b with rfl | h
      · simp at above
        omega
      · exact h
    omega
  · split
    · rename_i notAbove last
      subst last
      rw [start_length] at notAbove
      omega
    · omega

theorem cfiFlashGetBlk_start {sizes : List Nat} (nonempty : ∀ s ∈ sizes, 0 < s) {b : Nat}
    (known : b < sizes.length) : cfiFlashGetBlk sizes (start sizes b) = b := by
  have pos (k : Nat) (h : k < sizes.length) : start sizes k < start sizes (k + 1) := by
    have member := nonempty _ (size_mem sizes h)
    rw [start_succ]
    omega
  have last := start_le_total sizes (b + 1)
  have first := pos b known
  have inside : cfiFlashGetBlk sizes (start sizes b) ≠ -1 :=
    cfiFlashGetBlk_ne (by omega) (by omega)
  obtain ⟨b', found, known', lower, upper, -⟩ := cfiFlashGetBlk_spec inside
  have here := pos b' known'
  have same : b' = b := block_unique sizes ⟨by omega, by omega⟩ ⟨le_refl _, first⟩
  rw [found, same]

theorem getBlkLoop_shift (relativeAddr c : Int) (rest : List Nat) (blk : Nat) (i : Int) :
    getBlkLoop (c + relativeAddr) rest (blk + 1) (c + i) =
      ((getBlkLoop relativeAddr rest blk i).1 + 1, c + (getBlkLoop relativeAddr rest blk i).2) := by
  induction rest generalizing blk i with
  | nil => rfl
  | cons s rest ih =>
    by_cases below : i < relativeAddr
    · rw [getBlkLoop, getBlkLoop, if_pos below, if_pos (by omega), ← ih]
      congr 1
      ring
    · rw [getBlkLoop, getBlkLoop, if_neg below, if_neg (by omega)]

theorem cfiFlashGetBlk_cons {s : Nat} (pos : 0 < s) (rest : List Nat) {a : Int} (h : 0 ≤ a) :
    cfiFlashGetBlk (s :: rest) (s + a) =
      if cfiFlashGetBlk rest a = -1 then -1 else cfiFlashGetBlk rest a + 1 := by
  have loop : getBlkLoop (s + a) (s :: rest) 0 0 =
      ((getBlkLoop a rest 0 0).1 + 1, s + (getBlkLoop a rest 0 0).2) := by
    rw [getBlkLoop, if_pos (by omega), ← getBlkLoop_shift]
    simp
  obtain ⟨b, loopRest, _, _, _⟩ := getBlkLoop_spec rest a rest 0 rfl (by omega)
  rw [start_zero, Nat.cast_zero] at loopRest
  simp only [cfiFlashGetBlk, loop, loopRest, length_cons]
  by_cases above : (start rest b : Int) > a
  · have pos : 0 < b := by
      rcases Nat.eq_zero_or_pos b with rfl | h
      · simp at above
        omega
      · exact h
    rw [if_pos above, if_pos (by omega), if_neg (by omega)]
    push_cast
    ring
  · omega

theorem cfiFlashGetBlk_neg (sizes : List Nat) {a : Int} (h : a < 0) :
    cfiFlashGetBlk sizes a = -1 := by
  have loop : getBlkLoop a sizes 0 0 = (0, 0) := by
    cases sizes with
    | nil => rfl
    | cons s rest => rw [getBlkLoop, if_neg (by omega)]
  simp [cfiFlashGetBlk, loop, h]

/-! ## Sector operations -/

def flashReadBuf (sizes : List Nat) (blk offset numbytes : Nat) (chip : Chip) : List UInt8 :=
  load chip (start sizes blk + offset) numbytes

def flashSectorEraseInt (sizes : List Nat) (blk : Nat) : DriverM Unit :=
  .perform (.erase (start sizes blk) (size sizes blk))

def flashWriteBuf (sizes : List Nat) (blk offset : Nat) (buffer : List UInt8) : DriverM Int := do
  .perform (.write (start sizes blk + offset) buffer)
  pure buffer.length

def readBlks (sizes : List Nat) (chip : Chip) : (i n : Nat) → List UInt8
  | _, 0 => []
  | i, n + 1 => flashReadBuf sizes i 0 (size sizes i) chip ++ readBlks sizes chip (i + 1) n

def getSharedBlks (sizes : List Nat) (startBlk endBlk : Int) (chip : Chip) : List UInt8 :=
  readBlks sizes chip startBlk.toNat (endBlk - startBlk).toNat

def writeBlks (sizes : List Nat) : (i n : Nat) → (pBuf : List UInt8) → DriverM Int
  | _, 0, _ => pure 0
  | i, n + 1, pBuf => do
      let sectSize := size sizes i
      flashSectorEraseInt sizes i
      let written ← flashWriteBuf sizes i 0 (pBuf.take sectSize)
      if written ≠ sectSize then pure (-1)
      else writeBlks sizes (i + 1) n (pBuf.drop sectSize)

def setSharedBlks (sizes : List Nat) (startBlk endBlk : Int) (pTempBuf : List UInt8) :
    DriverM Int :=
  writeBlks sizes startBlk.toNat (endBlk - startBlk).toNat pTempBuf

section Shared

variable (sizes : List Nat)

theorem readBlks_eq (chip : Chip) (i n : Nat) :
    readBlks sizes chip i n = load chip (start sizes i) (spanSize sizes i n) := by
  induction n generalizing i with
  | zero => rfl
  | succ n ih => rw [readBlks, ih, spanSize, load_add, start_succ]; rfl

variable {sizes}

theorem writeBlks_succ {i n : Nat} {pBuf : List UInt8} (h : size sizes i ≤ pBuf.length) :
    writeBlks sizes i (n + 1) pBuf = (do
      flashSectorEraseInt sizes i
      let _ ← flashWriteBuf sizes i 0 (pBuf.take (size sizes i))
      writeBlks sizes (i + 1) n (pBuf.drop (size sizes i))) := by
  have full : (pBuf.take (size sizes i)).length = size sizes i := by simp [h]
  have value (chip : Chip) :
      (flashWriteBuf sizes i 0 (pBuf.take (size sizes i))).value chip = size sizes i := by
    simp [flashWriteBuf, full]
  apply ext
  · intro chip
    simp only [writeBlks, value_bind, value, ne_eq, not_true_eq_false, if_false]
  · intro chip
    simp only [writeBlks, steps_bind, value, ne_eq, not_true_eq_false, if_false]

theorem final_sector {i : Nat} {data : List UInt8} (h : data.length = size sizes i)
    (chip : Chip) : (flashWriteBuf sizes i 0 data).final
      ((flashSectorEraseInt sizes i).final chip) = store chip (start sizes i) data := by
  exact store_store (by simp [h])

theorem writeBlks_spec (chip : Chip) (i n : Nat) (pBuf : List UInt8)
    (h : pBuf.length = spanSize sizes i n) :
    (writeBlks sizes i n pBuf).value chip = 0 ∧
      (writeBlks sizes i n pBuf).final chip = store chip (start sizes i) pBuf := by
  induction n generalizing i pBuf chip with
  | zero =>
    obtain rfl := length_eq_zero_iff.mp h
    exact ⟨rfl, (store_nil _ _).symm⟩
  | succ n ih =>
    rw [spanSize] at h
    have full : (pBuf.take (size sizes i)).length = size sizes i := by simp; omega
    have step := ih (store chip (start sizes i) (pBuf.take (size sizes i))) (i + 1)
      (pBuf.drop (size sizes i)) (by simp; omega)
    rw [writeBlks_succ (by omega)]
    simp only [value_bind, final_bind, final_sector full]
    refine ⟨step.1, step.2.trans ?_⟩
    conv_rhs => rw [← take_append_drop (size sizes i) pBuf, store_append, full]
    rw [start_succ]

theorem crash_flashSectorEraseInt {i : Nat} {chip t : Chip} :
    (flashSectorEraseInt sizes i).Crash chip t ↔
      t = chip ∨ t = store chip (start sizes i) (replicate (size sizes i) 0xFF) :=
  crash_perform

theorem crash_flashWriteBuf {i : Nat} {data : List UInt8} {chip t : Chip} :
    (flashWriteBuf sizes i 0 data).Crash chip t ↔
      t = chip ∨ t = store chip (start sizes i) data := by
  rw [flashWriteBuf, crash_bind, crash_pure, final_perform,
    crash_perform, Nat.add_zero]
  exact or_iff_left_of_imp Or.inr

/-- **What a power failure leaves of the writing loop**: some sectors in full, and perhaps the next
one erased. -/
theorem crash_writeBlks {chip t : Chip} {i n : Nat} {pBuf : List UInt8}
    (h : pBuf.length = spanSize sizes i n) :
    (writeBlks sizes i n pBuf).Crash chip t ↔
      ∃ j m, (j ≤ n ∧ m = 0 ∨ j < n ∧ m = size sizes (i + j)) ∧
        t = store chip (start sizes i)
          (pBuf.take (spanSize sizes i j) ++ replicate m 0xFF) := by
  induction n generalizing i pBuf chip with
  | zero =>
    simp only [writeBlks, crash_pure, Nat.le_zero, Nat.not_lt_zero, false_and, or_false]
    constructor
    · rintro rfl
      exact ⟨0, 0, ⟨rfl, rfl⟩, by simp [spanSize]⟩
    · rintro ⟨j, m, ⟨rfl, rfl⟩, rfl⟩
      simp [spanSize]
  | succ n ih =>
    rw [spanSize] at h
    have full : (pBuf.take (size sizes i)).length = size sizes i := by simp; omega
    have rest := @ih (store chip (start sizes i) (pBuf.take (size sizes i))) (i + 1)
      (pBuf.drop (size sizes i)) (by simp; omega)
    have joined (j m : Nat) :
        store (store chip (start sizes i) (pBuf.take (size sizes i))) (start sizes (i + 1))
          ((pBuf.drop (size sizes i)).take (spanSize sizes (i + 1) j) ++
            replicate m 0xFF) =
        store chip (start sizes i)
          (pBuf.take (spanSize sizes i (j + 1)) ++ replicate m 0xFF) := by
      rw [spanSize, take_add, append_assoc, store_append _ _ (pBuf.take _), full,
        start_succ]
    have erased : (flashSectorEraseInt sizes i).final chip =
        store chip (start sizes i) (replicate (size sizes i) 0xFF) := rfl
    rw [writeBlks_succ (by omega), crash_bind, crash_bind, final_sector full, rest,
      crash_flashSectorEraseInt, crash_flashWriteBuf, erased, store_store (by simp [full])]
    have next (j : Nat) : i + (j + 1) = i + 1 + j := by omega
    constructor
    · rintro ((rfl | rfl) | (rfl | rfl) | ⟨j, m, range, rfl⟩)
      · exact ⟨0, 0, .inl ⟨Nat.zero_le _, rfl⟩, by simp [spanSize]⟩
      · exact ⟨0, size sizes i, .inr ⟨Nat.succ_pos _, rfl⟩, by simp [spanSize]⟩
      · exact ⟨0, size sizes i, .inr ⟨Nat.succ_pos _, rfl⟩, by simp [spanSize]⟩
      · exact ⟨1, 0, .inl ⟨Nat.succ_pos _, rfl⟩, by simp [spanSize]⟩
      · refine ⟨j + 1, m, ?_, joined j m⟩
        rw [next]
        exact range.imp (And.imp_left Nat.succ_le_succ) (And.imp_left Nat.succ_lt_succ)
    · rintro ⟨j, m, range, rfl⟩
      cases j with
      | zero =>
        left
        rcases range with ⟨-, rfl⟩ | ⟨-, rfl⟩
        · exact .inl (by simp [spanSize])
        · exact .inr (by simp [spanSize])
      | succ j =>
        right
        right
        refine ⟨j, m, ?_, (joined j m).symm⟩
        rw [next] at range
        exact range.imp (And.imp_left Nat.le_of_succ_le_succ)
          (And.imp_left Nat.lt_of_succ_lt_succ)

end Shared

/-! ## Code that stays inside a range -/

def Step.Within (lo hi : Nat) : Step → Prop
  | .erase addr len => lo ≤ addr ∧ addr + len ≤ hi
  | .write addr data => lo ≤ addr ∧ addr + data.length ≤ hi

def Within {α : Type} (lo hi : Nat) (m : DriverM α) : Prop :=
  ∀ chip, ∀ e ∈ m.steps chip, e.Within lo hi

section Ranges

variable {α β : Type} {lo hi : Nat} {sizes : List Nat}

theorem within_pure (a : α) : Within lo hi (pure a) := by
  intro chip e he
  cases he

theorem within_observe (f : Chip → α) : Within lo hi (.observe f) := by
  intro chip e he
  cases he

theorem Within.bind {m : DriverM α} {k : α → DriverM β} (first : Within lo hi m)
    (rest : ∀ a, Within lo hi (k a)) : Within lo hi (m >>= k) := by
  intro chip e he
  rw [steps_bind, mem_append] at he
  rcases he with he | he
  · exact first chip e he
  · exact rest _ _ e he

theorem Within.mono {m : DriverM α} {lo' hi' : Nat} (inside : Within lo' hi' m) (lower : lo ≤ lo')
    (upper : hi' ≤ hi) : Within lo hi m := by
  intro chip e he
  have step := inside chip e he
  cases e with
  | erase addr len | write addr data => exact ⟨lower.trans step.1, step.2.trans upper⟩

theorem within_flashSectorEraseInt {blk : Nat} (lower : lo ≤ start sizes blk)
    (upper : start sizes (blk + 1) ≤ hi) : Within lo hi (flashSectorEraseInt sizes blk) := by
  intro chip e he
  obtain rfl := mem_singleton.mp he
  rw [start_succ] at upper
  exact ⟨lower, upper⟩

theorem within_flashWriteBuf {blk : Nat} {buffer : List UInt8} (lower : lo ≤ start sizes blk)
    (upper : start sizes blk + buffer.length ≤ hi) :
    Within lo hi (flashWriteBuf sizes blk 0 buffer) := by
  refine Within.bind ?_ fun _ => within_pure _
  intro chip e he
  obtain rfl := mem_singleton.mp he
  exact ⟨lower, upper⟩

theorem within_writeBlks (i n : Nat) (pBuf : List UInt8) :
    Within (start sizes i) (start sizes (i + n)) (writeBlks sizes i n pBuf) := by
  induction n generalizing i pBuf with
  | zero => exact within_pure _
  | succ n ih =>
    have next := start_succ sizes i
    have last := start_mono sizes (show i + 1 ≤ i + (n + 1) by omega)
    refine Within.bind (within_flashSectorEraseInt (le_refl _) last) fun _ => ?_
    refine Within.bind (within_flashWriteBuf (le_refl _) ?_) fun written => ?_
    · rw [length_take]
      omega
    · split
      · exact within_pure _
      · have rest := ih (i + 1) (pBuf.drop (size sizes i))
        rw [show i + 1 + n = i + (n + 1) by omega] at rest
        exact rest.mono (by omega) (le_refl _)

end Ranges

/-! ## Code that does not touch a byte -/

def Step.Spares (x : Nat) : Step → Prop
  | .erase addr len => x < addr ∨ addr + len ≤ x
  | .write addr data => x < addr ∨ addr + data.length ≤ x

def Spares {α : Type} (x : Nat) (m : DriverM α) : Prop :=
  ∀ chip, ∀ e ∈ m.steps chip, e.Spares x

section Spared

variable {α β : Type} {x : Nat}

theorem spares_pure (a : α) : Spares x (pure a) := by
  intro chip e he
  cases he

theorem spares_observe (f : Chip → α) : Spares x (.observe f) := by
  intro chip e he
  cases he

theorem Spares.bind {m : DriverM α} {k : α → DriverM β} (first : Spares x m)
    (rest : ∀ a, Spares x (k a)) : Spares x (m >>= k) := by
  intro chip e he
  rw [steps_bind, mem_append] at he
  rcases he with he | he
  · exact first chip e he
  · exact rest _ _ e he

theorem Spares.crash {m : DriverM α} (spared : Spares x m) {chip t : Chip}
    (crash : m.Crash chip t) : t x = chip x := by
  refine crash_invariant (P := fun t => t x = chip x) crash rfl ?_
  intro e he t same
  have step := spared chip e he
  rw [← same]
  cases e with
  | erase addr len => exact store_apply_outside (by rw [length_replicate]; exact step)
  | write addr data => exact store_apply_outside step

theorem Within.spares {m : DriverM α} {lo hi : Nat} (inside : Within lo hi m)
    (outside : x < lo ∨ hi ≤ x) : Spares x m := by
  intro chip e he
  have step := inside chip e he
  cases e with
  | erase addr len | write addr data =>
    obtain ⟨lower, upper⟩ := step
    exact outside.imp (fun lt => lt.trans_le lower) upper.trans

theorem Within.crash {m : DriverM α} {lo hi : Nat} (inside : Within lo hi m) {chip t : Chip}
    (crash : m.Crash chip t) (outside : x < lo ∨ hi ≤ x) : t x = chip x :=
  (inside.spares outside).crash crash

theorem Within.final {m : DriverM α} {lo hi : Nat} (inside : Within lo hi m) (chip : Chip)
    (outside : x < lo ∨ hi ≤ x) : m.final chip x = chip x :=
  inside.crash (crash_final m chip) outside

end Spared

/-! ## Code that keeps a byte -/

def KeepsByte {α : Type} (x : Nat) (v : UInt8) (m : DriverM α) : Prop :=
  ∀ chip : Chip, chip x = v → m.final chip x = v

section Keeps

variable {α β : Type} {x : Nat} {v : UInt8}

theorem keepsByte_pure (a : α) : KeepsByte x v (pure a) :=
  fun _ same => same

theorem keepsByte_observe (f : Chip → α) : KeepsByte x v (.observe f) :=
  fun _ same => same

theorem KeepsByte.bind {m : DriverM α} {k : α → DriverM β} (first : KeepsByte x v m)
    (rest : ∀ a, KeepsByte x v (k a)) : KeepsByte x v (m >>= k) := by
  intro chip same
  rw [final_bind]
  exact rest _ _ (first chip same)

theorem Within.keepsByte {m : DriverM α} {lo hi : Nat} (inside : Within lo hi m)
    (outside : x < lo ∨ hi ≤ x) : KeepsByte x v m := by
  intro chip same
  rw [inside.final chip outside, same]

end Keeps

end EchoLife.Flash
