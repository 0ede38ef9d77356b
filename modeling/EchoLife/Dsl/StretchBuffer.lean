import EchoLife.Lib.ByteStore

/-!
# The stretch buffer

Messages go from one processor to the other in a ring of words. A message is never split: one that
begins before the end of the buffer is written on past it, and the place where it ends,
`pStretchEnd`, is where the reader goes back to the start.

The pointers are offsets from `pStart`, in bytes. `Queued` says which messages are unread. A
message that is written becomes the last of them (`Queued.write`) and one that is read is the first
(`Queued.front`, `Queued.read`).
-/

namespace EchoLife.Dsl

open List ByteStore

structure StretchBuffer where
  pEnd : Nat
  pExtraEnd : Nat
  pStretchEnd : Nat
  pRead : Nat
  pWrite : Nat
  mem : Nat → UInt32

namespace StretchBuffer

def init (size extra : Nat) (mem : Nat → UInt32) : StretchBuffer :=
  ⟨size, size + extra, size, 0, 0, mem⟩

def getReadAvail (sb : StretchBuffer) : Nat :=
  if sb.pRead ≤ sb.pWrite then sb.pWrite - sb.pRead else sb.pStretchEnd - sb.pRead

def getWriteAvail (sb : StretchBuffer) : Nat :=
  if sb.pWrite < sb.pRead then sb.pRead - sb.pWrite - 1 else sb.pExtraEnd - sb.pWrite

def readUpdate (n : Nat) (sb : StretchBuffer) : StretchBuffer :=
  let p := sb.pRead + n
  { sb with pRead := if sb.pStretchEnd ≤ p then 0 else p }

def writeUpdate (n : Nat) (sb : StretchBuffer) : StretchBuffer :=
  let p := sb.pWrite + n
  if sb.pEnd ≤ p then
    if sb.pRead ≠ 0 then { sb with pStretchEnd := p, pWrite := 0 } else sb
  else { sb with pWrite := p }

def putWords (words : List UInt32) (sb : StretchBuffer) : StretchBuffer :=
  { sb with mem := store sb.mem (sb.pWrite / 4) words }

def write (block : List UInt32) (sb : StretchBuffer) : StretchBuffer :=
  (sb.putWords block).writeUpdate (4 * block.length)

def unread (sb : StretchBuffer) : Nat :=
  if sb.pRead ≤ sb.pWrite then sb.pWrite - sb.pRead
  else sb.pStretchEnd - sb.pRead + sb.pWrite

end StretchBuffer

/-! ## The messages in the buffer -/

def StoredAt (mem : Nat → UInt32) (r : Nat) (blocks : List (List UInt32)) : Prop :=
  load mem r blocks.flatten.length = blocks.flatten

/-- The unread messages lie between the pointers, or from the read pointer to `pStretchEnd` and from
the start to the write pointer. -/
inductive Unread (sb : StretchBuffer) : List (List UInt32) → Prop
  | straight {blocks : List (List UInt32)} {r : Nat} (read : sb.pRead = 4 * r)
      (write : sb.pWrite = 4 * (r + blocks.flatten.length))
      (stored : StoredAt sb.mem r blocks) : Unread sb blocks
  | wrapped {first : List (List UInt32)} {last : List UInt32} {second : List (List UInt32)}
      {r : Nat}
      (read : sb.pRead = 4 * r)
      (before : 4 * (r + first.flatten.length) < sb.pEnd)
      (stretch : sb.pStretchEnd = 4 * (r + (first ++ [last]).flatten.length))
      (write : sb.pWrite = 4 * second.flatten.length)
      (apart : sb.pWrite < sb.pRead)
      (stored : StoredAt sb.mem r (first ++ [last]))
      (stored' : StoredAt sb.mem 0 second) : Unread sb (first ++ [last] ++ second)

structure Queued (sb : StretchBuffer) (blocks : List (List UInt32)) : Prop where
  inside : sb.pWrite < sb.pEnd
  stretch : sb.pEnd ≤ sb.pStretchEnd
  nonempty : ∀ block ∈ blocks, block ≠ []
  between : Unread sb blocks

namespace StoredAt

variable {mem : Nat → UInt32} {r : Nat} {blocks more : List (List UInt32)}

theorem nil : StoredAt mem r [] := rfl

theorem append : StoredAt mem r (blocks ++ more) ↔
    StoredAt mem r blocks ∧ StoredAt mem (r + blocks.flatten.length) more := by
  rw [StoredAt, flatten_append]
  exact load_eq_append_iff

theorem cons {block : List UInt32} : StoredAt mem r (block :: blocks) ↔
    load mem r block.length = block ∧ StoredAt mem (r + block.length) blocks := by
  have split := @append mem r [block] blocks
  simpa [StoredAt] using split

theorem store_disjoint (stored : StoredAt mem r blocks) {i : Nat} {words : List UInt32}
    (disjoint : r + blocks.flatten.length ≤ i ∨ i + words.length ≤ r) :
    StoredAt (store mem i words) r blocks := by
  rw [StoredAt, load_store_of_disjoint disjoint]
  exact stored

theorem store_self (block : List UInt32) : StoredAt (store mem r block) r [block] := by
  simp only [StoredAt, flatten_singleton]
  exact load_store_self mem r block

theorem patch {block : List UInt32} (stored : StoredAt mem r (block :: blocks)) {i : Nat}
    (lt : i < block.length) (word : UInt32) :
    StoredAt (store mem (r + i) [word]) r
      (load (store mem (r + i) [word]) r block.length :: blocks) := by
  rw [cons, length_load]
  refine ⟨rfl, (cons.mp stored).2.store_disjoint (Or.inr ?_)⟩
  rw [length_singleton]
  omega

theorem store_append (stored : StoredAt mem r blocks) (block : List UInt32) :
    StoredAt (store mem (r + blocks.flatten.length) block) r (blocks ++ [block]) :=
  append.mpr ⟨stored.store_disjoint (Or.inl le_rfl), store_self block⟩

end StoredAt

namespace Queued

variable {sb : StretchBuffer} {blocks : List (List UInt32)} {block : List UInt32}

theorem init {size : Nat} (pos : 0 < size) (extra : Nat) (mem : Nat → UInt32) :
    Queued (StretchBuffer.init size extra mem) [] where
  inside := pos
  stretch := le_rfl
  nonempty _ mem := absurd mem not_mem_nil
  between := .straight (r := 0) rfl rfl .nil

section

variable (queued : Queued sb blocks)
include queued

theorem unread_eq : sb.unread = 4 * blocks.flatten.length := by
  rw [StretchBuffer.unread]
  cases queued.between with
  | straight read write stored =>
    rw [if_pos (by omega)]
    omega
  | wrapped read before stretch write apart stored stored' =>
    rw [if_neg (by omega), flatten_append, length_append]
    omega

theorem pRead_lt : sb.pRead < sb.pEnd := by
  have inside := queued.inside
  cases queued.between with
  | straight read write stored => omega
  | wrapped read before stretch write apart stored stored' => omega

theorem getReadAvail_eq_zero_iff :
    sb.getReadAvail = 0 ↔ blocks = [] := by
  have none : blocks.flatten.length = 0 ↔ blocks = [] := by
    constructor
    · intro zero
      rw [length_eq_zero_iff, flatten_eq_nil_iff] at zero
      by_contra some
      obtain ⟨block, mem⟩ := exists_mem_of_ne_nil blocks some
      exact queued.nonempty block mem (zero block mem)
    · rintro rfl
      rfl
  rw [← none, StretchBuffer.getReadAvail]
  cases between : queued.between with
  | straight read write stored =>
    rw [if_pos (by omega)]
    omega
  | @wrapped first last second r read before stretch write apart stored stored' =>
    rw [if_neg (by omega), flatten_append, length_append]
    rw [flatten_append, length_append] at stretch
    have last_pos : 0 < last.length :=
      length_pos_of_ne_nil (queued.nonempty last (by simp))
    have : ([last] : List (List UInt32)).flatten.length = last.length := by simp
    omega

/-! ### Writing -/

theorem nonempty_append (some : block ≠ []) :
    ∀ b ∈ blocks ++ [block], b ≠ [] := by
  intro b mem
  rcases mem_append.mp mem with old | new
  · exact queued.nonempty b old
  · rw [mem_singleton.mp new]
    exact some

/-- **A message that is written is the last of the unread ones**, unless it does not fit before the
reader, or passes the end of the buffer while the reader is at the start. -/
theorem write (some : block ≠ [])
    (fits : sb.pWrite < sb.pRead → sb.pWrite + 4 * block.length < sb.pRead)
    (room : ¬ (sb.pRead = 0 ∧ sb.pEnd ≤ sb.pWrite + 4 * block.length)) :
    Queued (sb.write block) (blocks ++ [block]) := by
  have inside := queued.inside
  have stretch := queued.stretch
  have all := queued.nonempty_append some
  have len : (blocks ++ [block]).flatten.length = blocks.flatten.length + block.length := by simp
  rw [StretchBuffer.write, StretchBuffer.writeUpdate, StretchBuffer.putWords]
  dsimp only
  cases queued.between with
  | @straight _ r read write stored =>
    have here : sb.pWrite / 4 = r + blocks.flatten.length := by omega
    have stored' : StoredAt (store sb.mem (sb.pWrite / 4) block) r (blocks ++ [block]) := by
      rw [here]
      exact stored.store_append block
    have ends : sb.pWrite + 4 * block.length = 4 * (r + (blocks ++ [block]).flatten.length) := by
      rw [len]
      omega
    split
    next reaches =>
      rw [if_pos (show sb.pRead ≠ 0 by omega)]
      refine ⟨show 0 < sb.pEnd by omega, reaches, all, ?_⟩
      have before : 4 * (r + blocks.flatten.length) < sb.pEnd := by omega
      have wrapped := @Unread.wrapped
        { sb with
          mem := store sb.mem (sb.pWrite / 4) block
          pStretchEnd := sb.pWrite + 4 * block.length
          pWrite := 0 } blocks block [] r read before ends rfl
        (show 0 < sb.pRead by omega) stored' .nil
      rwa [append_nil] at wrapped
    next short =>
      exact ⟨not_le.mp short, stretch, all, .straight read ends stored'⟩
  | @wrapped first last second r read before stretch' write apart stored stored' =>
    have here : sb.pWrite / 4 = second.flatten.length := by omega
    have below := fits apart
    rw [if_neg (by omega)]
    refine ⟨show sb.pWrite + 4 * block.length < sb.pEnd by omega, stretch, all, ?_⟩
    have later : StoredAt (store sb.mem (sb.pWrite / 4) block) r (first ++ [last]) :=
      stored.store_disjoint (Or.inr (by omega))
    have second' : StoredAt (store sb.mem (sb.pWrite / 4) block) 0 (second ++ [block]) := by
      rw [here, ← Nat.zero_add second.flatten.length]
      exact stored'.store_append block
    have len' : (second ++ [block]).flatten.length = second.flatten.length + block.length := by
      simp
    have ends : sb.pWrite + 4 * block.length = 4 * (second ++ [block]).flatten.length := by
      omega
    have wrapped := @Unread.wrapped
      { sb with
        mem := store sb.mem (sb.pWrite / 4) block
        pWrite := sb.pWrite + 4 * block.length } first last (second ++ [block]) r read before
      stretch'
      ends below later second'
    rwa [← append_assoc] at wrapped

theorem write_refused (start : sb.pRead = 0)
    (reaches : sb.pEnd ≤ sb.pWrite + 4 * block.length) : Queued (sb.write block) blocks := by
  rw [StretchBuffer.write, StretchBuffer.writeUpdate, StretchBuffer.putWords]
  rw [if_pos reaches, if_neg (not_not.mpr start)]
  refine ⟨queued.inside, queued.stretch, queued.nonempty, ?_⟩
  cases queued.between with
  | @straight _ r read write stored =>
    exact .straight (r := r) read write (stored.store_disjoint (Or.inl (by omega)))
  | wrapped read before stretch write apart stored stored' => omega

/-! ### Reading -/

end

theorem front (queued : Queued sb (block :: blocks)) :
    load sb.mem (sb.pRead / 4) block.length = block := by
  have found {r : Nat} {more : List (List UInt32)} (read : sb.pRead = 4 * r)
      (stored : StoredAt sb.mem r (block :: more)) :
      load sb.mem (sb.pRead / 4) block.length = block := by
    have here : sb.pRead / 4 = r := by omega
    rw [here]
    simpa [StoredAt] using (StoredAt.cons.mp stored).1
  generalize eq : block :: blocks = messages at queued
  cases queued.between with
  | straight read write stored =>
    subst eq
    exact found read stored
  | @wrapped first last second r read before stretch write apart stored stored' =>
    cases first with
    | nil | cons oldest first =>
      obtain ⟨rfl, -⟩ := cons.inj eq
      exact found read stored

theorem read (queued : Queued sb (block :: blocks)) :
    Queued (sb.readUpdate (4 * block.length)) blocks := by
  have inside := queued.inside
  have stretch := queued.stretch
  have others : ∀ b ∈ blocks, b ≠ [] := fun b mem => queued.nonempty b (mem_cons_of_mem _ mem)
  rw [StretchBuffer.readUpdate]
  generalize eq : block :: blocks = messages at queued
  cases queued.between with
  | @straight _ r read write stored =>
    subst eq
    have len : (block :: blocks).flatten.length = block.length + blocks.flatten.length := by simp
    rw [if_neg (by omega)]
    have start : sb.pRead + 4 * block.length = 4 * (r + block.length) := by omega
    have ends : sb.pWrite = 4 * (r + block.length + blocks.flatten.length) := by omega
    exact ⟨inside, stretch, others, .straight start ends (StoredAt.cons.mp stored).2⟩
  | @wrapped first last second r read before ends write apart stored stored' =>
    cases first with
    | nil =>
      -- the last message before the start: the reader goes back
      obtain ⟨rfl, rfl⟩ := cons.inj eq
      have len : ([] ++ [block] : List (List UInt32)).flatten.length = block.length := by simp
      rw [if_pos (by omega)]
      have zero : sb.pWrite = 4 * (0 + ([] ++ blocks).flatten.length) := by
        rw [nil_append, Nat.zero_add]
        exact write
      exact ⟨inside, stretch, others, .straight rfl zero stored'⟩
    | cons oldest first =>
      obtain ⟨rfl, rfl⟩ := cons.inj eq
      have len : (block :: first).flatten.length = block.length + first.flatten.length := by simp
      have len' : (block :: first ++ [last]).flatten.length =
          block.length + (first ++ [last]).flatten.length := by simp
      have len_last : (first ++ [last]).flatten.length = first.flatten.length + last.length := by
        simp
      rw [len] at before
      rw [len'] at ends
      rw [if_neg (by omega)]
      have start : sb.pRead + 4 * block.length = 4 * (r + block.length) := by omega
      have before' : 4 * (r + block.length + first.flatten.length) < sb.pEnd := by omega
      have ends' : sb.pStretchEnd = 4 * (r + block.length + (first ++ [last]).flatten.length) := by
        omega
      exact ⟨inside, stretch, others, .wrapped start before' ends' write
        (show sb.pWrite < sb.pRead + 4 * block.length by omega) (StoredAt.cons.mp stored).2 stored'⟩

theorem patch (queued : Queued sb (block :: blocks)) {i : Nat} (lt : i < block.length)
    (word : UInt32) :
    ∃ block', block'.length = block.length ∧
      Queued { sb with mem := store sb.mem (sb.pRead / 4 + i) [word] } (block' :: blocks) := by
  have inside := queued.inside
  have stretch := queued.stretch
  have others : ∀ block', block'.length = block.length → ∀ b ∈ block' :: blocks, b ≠ [] := by
    intro block' same b mem
    rcases mem_cons.mp mem with rfl | old
    · exact ne_nil_of_length_pos (by omega)
    · exact queued.nonempty b (mem_cons_of_mem _ old)
  refine ⟨load (store sb.mem (sb.pRead / 4 + i) [word]) (sb.pRead / 4) block.length,
    length_load _ _ _, inside, stretch, others _ (length_load _ _ _), ?_⟩
  generalize eq : block :: blocks = messages at queued
  cases queued.between with
  | @straight _ r read write stored =>
    subst eq
    have here : sb.pRead / 4 = r := by omega
    rw [here]
    refine .straight read ?_ (stored.patch lt word)
    simpa using write
  | @wrapped first last second r read before ends write apart stored stored' =>
    have here : sb.pRead / 4 = r := by omega
    have start : StoredAt (store sb.mem (r + i) [word]) 0 second :=
      stored'.store_disjoint (Or.inl (by omega))
    rw [here]
    cases first with
    | nil =>
      obtain ⟨rfl, rfl⟩ := cons.inj eq
      have len : ([] ++ [load (store sb.mem (r + i) [word]) r block.length]).flatten.length =
          ([] ++ [block]).flatten.length := by simp
      exact @Unread.wrapped _ [] _ blocks r read before (by rw [len]; exact ends) write apart
        (stored.patch lt word) start
    | cons oldest first =>
      obtain ⟨rfl, rfl⟩ := cons.inj eq
      have len (more : List (List UInt32)) :
          (load (store sb.mem (r + i) [word]) r block.length :: more).flatten.length =
            (block :: more).flatten.length := by simp
      exact @Unread.wrapped _ (load (store sb.mem (r + i) [word]) r block.length :: first) last
        second r read (by rw [len]; exact before)
        (by rw [cons_append, len]; exact ends) write apart (stored.patch lt word) start

end Queued

end EchoLife.Dsl
