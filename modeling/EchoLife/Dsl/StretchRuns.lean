import EchoLife.Dsl.StretchBuffer

/-!
# Writer and reader of a stretch buffer

The two sides of a stretch buffer share its pointers without a lock. A step of the model is one
access to what they share: a pointer is loaded or stored, or a word of a message is. In every
interleaving the reader obtains the messages whose update was not dropped, whole and in their order,
and those it has not yet obtained are intact (`stretchPair_run`).
-/

namespace EchoLife.Dsl

open List ByteStore StretchBuffer

inductive WriterPhase where
  | idle
  | filling (block : List UInt32) (stored : Nat)
  | wrapping (block : List UInt32)

inductive ReaderPhase where
  | idle
  | looking
  | reading (avail : Nat) (seen : List UInt32)
  | updating (next : Nat) (seen : List UInt32)

structure StretchPair where
  sb : StretchBuffer
  writer : WriterPhase
  reader : ReaderPhase
  accepted : List (List UInt32)
  received : List (List UInt32)

inductive StretchStep where
  | askSpace (block : List UInt32)
  | storeWord
  | writeUpdate
  | storeWrite
  | loadWrite
  | loadStretchEnd
  | loadWord
  | readUpdate
  | storeRead

namespace StretchPair

def init (size extra : Nat) (mem : Nat → UInt32) : StretchPair :=
  ⟨.init size extra mem, .idle, .idle, [], []⟩

def pending (s : StretchPair) : List (List UInt32) := s.accepted.drop s.received.length

def oldest (s : StretchPair) : List UInt32 := s.pending.headD []

def step (s : StretchPair) (event : StretchStep) : StretchPair :=
  match event, s.writer, s.reader with
  | .askSpace block, .idle, _ =>
    if block ≠ [] ∧ 4 * block.length ≤ s.sb.getWriteAvail ∧
        4 * block.length ≤ s.sb.pExtraEnd - s.sb.pEnd then
      { s with writer := .filling block 0 }
    else s
  | .storeWord, .filling block k, _ =>
    if k < block.length then
      { s with
        sb := { s.sb with mem := store s.sb.mem (s.sb.pWrite / 4 + k) [block.getD k 0] }
        writer := .filling block (k + 1) }
    else s
  | .writeUpdate, .filling block k, _ =>
    let p := s.sb.pWrite + 4 * block.length
    if k < block.length then s
    else if s.sb.pEnd ≤ p then
      if s.sb.pRead ≠ 0 then
        { s with sb := { s.sb with pStretchEnd := p }, writer := .wrapping block }
      else { s with writer := .idle }
    else
      { s with
        sb := { s.sb with pWrite := p }, writer := .idle, accepted := s.accepted ++ [block] }
  | .storeWrite, .wrapping block, _ =>
    { s with sb := { s.sb with pWrite := 0 }, writer := .idle, accepted := s.accepted ++ [block] }
  | .loadWrite, _, .idle =>
    if s.sb.pWrite < s.sb.pRead then { s with reader := .looking }
    else if s.sb.pRead = s.sb.pWrite then s
    else { s with reader := .reading (s.sb.pWrite - s.sb.pRead) [] }
  | .loadStretchEnd, _, .looking =>
    { s with reader := .reading (s.sb.pStretchEnd - s.sb.pRead) [] }
  | .loadWord, _, .reading avail seen =>
    if seen.length < s.oldest.length then
      { s with reader := .reading avail (seen ++ [s.sb.mem (s.sb.pRead / 4 + seen.length)]) }
    else s
  | .readUpdate, _, .reading _ seen =>
    if seen.length < s.oldest.length then s
    else { s with reader := .updating (s.sb.readUpdate (4 * s.oldest.length)).pRead seen }
  | .storeRead, _, .updating next seen =>
    { s with
      sb := { s.sb with pRead := next }, reader := .idle, received := s.received ++ [seen] }
  | _, _, _ => s

def run (s : StretchPair) (events : List StretchStep) : StretchPair := events.foldl step s

end StretchPair

/-! ## What both sides can rely on -/

def WriterPhase.Ok (sb : StretchBuffer) : WriterPhase → Prop
  | .idle => True
  | .filling block k => block ≠ [] ∧ k ≤ block.length ∧
      (sb.pWrite < sb.pRead → sb.pWrite + 4 * block.length < sb.pRead) ∧
      load sb.mem (sb.pWrite / 4) k = block.take k
  | .wrapping block => block ≠ [] ∧ load sb.mem (sb.pWrite / 4) block.length = block ∧
      sb.pEnd ≤ sb.pStretchEnd ∧ sb.pStretchEnd = sb.pWrite + 4 * block.length ∧
      sb.pRead ≠ 0 ∧ sb.pRead ≤ sb.pWrite

def ReaderPhase.Ok (sb : StretchBuffer) (pending : List (List UInt32)) : ReaderPhase → Prop
  | .idle => True
  | .looking => sb.pWrite < sb.pRead
  | .reading avail seen => pending ≠ [] ∧ 4 * (pending.headD []).length ≤ avail ∧
      seen <+: pending.headD []
  | .updating next seen => pending ≠ [] ∧ seen = pending.headD [] ∧
      next = (sb.readUpdate (4 * (pending.headD []).length)).pRead

structure StretchPair.Ok (s : StretchPair) : Prop where
  order : s.received <+: s.accepted
  queued : Queued s.sb s.pending
  writer : s.writer.Ok s.sb
  reader : s.reader.Ok s.sb s.pending

variable {sb : StretchBuffer} {blocks : List (List UInt32)} {block : List UInt32}

theorem Queued.store (queued : Queued sb blocks) {i : Nat} (words : List UInt32)
    (behind : sb.pWrite / 4 ≤ i) (fits : sb.pWrite < sb.pRead → 4 * (i + words.length) ≤ sb.pRead) :
    Queued { sb with mem := store sb.mem i words } blocks := by
  refine ⟨queued.inside, queued.stretch, queued.nonempty, ?_⟩
  cases queued.between with
  | @straight _ r read write stored =>
    exact .straight (r := r) read write (stored.store_disjoint (.inl (by omega)))
  | @wrapped first last second r read before stretch write apart stored stored' =>
    exact @Unread.wrapped { sb with mem := ByteStore.store sb.mem i words } first last second r
      read before stretch write apart (stored.store_disjoint (.inr (by omega)))
      (stored'.store_disjoint (.inl (by omega)))

theorem Queued.stretched (queued : Queued sb blocks) (behind : sb.pRead ≤ sb.pWrite) {p : Nat}
    (reaches : sb.pEnd ≤ p) : Queued { sb with pStretchEnd := p } blocks := by
  refine ⟨queued.inside, reaches, queued.nonempty, ?_⟩
  cases queued.between with
  | straight read write stored => exact .straight read write stored
  | wrapped read before stretch write apart stored stored' => omega

theorem Queued.oldest_le (queued : Queued sb (block :: blocks)) :
    if sb.pRead ≤ sb.pWrite then sb.pRead + 4 * block.length ≤ sb.pWrite
    else sb.pRead + 4 * block.length ≤ sb.pStretchEnd := by
  generalize eq : block :: blocks = messages at queued
  cases queued.between with
  | straight read write stored =>
    subst eq
    rw [flatten_cons, length_append] at write
    rw [if_pos (by omega)]
    omega
  | @wrapped first last second r read before stretch write apart stored stored' =>
    have part : block.length ≤ (first ++ [last]).flatten.length := by
      cases first with
      | nil | cons oldest first =>
        obtain ⟨rfl, -⟩ := cons.inj eq
        simp
    rw [if_neg (by omega)]
    omega

theorem Queued.ne_nil_of_ne (queued : Queued sb blocks) (apart : sb.pRead ≠ sb.pWrite) :
    blocks ≠ [] := by
  rintro rfl
  have none := queued.unread_eq
  have stretch := queued.stretch
  have reader := queued.pRead_lt
  rw [unread] at none
  simp only [flatten_nil, length_nil, Nat.mul_zero] at none
  split at none <;> omega

theorem Queued.writeUpdate (queued : Queued sb blocks) (some : block ≠ [])
    (stored : load sb.mem (sb.pWrite / 4) block.length = block)
    (fits : sb.pWrite < sb.pRead → sb.pWrite + 4 * block.length < sb.pRead)
    (room : ¬ (sb.pRead = 0 ∧ sb.pEnd ≤ sb.pWrite + 4 * block.length)) :
    Queued (sb.writeUpdate (4 * block.length)) (blocks ++ [block]) := by
  have same : sb.putWords block = sb := by
    have stays := store_load_self sb.mem (sb.pWrite / 4) block.length
    rw [stored] at stays
    rw [StretchBuffer.putWords, stays]
  have written := queued.write some fits room
  rwa [StretchBuffer.write, same] at written

namespace StretchPair

variable {s : StretchPair}

theorem init_ok {size : Nat} (pos : 0 < size) (extra : Nat) (mem : Nat → UInt32) :
    (init size extra mem).Ok :=
  ⟨List.nil_prefix, Queued.init pos extra mem, trivial, trivial⟩

theorem Ok.pending_accept (ok : s.Ok) (block : List UInt32) :
    (s.accepted ++ [block]).drop s.received.length = s.pending ++ [block] :=
  drop_append_of_le_length ok.order.length_le

theorem Ok.reader_accept (ok : s.Ok) (sb : StretchBuffer) (read : sb.pRead = s.sb.pRead)
    (looks : s.sb.pWrite < s.sb.pRead → sb.pWrite < sb.pRead)
    (ends : ∀ oldest rest, s.pending = oldest :: rest →
      (sb.pStretchEnd ≤ sb.pRead + 4 * oldest.length ↔
        s.sb.pStretchEnd ≤ s.sb.pRead + 4 * oldest.length))
    (more : List (List UInt32)) : s.reader.Ok sb (s.pending ++ more) := by
  have facts := ok.reader
  cases phase : s.reader with
  | idle => trivial
  | looking =>
    rw [phase] at facts
    exact looks facts
  | reading avail seen =>
    rw [phase] at facts
    obtain ⟨some, whole, seen⟩ := facts
    obtain ⟨oldest, rest, eq⟩ := exists_cons_of_ne_nil some
    rw [eq] at whole seen ⊢
    exact ⟨cons_ne_nil _ _, whole, seen⟩
  | updating next seen =>
    rw [phase] at facts
    obtain ⟨some, seen, next⟩ := facts
    obtain ⟨oldest, rest, eq⟩ := exists_cons_of_ne_nil some
    have same := ends oldest rest eq
    rw [eq] at seen next ⊢
    refine ⟨cons_ne_nil _ _, seen, next.trans ?_⟩
    simp only [readUpdate, headD_cons, cons_append]
    rw [read] at same ⊢
    exact if_congr same.symm rfl rfl

theorem Ok.reader_same (ok : s.Ok) {sb : StretchBuffer} (read : sb.pRead = s.sb.pRead)
    (write : sb.pWrite = s.sb.pWrite) (ends : sb.pStretchEnd = s.sb.pStretchEnd) :
    s.reader.Ok sb s.pending := by
  have kept := ok.reader_accept sb read (by rw [read, write]; exact id)
    (fun _ _ _ => by rw [read, ends]) []
  rwa [append_nil] at kept

/-! ### The writer -/

section Writer

variable {block : List UInt32} {k : Nat}

theorem Ok.storeWord (ok : s.Ok) (phase : s.writer = .filling block k) (more : k < block.length) :
    Ok { s with
      sb := { s.sb with mem := ByteStore.store s.sb.mem (s.sb.pWrite / 4 + k) [block.getD k 0] }
      writer := .filling block (k + 1) } := by
  have facts := ok.writer
  rw [phase] at facts
  obtain ⟨some, le, fits, stored⟩ := facts
  have queued := ok.queued.store [block.getD k 0] (Nat.le_add_right _ k)
    (fun ahead => by have := fits ahead; simp only [length_singleton]; omega)
  refine ⟨ok.order, queued, ⟨some, more, fits, ?_⟩, ok.reader_same rfl rfl rfl⟩
  rw [load_add, load_store_of_disjoint (.inl (le_refl _)), stored, take_succ_eq_append_getElem more]
  congr 1
  have word := load_store_self s.sb.mem (s.sb.pWrite / 4 + k) [block.getD k 0]
  simpa [getD_eq_getElem?_getD, getElem?_eq_getElem more] using word

theorem Ok.writeUpdate (ok : s.Ok) (phase : s.writer = .filling block k)
    (full : ¬ k < block.length) : (s.step .writeUpdate).Ok := by
  have facts := ok.writer
  rw [phase] at facts
  obtain ⟨some, le, fits, stored⟩ := facts
  rw [show k = block.length by omega, take_length] at stored
  have reader := ok.queued.pRead_lt
  have inside := ok.queued.inside
  unfold step
  simp only [phase, if_neg full]
  split
  next reaches =>
    have behind : s.sb.pRead ≤ s.sb.pWrite := by
      by_contra ahead
      omega
    split
    next away =>
      refine ⟨ok.order, ok.queued.stretched behind reaches,
        ⟨some, stored, reaches, rfl, away, behind⟩, ?_⟩
      have kept := ok.reader_accept { s.sb with pStretchEnd := s.sb.pWrite + 4 * block.length }
        rfl id (fun oldest rest eq => ?_) []
      · rwa [append_nil] at kept
      · -- The oldest message ends before the write pointer, so before both ends.
        have ends := (eq ▸ ok.queued : Queued s.sb (oldest :: rest)).oldest_le
        have stretch := ok.queued.stretch
        rw [if_pos behind] at ends
        have later : s.sb.pRead + 4 * oldest.length < s.sb.pWrite + 4 * block.length := by omega
        exact iff_of_false (not_le.mpr later) (by omega)
    next start => exact ⟨ok.order, ok.queued, trivial, ok.reader⟩
  next short =>
    have queued := ok.queued.writeUpdate some stored fits (fun h => short h.2)
    rw [StretchBuffer.writeUpdate, if_neg short] at queued
    refine ⟨ok.order.trans (prefix_append _ _), ?_, trivial, ?_⟩
    · rw [pending, ok.pending_accept]
      exact queued
    · rw [pending, ok.pending_accept]
      refine ok.reader_accept { s.sb with pWrite := s.sb.pWrite + 4 * block.length } rfl ?_
        (fun _ _ _ => Iff.rfl) [block]
      exact fits

theorem Ok.storeWrite (ok : s.Ok) (phase : s.writer = .wrapping block) :
    (s.step .storeWrite).Ok := by
  have facts := ok.writer
  rw [phase] at facts
  obtain ⟨some, stored, reaches, ends, away, behind⟩ := facts
  have queued := ok.queued.writeUpdate some stored (fun ahead => by omega) (fun h => away h.1)
  rw [StretchBuffer.writeUpdate, if_pos (ends ▸ reaches), if_pos away, ← ends] at queued
  unfold step
  simp only [phase]
  refine ⟨ok.order.trans (prefix_append _ _), ?_, trivial, ?_⟩
  · rw [pending, ok.pending_accept]
    exact queued
  · rw [pending, ok.pending_accept]
    exact ok.reader_accept { s.sb with pWrite := 0 } rfl (fun ahead => by omega)
      (fun _ _ _ => Iff.rfl) [block]

end Writer

/-! ### The reader -/

theorem Ok.writer_read (ok : s.Ok) {oldest : List UInt32} {rest : List (List UInt32)}
    (eq : s.pending = oldest :: rest) :
    s.writer.Ok (s.sb.readUpdate (4 * oldest.length)) := by
  have facts := ok.writer
  have ends := (eq ▸ ok.queued : Queued s.sb (oldest :: rest)).oldest_le
  cases phase : s.writer with
  | idle => trivial
  | filling block k =>
    rw [phase] at facts
    obtain ⟨some, le, fits, stored⟩ := facts
    refine ⟨some, le, ?_, stored⟩
    simp only [readUpdate]
    split at ends <;> split <;> omega
  | wrapping block =>
    rw [phase] at facts
    obtain ⟨some, stored, reaches, stretch, away, behind⟩ := facts
    rw [if_pos behind] at ends
    have pos := length_pos_of_ne_nil some
    refine ⟨some, stored, reaches, stretch, ?_, ?_⟩ <;>
    · simp only [readUpdate]
      rw [if_neg (by omega)]
      omega

theorem Ok.storeRead (ok : s.Ok) {next : Nat} {seen : List UInt32}
    (phase : s.reader = .updating next seen) : (s.step .storeRead).Ok := by
  have facts := ok.reader
  rw [phase] at facts
  obtain ⟨some, seen', next'⟩ := facts
  obtain ⟨oldest, rest, eq⟩ := exists_cons_of_ne_nil some
  rw [eq, headD_cons] at seen' next'
  subst seen' next'
  have left : s.accepted.drop (s.received ++ [seen]).length = rest := by
    rw [length_append, length_singleton, ← drop_drop]
    exact congrArg (drop 1) eq
  have order : s.received ++ [seen] <+: s.accepted := by
    obtain ⟨more, all⟩ := ok.order
    have same : more = seen :: rest := by
      rw [← eq, pending, ← all, drop_left]
    exact ⟨rest, by rw [← all, same, append_assoc, singleton_append]⟩
  have queued := (eq ▸ ok.queued : Queued s.sb (seen :: rest)).read
  unfold step
  simp only [phase]
  refine ⟨order, ?_, ok.writer_read eq, trivial⟩
  rw [pending, left]
  exact queued

theorem Ok.loadWord (ok : s.Ok) {avail : Nat} {seen : List UInt32}
    (phase : s.reader = .reading avail seen) : (s.step .loadWord).Ok := by
  have facts := ok.reader
  rw [phase] at facts
  obtain ⟨some, whole, same⟩ := facts
  obtain ⟨first, rest, eq⟩ := exists_cons_of_ne_nil some
  unfold step
  simp only [phase]
  split
  next more =>
    refine ⟨ok.order, ok.queued, ok.writer, some, whole, ?_⟩
    have front := (eq ▸ ok.queued : Queued s.sb (first :: rest)).front
    rw [oldest, eq, headD_cons] at more
    change seen ++ [_] <+: s.pending.headD []
    rw [eq, headD_cons] at same ⊢
    have word : s.sb.mem (s.sb.pRead / 4 + seen.length) = first[seen.length] := by
      have at_ := getElem?_load s.sb.mem (s.sb.pRead / 4) first.length seen.length
      rw [front, if_pos more, getElem?_eq_getElem more] at at_
      exact (Option.some.inj at_).symm
    obtain ⟨tail, rfl⟩ := same
    cases tail with
    | nil => simp at more
    | cons w tail =>
      rw [word]
      exact ⟨tail, by simp⟩
  next => exact ok

theorem Ok.look (ok : s.Ok) (apart : s.sb.pRead ≠ s.sb.pWrite) {avail : Nat}
    (enough : if s.sb.pRead ≤ s.sb.pWrite then s.sb.pWrite - s.sb.pRead ≤ avail
      else s.sb.pStretchEnd - s.sb.pRead ≤ avail) :
    Ok { s with reader := .reading avail [] } := by
  have some := ok.queued.ne_nil_of_ne apart
  obtain ⟨first, rest, eq⟩ := exists_cons_of_ne_nil some
  have ends := (eq ▸ ok.queued : Queued s.sb (first :: rest)).oldest_le
  refine ⟨ok.order, ok.queued, ok.writer, some, ?_, nil_prefix⟩
  change 4 * (s.pending.headD []).length ≤ avail
  rw [eq, headD_cons]
  split at ends <;> rename_i h <;> simp only [h, if_true, if_false] at enough <;> omega

theorem Ok.step (ok : s.Ok) (event : StretchStep) : (s.step event).Ok := by
  unfold StretchPair.step
  split
  next block phase =>
    split
    next asked =>
      refine ⟨ok.order, ok.queued, ⟨asked.1, Nat.zero_le _, fun ahead => ?_, rfl⟩, ok.reader⟩
      have room := asked.2.1
      have pos := length_pos_of_ne_nil asked.1
      rw [getWriteAvail, if_pos ahead] at room
      change s.sb.pWrite + 4 * block.length < s.sb.pRead
      omega
    next => exact ok
  next block k phase =>
    split
    next more => exact ok.storeWord phase more
    next => exact ok
  next block k phase =>
    by_cases more : k < block.length
    · rwa [if_pos more]
    · simpa only [StretchPair.step, phase] using ok.writeUpdate phase more
  next block phase => simpa only [StretchPair.step, phase] using ok.storeWrite phase
  next phase =>
    split
    next ahead => exact ⟨ok.order, ok.queued, ok.writer, ahead⟩
    next behind =>
      split
      next => exact ok
      next apart => exact ok.look apart (by rw [if_pos (by omega)])
  next phase =>
    have ahead : s.sb.pWrite < s.sb.pRead := by
      have facts := ok.reader
      rwa [phase] at facts
    exact ok.look (by omega) (by rw [if_neg (by omega)])
  next avail seen phase => simpa only [StretchPair.step, phase] using ok.loadWord phase
  next avail seen phase =>
    split
    next => exact ok
    next full =>
      have facts := ok.reader
      rw [phase] at facts
      obtain ⟨some, whole, same⟩ := facts
      exact ⟨ok.order, ok.queued, ok.writer, some, same.eq_of_length_le (not_lt.mp full), rfl⟩
  next after seen phase => simpa only [StretchPair.step, phase] using ok.storeRead phase
  next => exact ok

theorem Ok.run (ok : s.Ok) (events : List StretchStep) : (s.run events).Ok := by
  induction events generalizing s with
  | nil => exact ok
  | cons event events ih => exact ih (ok.step event)

end StretchPair

/-- **A queue for one writer and one reader.** In every interleaving the reader has obtained the
first of the accepted messages, whole and in order, the others are in the buffer as they were
written, and the reader finds the buffer empty only when it has obtained all. -/
theorem stretchPair_run {size : Nat} (pos : 0 < size) (extra : Nat) (mem : Nat → UInt32)
    (events : List StretchStep) :
    let s := (StretchPair.init size extra mem).run events
    s.accepted = s.received ++ s.pending ∧ Queued s.sb s.pending ∧
      (s.sb.getReadAvail = 0 ↔ s.received = s.accepted) := by
  have ok := (StretchPair.init_ok pos extra mem).run events
  generalize (StretchPair.init size extra mem).run events = s at ok
  have split : s.accepted = s.received ++ s.pending := by
    obtain ⟨more, all⟩ := ok.order
    rw [StretchPair.pending, ← all, drop_left]
  refine ⟨split, ok.queued, ?_⟩
  rw [ok.queued.getReadAvail_eq_zero_iff]
  constructor
  · intro none
    rw [split, none, append_nil]
  · intro all
    rw [StretchPair.pending, all, drop_length]

theorem stretchPair_run_wrapped :
    let fill := replicate 2 StretchStep.storeWord
    let s := (StretchPair.init 16 8 fun _ => 0).run ([.askSpace [1, 2]] ++ fill ++
      [.writeUpdate, .loadWrite, .loadWord, .loadWord, .readUpdate, .storeRead, .askSpace [3, 4]] ++
      fill ++ [.writeUpdate, .loadWrite, .storeWrite, .loadWrite])
    s.accepted = s.received ++ s.pending ∧ Queued s.sb s.pending ∧
      (s.sb.getReadAvail = 0 ↔ s.received = s.accepted) :=
  stretchPair_run (by decide) 8 _ _

end EchoLife.Dsl
