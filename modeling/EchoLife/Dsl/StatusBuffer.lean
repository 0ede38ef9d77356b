import EchoLife.Dsl.StretchBuffer
import EchoLife.Dsl.FlattenRoundTrip

/-!
# The status buffer

The DSL processor writes statuses with `FlattenBufferStatusWrite` while the host reads them with
`FlattenBufferStatusRead`. `StatusLink` is the buffer with the host's side and a record of what
went in and came out: the host obtains the statuses that were accepted, in their order
(`statusLink_run`).
-/

namespace EchoLife.Dsl

open List ByteStore

/-! ## The two operations -/

def flattenBufferStatusWrite (status : DslStatusStruct) (sb : StretchBuffer) :
    Nat × StretchBuffer :=
  let statBytesAvail := sb.getWriteAvail
  if statBytesAvail < 32 then (0, sb)
  else
    match flattenStatus status ((statBytesAvail - 4) / 4 : Nat) with
    | none => (0, sb)
    | some words => (4 * words.length + 4, sb.write (words ++ [bufferAnchor]))

structure StatusRead where
  ret : Int
  status : Option DslStatusStruct
  statData : StatData
  sb : StretchBuffer

def patchWord (patch : Option (Nat × UInt32)) (sb : StretchBuffer) : StretchBuffer :=
  match patch with
  | none => sb
  | some (i, word) => { sb with mem := store sb.mem (sb.pRead / 4 + i) [word] }

def flattenBufferStatusRead (host : HostAddr) (sd : StatData) (sb : StretchBuffer) : StatusRead :=
  if sb.getReadAvail = 0 then ⟨0, none, sd, sb⟩
  else
    let p := sb.pRead / 4
    let found := unflattenStatus host sd fun i => sb.mem (p + i)
    let sb' := patchWord found.patch sb
    let n := 4 * found.words
    if sb'.mem (p + found.words) = bufferAnchor then ⟨n + 4, some found.status, found.statData, sb'⟩
    else
      -- sync lost
      ⟨-(n + 4), some found.status, found.statData, { sb' with pRead := sb'.pWrite }⟩

/-! ## Runs -/

/-- The status buffer and the host. `held` is the number of bytes of the status in hand; `accepted`
and `received` are the record of both sides, with the numbers of bytes. -/
structure StatusLink where
  sb : StretchBuffer
  statData : StatData
  held : Option Nat
  accepted : List (DslStatusStruct × Nat)
  received : List (DslStatusStruct × Int)

inductive StatusEvent where
  | write (status : DslStatusStruct)
  | read
  | complete

namespace StatusLink

def init (size extra : Nat) (mem : Nat → UInt32) : StatusLink :=
  ⟨.init size extra mem, ⟨0, 0⟩, none, [], []⟩

def write (status : DslStatusStruct) (link : StatusLink) : StatusLink :=
  let (n, sb) := flattenBufferStatusWrite status link.sb
  { link with
    sb
    accepted := link.accepted ++ if sb.pWrite ≠ link.sb.pWrite then [(status, n)] else [] }

def read (host : HostAddr) (link : StatusLink) : StatusLink :=
  let r := flattenBufferStatusRead host link.statData link.sb
  { link with
    sb := r.sb
    statData := r.statData
    held := if 0 < r.ret then some r.ret.toNat else none
    received := link.received ++ (r.status.map (·, r.ret)).toList }

def complete (n : Nat) (link : StatusLink) : StatusLink :=
  { link with sb := link.sb.readUpdate n, held := none }

def step (host : HostAddr) (link : StatusLink) : StatusEvent → StatusLink
  | .write status => link.write status
  | .read => if link.held = none then link.read host else link
  | .complete =>
    match link.held with
    | some n => link.complete n
    | none => link

def run (host : HostAddr) (link : StatusLink) (events : List StatusEvent) : StatusLink :=
  events.foldl (step host) link

end StatusLink

/-! ## What is expected -/

def expected (host : HostAddr) :
    StatData → List (DslStatusStruct × Nat) → List (DslStatusStruct × Int)
  | _, [] => []
  | sd, (status, n) :: rest =>
    (delivered host sd status, n) :: expected host (announced (delivered host sd status)) rest

def announcedAfter (host : HostAddr) (sd : StatData) (statuses : List (DslStatusStruct × Nat)) :
    StatData :=
  statuses.foldl (fun sd status => announced (delivered host sd status.1)) sd

section

variable (host : HostAddr) (sd : StatData)
include host sd

theorem expected_append (done pending : List (DslStatusStruct × Nat)) :
    expected host sd (done ++ pending) =
      expected host sd done ++ expected host (announcedAfter host sd done) pending := by
  induction done generalizing sd with
  | nil => rfl
  | cons status done ih => exact congrArg (_ :: ·) (ih _)

theorem announcedAfter_concat (done : List (DslStatusStruct × Nat))
    (status : DslStatusStruct × Nat) :
    announcedAfter host sd (done ++ [status]) =
      announced (delivered host (announcedAfter host sd done) status.1) :=
  foldl_append

theorem take_expected (statuses : List (DslStatusStruct × Nat)) (n : Nat) :
    (expected host sd statuses).take n = expected host sd (statuses.take n) := by
  induction statuses generalizing sd n with
  | nil => simp [expected]
  | cons status statuses ih =>
    cases n with
    | zero => rfl
    | succ n => exact congrArg (_ :: ·) (ih _ n)

theorem length_expected (statuses : List (DslStatusStruct × Nat)) :
    (expected host sd statuses).length = statuses.length := by
  induction statuses generalizing sd with
  | nil => rfl
  | cons status statuses ih => exact congrArg (· + 1) (ih _)

end

def StatusEvent.Ok : StatusEvent → Prop
  | .write status => status.WellFormed ∧ status.Carried
  | _ => True

structure Message (status : DslStatusStruct × Nat) (block : List UInt32) : Prop where
  wf : status.1.WellFormed
  carried : status.1.Carried
  flat : ∃ (avail : Int) (words : List UInt32), flattenStatus status.1 avail = some words ∧
    avail < 2 ^ 32 ∧ block = words ++ [bufferAnchor]
  bytes : status.2 = 4 * block.length

inductive InHand : Option Nat → List (List UInt32) → Prop
  | none : InHand none []
  | some (block : List UInt32) : InHand (some (4 * block.length)) [block]

/-- **The statuses that were received and those that are unread are those that were accepted.** -/
structure Linked (host : HostAddr) (link : StatusLink) (done pending : List (DslStatusStruct × Nat))
    (front blocks : List (List UInt32)) : Prop where
  accepted : link.accepted = done ++ pending
  received : link.received = expected host ⟨0, 0⟩ done
  statData : link.statData = announcedAfter host ⟨0, 0⟩ done
  inHand : InHand link.held front
  queued : Queued link.sb (front ++ blocks)
  messages : List.Forall₂ Message pending blocks
  found : ∀ r ∈ link.received, 0 < r.2
  extra : link.sb.pEnd ≤ link.sb.pExtraEnd
  small : link.sb.pExtraEnd < 2 ^ 32

theorem Reads.shift {mem : Nat → UInt32} {r : Nat} {words : List UInt32} :
    Reads (fun i => mem (r + i)) 0 words ↔ Reads mem r words := by
  have same : load (fun i => mem (r + i)) 0 words.length = load mem r words.length := by
    simp [load]
  rw [Reads, Reads, same]

theorem StretchBuffer.pEnd_write (block : List UInt32) (sb : StretchBuffer) :
    (sb.write block).pEnd = sb.pEnd ∧ (sb.write block).pExtraEnd = sb.pExtraEnd := by
  rw [write, writeUpdate]
  split
  next =>
    split
    next => exact ⟨rfl, rfl⟩
    next => exact ⟨rfl, rfl⟩
  next => exact ⟨rfl, rfl⟩

theorem Queued.write_cases {sb : StretchBuffer} {blocks : List (List UInt32)} {block : List UInt32}
    (queued : Queued sb blocks) (some : block ≠ [])
    (fits : sb.pWrite < sb.pRead → sb.pWrite + 4 * block.length < sb.pRead) :
    Queued (sb.write block)
      (blocks ++ if (sb.write block).pWrite ≠ sb.pWrite then [block] else []) := by
  have pos : 0 < block.length := length_pos_of_ne_nil some
  have before := queued.pRead_lt
  by_cases refused : sb.pRead = 0 ∧ sb.pEnd ≤ sb.pWrite + 4 * block.length
  · have same : (sb.write block).pWrite = sb.pWrite := by
      rw [StretchBuffer.write, StretchBuffer.writeUpdate, StretchBuffer.putWords]
      rw [if_pos refused.2, if_neg (not_not.mpr refused.1)]
    rw [if_neg (not_not.mpr same), append_nil]
    exact queued.write_refused refused.1 refused.2
  · have moved : (sb.write block).pWrite ≠ sb.pWrite := by
      rw [StretchBuffer.write, StretchBuffer.writeUpdate, StretchBuffer.putWords]
      by_cases reaches : sb.pEnd ≤ sb.pWrite + 4 * block.length
      · have away : sb.pRead ≠ 0 := fun start => refused ⟨start, reaches⟩
        rw [if_pos reaches, if_pos away]
        intro zero
        have start : 0 = sb.pWrite := zero
        omega
      · rw [if_neg reaches]
        intro same
        have eq : sb.pWrite + 4 * block.length = sb.pWrite := same
        omega
    rw [if_pos moved]
    exact queued.write some fits refused

theorem patchWord_spec {sb : StretchBuffer} {block : List UInt32} {blocks : List (List UInt32)}
    {patch : Option (Nat × UInt32)} {n : Nat} (queued : Queued sb (block :: blocks))
    (inside : ∀ i word, patch = some (i, word) → i < n) (le : n ≤ block.length) :
    ∃ block', block'.length = block.length ∧ Queued (patchWord patch sb) (block' :: blocks) ∧
      (patchWord patch sb).mem (sb.pRead / 4 + n) = sb.mem (sb.pRead / 4 + n) ∧
      (patchWord patch sb).pEnd = sb.pEnd ∧ (patchWord patch sb).pExtraEnd = sb.pExtraEnd := by
  cases patch with
  | none => exact ⟨block, rfl, queued, rfl, rfl, rfl⟩
  | some change =>
    obtain ⟨i, word⟩ := change
    have lt := inside i word rfl
    obtain ⟨block', len, queued'⟩ := queued.patch (lt_of_lt_of_le lt le) word
    refine ⟨block', len, queued', ?_, rfl, rfl⟩
    exact store_apply_outside (Or.inr (by rw [length_singleton]; omega))

/-- **The oldest message is read as the status it was written for**, the anchor is behind it, and
the message stays in the buffer. -/
theorem flattenBufferStatusRead_spec {host : HostAddr} {sd : StatData} {sb : StretchBuffer}
    {status : DslStatusStruct × Nat} {block : List UInt32} {blocks : List (List UInt32)}
    (queued : Queued sb (block :: blocks)) (message : Message status block) :
    ∃ block' sb', block'.length = block.length ∧ Queued sb' (block' :: blocks) ∧
      sb'.pEnd = sb.pEnd ∧ sb'.pExtraEnd = sb.pExtraEnd ∧
      flattenBufferStatusRead host sd sb =
        ⟨status.2, some (delivered host sd status.1), announced (delivered host sd status.1),
          sb'⟩ := by
  obtain ⟨wf, carried, ⟨avail, words, flat, small, rfl⟩, bytes⟩ := message
  have front : Reads sb.mem (sb.pRead / 4) (words ++ [bufferAnchor]) := queued.front
  obtain ⟨found, anchor⟩ := Reads.append.mp front
  have anchor : sb.mem (sb.pRead / 4 + words.length) = bufferAnchor := (Reads.cons.mp anchor).1
  have some : sb.getReadAvail ≠ 0 := by
    rw [Ne, queued.getReadAvail_eq_zero_iff]
    exact cons_ne_nil _ _
  obtain ⟨same, size, next, inside⟩ := @unflattenStatus_flattenStatus host sd _ avail status.1 words
    wf carried flat small (Reads.shift.mpr found)
  have le : words.length ≤ (words ++ [bufferAnchor]).length := by simp
  obtain ⟨block', len, queued', kept, ends, extra⟩ := patchWord_spec queued inside le
  refine ⟨block', _, len, queued', ends, extra, ?_⟩
  rw [flattenBufferStatusRead, if_neg some]
  dsimp only
  rw [size, kept, if_pos anchor, same, next, bytes, length_append, length_singleton]
  rfl

namespace Linked

variable {host : HostAddr} {link : StatusLink} {done pending : List (DslStatusStruct × Nat)}
  {front blocks : List (List UInt32)}

theorem init {size : Nat} (pos : 0 < size) (extra : Nat) (small : size + extra < 2 ^ 32)
    (mem : Nat → UInt32) : Linked host (.init size extra mem) [] [] [] [] where
  accepted := rfl
  received := rfl
  statData := rfl
  inHand := .none
  queued := .init pos extra mem
  messages := .nil
  found _ mem := absurd mem not_mem_nil
  extra := Nat.le_add_right size extra
  small := small

theorem write {status : DslStatusStruct} (linked : Linked host link done pending front blocks)
    (wf : status.WellFormed) (carried : status.Carried) :
    ∃ pending' blocks', Linked host (link.write status) done pending' front blocks' := by
  have extra := linked.extra
  have small := linked.small
  have before := linked.queued.pRead_lt
  have keep : ∀ n, flattenBufferStatusWrite status link.sb = (n, link.sb) →
      ∃ pending' blocks', Linked host (link.write status) done pending' front blocks' := by
    intro n same
    refine ⟨pending, blocks, ?_⟩
    have eq : link.write status = link := by
      rw [StatusLink.write, same]
      simp
    rw [eq]
    exact linked
  have avail_lt : link.sb.getWriteAvail < 2 ^ 32 := by
    rw [StretchBuffer.getWriteAvail]
    split <;> omega
  by_cases full : link.sb.getWriteAvail < 32
  · exact keep 0 (by rw [flattenBufferStatusWrite, if_pos full])
  cases flat : flattenStatus status ((link.sb.getWriteAvail - 4) / 4 : Nat) with
  | none =>
    refine keep 0 ?_
    rw [flattenBufferStatusWrite, if_neg full]
    simp only [flat]
  | some words =>
    have len := flattenStatus_length_le wf flat (by omega)
    have block_len : (words ++ [bufferAnchor]).length = words.length + 1 := by simp
    have eq : flattenBufferStatusWrite status link.sb =
        (4 * words.length + 4, link.sb.write (words ++ [bufferAnchor])) := by
      rw [flattenBufferStatusWrite, if_neg full]
      simp only [flat]
    have fits : link.sb.pWrite < link.sb.pRead →
        link.sb.pWrite + 4 * (words ++ [bufferAnchor]).length < link.sb.pRead := by
      intro behind
      rw [StretchBuffer.getWriteAvail, if_pos behind] at len full
      omega
    have some_word : words ++ [bufferAnchor] ≠ [] := by simp
    have queued := linked.queued.write_cases some_word fits
    have ends := link.sb.pEnd_write (words ++ [bufferAnchor])
    have message : Message (status, 4 * words.length + 4) (words ++ [bufferAnchor]) :=
      ⟨wf, carried, ⟨_, words, flat, by omega, rfl⟩, by rw [block_len]; omega⟩
    rw [StatusLink.write, eq]
    dsimp only
    by_cases moved : (link.sb.write (words ++ [bufferAnchor])).pWrite ≠ link.sb.pWrite
    · rw [if_pos moved, append_assoc] at queued
      refine ⟨pending ++ [(status, 4 * words.length + 4)], blocks ++ [words ++ [bufferAnchor]], ?_⟩
      rw [if_pos moved, linked.accepted, append_assoc]
      exact {
        accepted := rfl
        received := linked.received
        statData := linked.statData
        inHand := linked.inHand
        queued
        messages := rel_append linked.messages (.cons message .nil)
        found := linked.found
        extra := by rw [ends.1, ends.2]; exact extra
        small := by rw [ends.2]; exact small }
    · rw [if_neg moved, append_nil] at queued
      refine ⟨pending, blocks, ?_⟩
      rw [if_neg moved, append_nil]
      exact {
        accepted := linked.accepted
        received := linked.received
        statData := linked.statData
        inHand := linked.inHand
        queued
        messages := linked.messages
        found := linked.found
        extra := by rw [ends.1, ends.2]; exact extra
        small := by rw [ends.2]; exact small }

theorem complete {n : Nat} (linked : Linked host link done pending front blocks)
    (held : link.held = some n) : Linked host (link.complete n) done pending [] blocks := by
  have inHand := linked.inHand
  have queued := linked.queued
  rw [held] at inHand
  cases inHand with
  | some block =>
    exact {
      accepted := linked.accepted
      received := linked.received
      statData := linked.statData
      inHand := .none
      queued := queued.read
      messages := linked.messages
      found := linked.found
      extra := linked.extra
      small := linked.small }

/-! ### Reading -/

theorem read_nil (linked : Linked host link done [] [] []) : link.read host = link := by
  have empty := linked.queued.getReadAvail_eq_zero_iff.mpr rfl
  have inHand := linked.inHand
  have held : link.held = none := by
    cases found : link.held with
    | none => rfl
    | some n =>
      rw [found] at inHand
      cases inHand
  rw [StatusLink.read, flattenBufferStatusRead, if_pos empty]
  simp [← held]

theorem read_cons {status : DslStatusStruct × Nat} {block : List UInt32}
    (linked : Linked host link done (status :: pending) [] (block :: blocks)) :
    ∃ block', Linked host (link.read host) (done ++ [status]) pending [block'] blocks := by
  obtain ⟨message, messages⟩ := List.forall₂_cons.mp linked.messages
  obtain ⟨block', sb', len, queued, ends, extra, eq⟩ :=
    @flattenBufferStatusRead_spec host link.statData _ _ _ _ linked.queued message
  have bytes : status.2 = 4 * block'.length := by rw [len, message.bytes]
  have pos : 0 < block'.length :=
    length_pos_of_ne_nil (queued.nonempty block' mem_cons_self)
  have ret : (0 : Int) < status.2 := by omega
  refine ⟨block', ?_⟩
  rw [StatusLink.read, eq]
  rw [if_pos ret, Int.toNat_natCast, bytes]
  exact {
    accepted := by rw [linked.accepted, append_assoc]; rfl
    received := by
      rw [expected_append, linked.received, ← linked.statData, ← bytes]
      rfl
    statData := by rw [announcedAfter_concat, ← linked.statData]
    inHand := .some block'
    queued
    messages
    found := by
      intro r mem
      rcases mem_append.mp mem with old | new
      · exact linked.found r old
      · rw [← bytes] at new
        rw [mem_singleton.mp new]
        exact ret
    extra := by rw [ends, extra]; exact linked.extra
    small := by rw [extra]; exact linked.small }

theorem front_eq_nil (linked : Linked host link done pending front blocks)
    (held : link.held = none) : front = [] := by
  have inHand := linked.inHand
  rw [held] at inHand
  cases inHand
  rfl

theorem read (linked : Linked host link done pending [] blocks) :
    ∃ done' pending' front' blocks', Linked host (link.read host) done' pending' front' blocks' ∧
      done' = (done ++ pending).take (done.length + 1) := by
  cases pending with
  | nil =>
    have none : blocks = [] := List.forall₂_nil_left_iff.mp linked.messages
    subst none
    refine ⟨done, [], [], [], ?_, ?_⟩
    · rw [linked.read_nil]
      exact linked
    · rw [append_nil, take_of_length_le (Nat.le_succ _)]
  | cons status pending =>
    cases blocks with
    | nil => cases linked.messages
    | cons block blocks =>
      obtain ⟨block', next⟩ := linked.read_cons
      refine ⟨_, _, _, _, next, ?_⟩
      rw [take_length_add_append]
      rfl

theorem step {event : StatusEvent} (linked : Linked host link done pending front blocks)
    (ok : event.Ok) :
    ∃ done' pending' front' blocks', Linked host (link.step host event) done' pending' front'
      blocks' := by
  cases event with
  | write status =>
    obtain ⟨pending', blocks', next⟩ := linked.write ok.1 ok.2
    exact ⟨done, pending', front, blocks', next⟩
  | read =>
    rw [StatusLink.step]
    split
    next held =>
      obtain rfl := linked.front_eq_nil held
      obtain ⟨done', pending', front', blocks', next, -⟩ := linked.read
      exact ⟨done', pending', front', blocks', next⟩
    next => exact ⟨done, pending, front, blocks, linked⟩
  | complete =>
    rw [StatusLink.step]
    split
    next n held => exact ⟨done, pending, [], blocks, linked.complete held⟩
    next => exact ⟨done, pending, front, blocks, linked⟩

theorem run {events : List StatusEvent} (linked : Linked host link done pending front blocks)
    (ok : ∀ event ∈ events, event.Ok) :
    ∃ done' pending' front' blocks', Linked host (link.run host events) done' pending' front'
      blocks' := by
  induction events generalizing link done pending front blocks with
  | nil => exact ⟨done, pending, front, blocks, linked⟩
  | cons event events ih =>
    obtain ⟨done', pending', front', blocks', next⟩ := linked.step (ok event mem_cons_self)
    exact ih next fun later mem => ok later (mem_cons_of_mem event mem)

end Linked

/-- **The host obtains the accepted statuses in their order**, each from the bytes written for it
and with its anchor, and a read gives the next one that is unread. -/
theorem statusLink_run (host : HostAddr) {size : Nat} (pos : 0 < size) (extra : Nat)
    (small : size + extra < 2 ^ 32) (mem : Nat → UInt32) (events : List StatusEvent)
    (ok : ∀ event ∈ events, event.Ok) :
    let link := (StatusLink.init size extra mem).run host events
    link.received <+: expected host ⟨0, 0⟩ link.accepted ∧
      (∀ r ∈ link.received, 0 < r.2) ∧
      (link.held = none → (link.read host).received =
        (expected host ⟨0, 0⟩ link.accepted).take (link.received.length + 1)) := by
  intro link
  obtain ⟨done, pending, front, blocks, linked⟩ := (Linked.init pos extra small mem).run ok
  refine ⟨?_, linked.found, ?_⟩
  · rw [linked.received, linked.accepted, expected_append]
    exact prefix_append _ _
  · intro held
    obtain rfl := linked.front_eq_nil held
    obtain ⟨done', pending', front', blocks', next, eq⟩ := linked.read
    rw [next.received, eq, linked.received, linked.accepted, length_expected, take_expected]

/-- A status with data and one without, the second of which is in hand. -/
theorem statusLink_run_twoStatuses :
    let link := (StatusLink.init 128 32 fun _ => 0).run ⟨0, 0⟩
      [.write (.connectInfo 0 4 (.words [9])), .write (.training 5 7), .read, .complete, .read]
    link.accepted = [(.connectInfo 0 4 (.words [9]), 20), (.training 5 7, 16)] ∧
      link.received = [(.connectInfo 0 4 (.words [9]), 20), (.training 5 7, 16)] ∧
      link.received <+: expected ⟨0, 0⟩ ⟨0, 0⟩ link.accepted ∧
      (∀ r ∈ link.received, 0 < r.2) ∧
      (link.held = none → (link.read ⟨0, 0⟩).received =
        (expected ⟨0, 0⟩ ⟨0, 0⟩ link.accepted).take (link.received.length + 1)) := by
  refine ⟨by decide +kernel, by decide +kernel, ?_⟩
  refine statusLink_run ⟨0, 0⟩ (by decide) 32 (by decide) _ _ ?_
  have bytes : connectWellFormed 0 4 (.words [9]) :=
    ⟨show (4 : Nat) < 2 ^ 31 - 3 by decide, [9], rfl, rfl⟩
  simp [StatusEvent.Ok, bytes, DslStatusStruct.Carried, DslStatusStruct.WellFormed]

/-- Announced data take the place of those of the next status: the host obtains another length and
an address. -/
theorem statusLink_announced_data :
    let link := (StatusLink.init 128 32 fun _ => 0).run ⟨0, 0⟩
      [.write (.dspControl kDslStatusBufferInfo 40 0x1000),
        .write (.connectInfo 0 4 (.words [9])), .read, .complete, .read]
    link.accepted.map Prod.fst =
        [.dspControl kDslStatusBufferInfo 40 0x1000, .connectInfo 0 4 (.words [9])] ∧
      link.received.map Prod.fst =
        [.dspControl kDslStatusBufferInfo 40 0x1000, .connectInfo 0 40 (.addr 0x1000)] := by
  decide +kernel

end EchoLife.Dsl
