import EchoLife.Dsl.TxStream

/-!
# Runs of the framed transmitter

Frames are submitted, pulls take bytes, and flushes give the frames back, in any order.
`txRun_completes` says for every run that each frame is given back once, in the order of submission,
and not before all its bytes were taken; only a flush gives the frames that wait back before the
current one. A run stays inside its buffers if none of them is empty.
-/

namespace EchoLife.Dsl

open List Option Hdlc TxLink

inductive TxEvent where
  | sendFrame (buffers : List (List UInt8))
  | pull (nBytes : Nat)
  | txFlush
  | reset
  deriving DecidableEq

def txStep (setup : UInt32) (link : TxLink) : TxEvent → Option TxLink
  | .sendFrame buffers => some (link.sendFrame buffers)
  | .pull nBytes => (hdlcByteTx setup link nBytes).map Prod.fst
  | .txFlush => some link.txFlush
  | .reset => some link.reset

def txRun (setup : UInt32) (link : TxLink) (events : List TxEvent) : Option TxLink :=
  events.foldlM (txStep setup) link

def sentFrames (events : List TxEvent) : List (List (List UInt8)) :=
  events.filterMap fun
    | .sendFrame buffers => some buffers
    | _ => none

section Custody

variable {setup : UInt32} {link link' : TxLink}

theorem txStep_custody {event : TxEvent}
    (framed : ∀ buffers, event = .sendFrame buffers → buffers ≠ []) (custody : link.Custody)
    (step : txStep setup link event = some link') :
    link'.Custody ∧ Ledger.Steps link.framer.book link'.framer.book ∧
      link'.framer.submitted.map DslFrame.buffers =
        link.framer.submitted.map DslFrame.buffers ++ sentFrames [event] := by
  cases event with
  | sendFrame buffers =>
    obtain rfl := some.inj step
    obtain ⟨sound, holds, steps⟩ :=
      TxFramer.sendFrame_spec custody.sound custody.holds (framed buffers rfl)
    refine ⟨⟨sound, holds, custody.whole⟩, steps, ?_⟩
    simp [TxLink.sendFrame, TxFramer.dslFramerSendFrame, sentFrames]
  | pull nBytes =>
    obtain ⟨⟨_, out⟩, pulled, rfl⟩ := map_eq_some_iff.mp step
    obtain ⟨custody', moves⟩ := hdlcByteTx_custody custody pulled
    exact ⟨custody', moves.steps, by simp [moves.submitted, sentFrames]⟩
  | txFlush | reset =>
    obtain rfl := some.inj step
    obtain ⟨sound, holds, steps, -⟩ := TxFramer.txFlush_spec custody.sound
    exact ⟨⟨sound, holds _, fun _ busy => absurd rfl busy⟩, steps, (append_nil _).symm⟩

theorem txRun_custody {events : List TxEvent}
    (framed : ∀ buffers, .sendFrame buffers ∈ events → buffers ≠ []) (custody : link.Custody)
    (run : txRun setup link events = some link') :
    link'.Custody ∧ Ledger.Steps link.framer.book link'.framer.book ∧
      link'.framer.submitted.map DslFrame.buffers =
        link.framer.submitted.map DslFrame.buffers ++ sentFrames events := by
  induction events generalizing link with
  | nil =>
    cases run
    exact ⟨custody, .refl, (append_nil _).symm⟩
  | cons event events ih =>
    obtain ⟨between, step, rest⟩ := bind_eq_some_iff.mp run
    obtain ⟨custody', steps, submitted⟩ := txStep_custody
      (fun buffers sent => framed buffers (sent ▸ mem_cons_self ..)) custody step
    obtain ⟨custody'', steps', submitted'⟩ := ih
      (fun buffers mem => framed buffers (mem_cons_of_mem _ mem)) custody' rest
    refine ⟨custody'', steps.trans steps', ?_⟩
    rw [submitted', submitted, append_assoc, sentFrames, sentFrames, sentFrames,
      ← filterMap_append, singleton_append]

theorem custody_init : init.Custody where
  sound := ⟨nofun, nofun, nofun⟩
  holds := ⟨rfl, rfl⟩
  whole := fun more => absurd rfl more

end Custody

/-! ## Runs inside the buffers -/

def TxEvent.Proper : TxEvent → Prop
  | .sendFrame buffers => buffers ≠ [] ∧ ∀ buf ∈ buffers, buf ≠ []
  | .pull nBytes => 0 < nBytes
  | .txFlush => False
  | .reset => True

theorem txStep_ready {setup : UInt32} (plain : setup &&& kHdlcSpecialAddrCtrl = 0) {link : TxLink}
    {source : TxSource} (ready : link.Ready source) {event : TxEvent} (proper : event.Proper) :
    ∃ link' source', txStep setup link event = some link' ∧ link'.Ready source' := by
  cases event with
  | sendFrame buffers =>
    obtain ⟨source', ready', -⟩ := ready_sendFrame proper.1 proper.2 ready
    exact ⟨_, source', rfl, ready'⟩
  | pull nBytes =>
    obtain ⟨link', source', out, pulled, ready', -⟩ := hdlcByteTx_emits plain proper ready
    exact ⟨link', source', by rw [txStep, pulled]; rfl, ready'⟩
  | txFlush => exact proper.elim
  | reset => exact ⟨_, _, rfl, ready_reset link⟩

theorem txRun_ready {setup : UInt32} (plain : setup &&& kHdlcSpecialAddrCtrl = 0) {link : TxLink}
    {source : TxSource} (ready : link.Ready source) {events : List TxEvent}
    (proper : ∀ event ∈ events, event.Proper) :
    ∃ link' source', txRun setup link events = some link' ∧ link'.Ready source' := by
  induction events generalizing link source with
  | nil => exact ⟨link, source, rfl, ready⟩
  | cons event events ih =>
    obtain ⟨between, source', step, ready'⟩ :=
      txStep_ready plain ready (proper event (mem_cons_self ..))
    obtain ⟨link', source'', run, ready''⟩ :=
      ih ready' fun event mem => proper event (mem_cons_of_mem _ mem)
    refine ⟨link', source'', ?_, ready''⟩
    rw [txRun, foldlM_cons, step]
    exact run

/-! ## What the owners of the frames see -/

def Completion.InTurn (a b : Completion) : Prop :=
  a.frame.serial < b.frame.serial ∨
    (∃ frame, a = .flushedWaiting frame) ∧ ∃ frame, b = .flushedCurrent frame

structure Accounted (sent : List (List (List UInt8))) (c : TxFramer) : Prop where
  submitted : c.submitted.map DslFrame.buffers = sent
  known : ∀ done ∈ c.completed, c.submitted[done.frame.serial]? = some done.frame
  once : (c.completed.map fun done => done.frame.serial).Nodup
  left : ∀ done ∈ c.completed, done.frame ∉ c.pTxFrame.toList ++ c.dlistTxWaiting
  whole : ∀ frame taken, .sent frame taken ∈ c.completed → taken = frame.bytes
  ordered : c.completed.Pairwise Completion.InTurn

theorem number_entry (done : Completion) : done.entry.number = done.frame.serial := by
  cases done <;> rfl

theorem inTurn_of_inOrder {a b : Completion} (order : Ledger.InOrder a.entry b.entry) :
    a.InTurn b := by
  rw [Ledger.InOrder, number_entry, number_entry] at order
  refine order.imp_right ?_
  rintro ⟨⟨k, behind⟩, l, first⟩
  constructor
  · cases a with
    | flushedWaiting frame => exact ⟨frame, rfl⟩
    | sent | flushedCurrent => cases behind
  · cases b with
    | flushedCurrent frame => exact ⟨frame, rfl⟩
    | sent | flushedWaiting => cases first

theorem accounted_of_balanced {c : TxFramer} (sound : c.Sound) (balanced : Ledger.Balanced c.book) :
    Accounted (c.submitted.map DslFrame.buffers) c where
  submitted := rfl
  known := fun done mem => sound.known _ (mem_append_right _ (mem_map_of_mem mem))
  once := by
    have once := balanced.once
    simpa only [TxFramer.book, List.map_map, Function.comp_def, number_entry] using once
  left := by
    intro done mem held
    have before := balanced.before done.entry (mem_map_of_mem mem) done.frame.serial
      (mem_map_of_mem held)
    rw [number_entry] at before
    exact Nat.lt_irrefl _ before
  whole := sound.whole
  ordered := (pairwise_map.mp balanced.ordered).imp inTurn_of_inOrder

theorem completed_of_balanced {c : TxFramer} (sound : c.Sound) (balanced : Ledger.Balanced c.book)
    (none_pending : c.book.pending = []) {frame : DslFrame} (mem : frame ∈ c.submitted) :
    ∃ done ∈ c.completed, done.frame = frame := by
  obtain ⟨k, inside, at_k⟩ := getElem_of_mem mem
  obtain pending | logged := balanced.complete k inside
  · grind
  · obtain ⟨entry, logged, number⟩ := mem_map.mp logged
    obtain ⟨done, given_back, rfl⟩ := mem_map.mp logged
    rw [number_entry] at number
    have known := (accounted_of_balanced sound balanced).known done given_back
    rw [number, getElem?_eq_getElem inside, at_k] at known
    exact ⟨done, given_back, (some.inj known).symm⟩

/-- **Every frame is given back once**, in the order of submission but for what waits when the
framer is flushed, after all its bytes were taken or in a flush, and a flush leaves none behind.
No run of proper events leaves its buffers. -/
theorem txRun_completes (setup : UInt32) (events : List TxEvent)
    (framed : ∀ buffers, .sendFrame buffers ∈ events → buffers ≠ []) :
    (∀ link, txRun setup init events = some link →
      Accounted (sentFrames events) link.framer) ∧
    (∀ flush ∈ [TxEvent.txFlush, .reset], ∀ link,
      txRun setup init (events ++ [flush]) = some link →
        ∀ frame ∈ link.framer.submitted, ∃ done ∈ link.framer.completed, done.frame = frame) ∧
    (setup &&& kHdlcSpecialAddrCtrl = 0 → (∀ event ∈ events, event.Proper) →
      (txRun setup init events).isSome) := by
  refine ⟨fun link run => ?_, fun flush flushes link run => ?_, fun plain proper => ?_⟩
  · obtain ⟨custody, steps, submitted⟩ := txRun_custody framed custody_init run
    have accounted := accounted_of_balanced custody.sound (Ledger.balanced_empty.steps steps)
    rwa [submitted] at accounted
  · rw [txRun, foldlM_append] at run
    obtain ⟨before, run, last⟩ := bind_eq_some_iff.mp run
    obtain ⟨custody, steps, -⟩ := txRun_custody framed custody_init run
    have balanced := Ledger.balanced_empty.steps steps
    obtain ⟨sound, -, flushed, none_pending⟩ := TxFramer.txFlush_spec custody.sound
    have framer : link.framer = before.framer.dslFramerTxFlush := by
      obtain rfl | rfl := mem_pair.mp flushes <;> (cases last; rfl)
    rw [framer]
    exact fun frame mem => completed_of_balanced sound (balanced.steps flushed) none_pending mem
  · obtain ⟨link, source, run, -⟩ := txRun_ready plain ready_init proper
    rw [run]
    rfl

def flushedRun : List TxEvent :=
  [.sendFrame [[1, 2], [3]], .pull 4, .sendFrame [[4]], .reset]

theorem txRun_completes_flushedRun :
    (∃ link, txRun 0x50000 init flushedRun = some link ∧
      Accounted [[[1, 2], [3]], [[4]]] link.framer) ∧
    (txRun 0x50000 init flushedRun).map (fun link => link.framer.completed) =
      some [.sent ⟨0, [[1, 2], [3]]⟩ [1, 2, 3], .flushedWaiting ⟨1, [[4]]⟩] := by
  obtain ⟨accounted, -, defined⟩ := txRun_completes 0x50000 flushedRun (by simp [flushedRun])
  obtain ⟨link, run⟩ := isSome_iff_exists.mp
    (defined (by decide) (by simp [flushedRun, TxEvent.Proper]))
  exact ⟨⟨link, run, accounted link run⟩, by decide +kernel⟩

/-- A flush gives the second frame back before the first one, and an empty buffer leads the
transmitter out of its buffers. -/
theorem txRun_not_in_order :
    ((txRun 0x50000 init [.sendFrame [[1]], .sendFrame [[2]], .pull 1, .txFlush]).map
      fun link => link.framer.completed) =
        some [.flushedWaiting ⟨1, [[2]]⟩, .flushedCurrent ⟨0, [[1]]⟩] ∧
    txRun 0x50000 init [.sendFrame [[1], []], .pull 3] = none := by
  decide +kernel

end EchoLife.Dsl
