import EchoLife.Dsl.OvhMsg

/-!
# Clear EOC frames are given back

A Clear EOC frame is in the queue, or is the frame of the last command, or was given back
(`InOrder`). A frame is given back whether or not the lower layer is done with it: in a run where
the lower layer is always faster no frame is in use then (`clearEoc_given_back`), and when an
acknowledgement arrives while the frame is sent again, it is (`clearEoc_given_back_busy`).
-/

namespace EchoLife.Dsl

open List OvhMsg

def OvhMsg.current (s : OvhMsg) : List FrameId :=
  if s.lastTxCmdFrame = .txCmdFrame then [] else [s.lastTxCmdFrame]

structure InOrder (s : OvhMsg) : Prop where
  flagged : ∀ g, (s.frames g).clearEoc = true ↔ g = s.lastTxCmdFrame ∧ g ≠ .txCmdFrame
  numbered : s.accepted = (List.range s.accepted.length).map .clearEoc
  order : s.completed.map Prod.fst ++ s.current ++ s.txClEocFrameCB = s.accepted
  unused : ∀ entry ∈ s.completed, entry.2 = false

structure Kept (s : OvhMsg) : Prop extends InOrder s where
  waits : s.lastTxCmdFrame ≠ .txCmdFrame → s.waitingAck = true

namespace InOrder

variable {s s' : OvhMsg} {f : FrameId}

section

variable (inv : InOrder s)
include inv

theorem lastFrame_clearEoc :
    s.lastFrame.clearEoc = true ↔ s.lastTxCmdFrame ≠ .txCmdFrame := by
  rw [lastFrame, inv.flagged]
  simp

theorem last_eq (other : ¬ s.lastFrame.clearEoc = true) :
    s.lastTxCmdFrame = .txCmdFrame :=
  not_not.mp fun isEoc => other (inv.lastFrame_clearEoc.mpr isEoc)

theorem transmits (transmits : Transmits f s s') : InOrder s' where
  flagged g := by
    have same : (s'.frames g).clearEoc = (s.frames g).clearEoc := by
      by_cases eq : g = f
      · subst eq
        exact transmits.clearEoc
      · rw [transmits.others g eq]
    rw [same, transmits.lastTxCmdFrame, inv.flagged]
  numbered := by rw [transmits.accepted, ← inv.numbered]
  order := by
    rw [transmits.completed, transmits.txClEocFrameCB, transmits.accepted, ← inv.order,
      current, transmits.lastTxCmdFrame, current]
  unused := by rw [transmits.completed]; exact inv.unused

theorem completeLast
    (done : s.lastFrame.clearEoc = true → s.lastFrame.busy = false) :
    InOrder s.completeLast ∧ s.completeLast.lastTxCmdFrame = .txCmdFrame := by
  rw [OvhMsg.completeLast]
  split
  next sending =>
    have isEoc := inv.lastFrame_clearEoc.mp sending
    refine ⟨?_, rfl⟩
    exact {
      flagged := by
        intro g
        have cleared : ((s.completeClearEocFrame s.lastTxCmdFrame).frames g).clearEoc = false := by
          by_cases eq : g = s.lastTxCmdFrame
          · subst eq
            simp [OvhMsg.completeClearEocFrame]
          · have other : ((s.completeClearEocFrame s.lastTxCmdFrame).frames g) = s.frames g :=
              Function.update_of_ne eq _ _
            rw [other, Bool.eq_false_iff]
            exact fun set => eq ((inv.flagged g).mp set).1
        simp only [cleared, Bool.false_eq_true, false_iff, not_and, not_not]
        exact id
      numbered := inv.numbered
      order := by
        have order := inv.order
        rw [OvhMsg.current, if_neg isEoc] at order
        simpa [OvhMsg.completeClearEocFrame, OvhMsg.current, OvhMsg.setFrame] using order
      unused := by
        intro entry mem
        rcases mem_append.mp mem with earlier | now
        · exact inv.unused entry earlier
        · rw [mem_singleton.mp now]
          exact done sending }
  next other =>
    exact ⟨inv, inv.last_eq other⟩

theorem kept (last : s.lastTxCmdFrame = .txCmdFrame) : Kept s :=
  ⟨inv, fun isEoc => absurd last isEoc⟩

theorem exists_number (taken : f ∈ s.accepted) :
    ∃ n < s.accepted.length, f = .clearEoc n := by
  rw [inv.numbered] at taken
  obtain ⟨n, small, eq⟩ := mem_map.mp taken
  exact ⟨n, mem_range.mp small, eq.symm⟩

theorem last_mem (isEoc : s.lastTxCmdFrame ≠ .txCmdFrame) :
    s.lastTxCmdFrame ∈ s.accepted := by
  rw [← inv.order, current, if_neg isEoc]
  simp

theorem waitingAck (waitingAck : Bool) :
    InOrder { s with waitingAck := waitingAck } :=
  ⟨inv.flagged, inv.numbered, inv.order, inv.unused⟩

theorem newCmd (last : s.lastTxCmdFrame = .txCmdFrame)
    (data0 data1 : List UInt8) (isNew : Bool) :
    InOrder (s.newCmd data0 data1 isNew true) ∧
      (s.newCmd data0 data1 isNew true).lastTxCmdFrame = .txCmdFrame := by
  have done : s.lastFrame.clearEoc = true → s.lastFrame.busy = false := fun sending =>
    absurd last (inv.lastFrame_clearEoc.mp sending)
  obtain ⟨completed, cmd⟩ := (inv.waitingAck true).completeLast done
  have taken : InOrder (s.takeCmd isNew true) := by
    refine completed.transmits (f := .txCmdFrame) ?_
    exact ⟨fun _ _ => rfl, rfl, cmd.symm, rfl, rfl, rfl, id⟩
  have isCmd : (s.takeCmd isNew true).lastTxCmdFrame = .txCmdFrame := rfl
  rw [OvhMsg.newCmd]
  generalize s.takeCmd isNew true = s' at taken isCmd ⊢
  have polled := taken.transmits
    (@Transmits.setFrame s'.lastTxCmdFrame s' ({ · with pollCmd := false }) rfl)
  refine ⟨InOrder.waitingAck (InOrder.transmits ?_ (Transmits.setFrame (f := .txCmdFrame) rfl)) _,
    isCmd⟩
  exact polled.transmits (f := .txCmdFrame) ⟨fun _ _ => rfl, rfl, rfl, rfl, rfl, rfl, id⟩

end

end InOrder

namespace Kept

variable {s s' : OvhMsg} {f : FrameId}

section

variable (kept : Kept s)
include kept

theorem transmits (transmits : Transmits f s s') : Kept s' where
  toInOrder := kept.toInOrder.transmits transmits
  waits isEoc := transmits.waitingAck (kept.waits (transmits.lastTxCmdFrame ▸ isEoc))

theorem last_eq_of_idle (idle : s.waitingAck = false) :
    s.lastTxCmdFrame = .txCmdFrame := by
  by_contra isEoc
  rw [kept.waits isEoc] at idle
  cases idle

/-! ## The queue -/

theorem sendClearEocFrame (data : List UInt8) :
    Kept (s.sendClearEocFrame data) := by
  have other : s.lastTxCmdFrame ≠ .clearEoc s.accepted.length := by
    intro eq
    obtain ⟨n, small, number⟩ := kept.exists_number (kept.last_mem (by simp [eq]))
    rw [eq, FrameId.clearEoc.injEq] at number
    omega
  rw [OvhMsg.sendClearEocFrame]
  split
  · refine ⟨⟨fun g => ?_, ?_, ?_, kept.unused⟩, kept.waits⟩
    · by_cases new : g = .clearEoc s.accepted.length
      · subst new
        simpa [OvhMsg.setFrame, OvhFrame.new] using Ne.symm other
      · simpa [OvhMsg.setFrame, new] using kept.flagged g
    · rw [length_append, length_singleton, range_succ, map_append,
        ← kept.numbered, map_singleton]
    · have order := kept.order
      rw [← append_assoc]
      exact congrArg (· ++ [FrameId.clearEoc s.accepted.length]) order
  · exact kept

theorem sendClearEocCmd (last : s.lastTxCmdFrame = .txCmdFrame)
    {waiting : List FrameId} (queue : s.txClEocFrameCB = f :: waiting) :
    Kept ({ s with txClEocFrameCB := waiting }.sendClearEocCmd f) := by
  have isEoc : f ≠ .txCmdFrame := by
    have taken : f ∈ s.accepted := by
      rw [← kept.order, queue]
      simp
    obtain ⟨n, -, rfl⟩ := kept.exists_number taken
    exact FrameId.noConfusion
  refine transmits ?_ Transmits.xmtTransferCmd
  refine ⟨⟨fun g => ?_, kept.numbered, ?_, kept.unused⟩, fun _ => rfl⟩
  · by_cases eq : g = f
    · subst eq
      simpa [clearEocCmd, setFrame] using isEoc
    · have free := kept.flagged g
      rw [last] at free
      have idle : (s.frames g).clearEoc = false := by simpa using free
      simp [clearEocCmd, getCmdNum, setFrame, eq, idle]
  · have order := kept.order
    rw [current, if_pos last, queue, append_nil] at order
    have current : (clearEocCmd { s with txClEocFrameCB := waiting } f).current = [f] :=
      if_neg isEoc
    rw [current, append_assoc]
    exact order

theorem xmtSendCmd (last : s.lastTxCmdFrame = .txCmdFrame)
    {data0 data1 : List UInt8} {isNew : Bool}
    (sent : s.xmtSendCmd data0 data1 isNew true = some s') : Kept s' := by
  rw [OvhMsg.xmtSendCmd] at sent
  split at sent
  · cases sent
  · obtain rfl := Option.some.inj sent
    obtain ⟨inv, isCmd⟩ := kept.toInOrder.newCmd last data0 data1 isNew
    exact (inv.kept isCmd).transmits Transmits.xmtTransferCmd

theorem poll (last : s.lastTxCmdFrame = .txCmdFrame) : Kept s.poll := by
  have numbered : Kept { s with cmdNum := s.nextPollCmd } :=
    kept.transmits (f := .txCmdFrame) ⟨fun _ _ => rfl, rfl, rfl, rfl, rfl, rfl, id⟩
  rw [OvhMsg.poll]
  split
  · exact numbered
  · split
    · exact numbered
    · split
      · exact numbered
      next s' sent =>
        have polled := (numbered.xmtSendCmd last sent).transmits
          (@Transmits.setFrame s'.lastTxCmdFrame s' ({ · with pollCmd := true }) rfl)
        exact polled.transmits (f := .txCmdFrame) ⟨fun _ _ => rfl, rfl, rfl, rfl, rfl, rfl, id⟩

/-! ## The timer and what arrives -/

theorem giveUp (done : s.lastFrame.clearEoc = true → s.lastFrame.busy = false) :
    Kept s.giveUp := by
  have given : InOrder { s with cmdTryCnt := 0, waitingAck := false } :=
    ⟨kept.flagged, kept.numbered, kept.order, kept.unused⟩
  obtain ⟨completed, cmd⟩ := given.completeLast done
  rw [OvhMsg.giveUp]
  generalize OvhMsg.completeLast { s with cmdTryCnt := 0, waitingAck := false } = s'
    at completed cmd ⊢
  have cleared : Kept { s' with l3WaitingAck := false, l0WaitingAck := false } :=
    (completed.kept cmd).transmits (f := .txCmdFrame) ⟨fun _ _ => rfl, rfl, rfl, rfl, rfl, rfl, id⟩
  split
  · obtain ⟨_, eq⟩ := OvhMsg.setLastPollCmd_eq
      { s' with l3WaitingAck := false, l0WaitingAck := false }
      fun pCmd => if pCmd.stayActive then pCmd else { pCmd with active := false }
    rw [eq]
    exact cleared.transmits (f := .txCmdFrame) ⟨fun _ _ => rfl, rfl, rfl, rfl, rfl, rfl, id⟩
  · exact cleared

theorem ackTimer
    (done : 3 ≤ s.cmdTryCnt → s.timeMs - s.timeCmdOut > 1000 →
      s.lastFrame.clearEoc = true → s.lastFrame.busy = false) : Kept s.ackTimer := by
  rcases s.ackTimer_cases with ⟨givenUp, third⟩ | again | ⟨_, _, waits⟩
  · rw [givenUp]
    exact kept.giveUp fun sending => done (third sending).1 (third sending).2 sending
  · rw [again]
    exact kept.transmits Transmits.xmtResendCmd
  · rw [waits]
    exact kept.transmits (f := .txCmdFrame) ⟨fun _ _ => rfl, rfl, rfl, rfl, rfl, rfl, id⟩

theorem timer {timeMs : UInt32} (linkActive : Bool)
    (done : 3 ≤ s.cmdTryCnt → s.timeMs + timeMs - s.timeCmdOut > 1000 →
      s.lastFrame.clearEoc = true → s.lastFrame.busy = false) :
    Kept (s.timer timeMs linkActive) := by
  have later : Kept { s with timeMs := s.timeMs + timeMs } :=
    kept.transmits (f := .txCmdFrame) ⟨fun _ _ => rfl, rfl, rfl, rfl, rfl, rfl, id⟩
  rw [OvhMsg.timer]
  split
  · exact later
  · split
    · exact later.transmits Transmits.segTimer
    · split
      · exact later.ackTimer done
      next idle =>
        have last := later.last_eq_of_idle (by simpa using idle)
        split
        next f waiting _ queue => exact later.sendClearEocCmd last queue
        · split
          · exact later.poll last
          · exact later

theorem rcvProcessRsp {msg : List UInt8}
    (done : codeOf msg = kG992p3OvhMsgCmdClearEOC →
      s.lastFrame.clearEoc = true → s.lastFrame.busy = false) : Kept (s.rcvProcessRsp msg) := by
  obtain ⟨pollCmd, l3WaitingAck, l0WaitingAck, effect⟩ := s.rspEffect_eq msg
  have inv : Kept (s.rspEffect msg) := by
    rw [effect]
    exact kept.transmits (f := .txCmdFrame) ⟨fun _ _ => rfl, rfl, rfl, rfl, rfl, rfl, id⟩
  have same : (s.rspEffect msg).lastFrame = s.lastFrame := by rw [effect]; rfl
  rw [OvhMsg.rcvProcessRsp]
  split
  next other =>
    exact (inv.toInOrder.waitingAck false).kept (inv.last_eq other.1)
  · split
    next acked =>
      obtain ⟨completed, cmd⟩ := (inv.toInOrder.waitingAck false).completeLast fun sending => by
        change (s.rspEffect msg).lastFrame.busy = false
        rw [same]
        exact done acked.2 (same ▸ acked.1)
      exact completed.kept cmd
    · exact inv

theorem indicateRcvFrame {msg : List UInt8}
    (done : codeOf msg = kG992p3OvhMsgCmdClearEOC →
      s.lastFrame.clearEoc = true → s.lastFrame.busy = false) : Kept (s.indicateRcvFrame msg) := by
  rw [OvhMsg.indicateRcvFrame]
  split
  · exact kept
  · split
    · cases going : s.txSegFrameCtl.segFrame with
      | none =>
        simp only [OvhMsg.rcvProcessSegAck, going]
        exact kept
      | some f => exact kept.transmits (Transmits.rcvProcessSegAck going msg)
    · split
      · rw [OvhMsg.rcvProcessCmd]
        split
        · rw [OvhMsg.pollCmdRateChange]
          split
          · refine rcvProcessRsp ?_ done
            exact kept.transmits (f := .txCmdFrame) ⟨fun _ _ => rfl, rfl, rfl, rfl, rfl, rfl, id⟩
          · refine rcvProcessRsp ?_ done
            exact kept.transmits (f := .txCmdFrame) ⟨fun _ _ => rfl, rfl, rfl, rfl, rfl, rfl, id⟩
        · exact kept
      · exact kept.rcvProcessRsp done

theorem requestL3 : Kept s.requestL3 := by
  rw [OvhMsg.requestL3]
  split
  next asked =>
    split
    next s' sent =>
      exact (kept.xmtSendCmd (kept.last_eq asked.2) sent).transmits (f := .txCmdFrame)
        ⟨fun _ _ => rfl, rfl, rfl, rfl, rfl, rfl, id⟩
    · exact kept
  · exact kept

theorem requestL0 : Kept s.requestL0 := by
  rw [OvhMsg.requestL0]
  split
  next asked =>
    split
    next s' sent =>
      exact (kept.xmtSendCmd (kept.last_eq asked.2) sent).transmits (f := .txCmdFrame)
        ⟨fun _ _ => rfl, rfl, rfl, rfl, rfl, rfl, id⟩
    · exact kept
  · exact kept

theorem statusSnooper (powerState : Nat) : Kept (s.statusSnooper powerState) := by
  rw [OvhMsg.statusSnooper]
  split
  · exact kept.requestL3.transmits (f := .txCmdFrame)
      ⟨fun _ _ => rfl, rfl, rfl, rfl, rfl, rfl, id⟩
  · exact kept.requestL3.requestL0

end

end Kept

/-! ## Runs -/

def OvhEvent.Patient (s : OvhMsg) : OvhEvent → Prop
  | .indicateRcvFrame msg => codeOf msg = kG992p3OvhMsgCmdClearEOC →
      s.lastFrame.clearEoc = true → s.lastFrame.busy = false
  | .timer timeMs _ => 3 ≤ s.cmdTryCnt → s.timeMs + timeMs - s.timeCmdOut > 1000 →
      s.lastFrame.clearEoc = true → s.lastFrame.busy = false
  | _ => True

instance (s : OvhMsg) (event : OvhEvent) : Decidable (event.Patient s) :=
  match event with
  | .indicateRcvFrame _ => inferInstanceAs (Decidable (_ → _ → _))
  | .timer _ _ => inferInstanceAs (Decidable (_ → _ → _ → _))
  | .sendClearEocFrame _ | .sendCompleteFrame _ | .setL3 | .setL0 _ | .statusSnooper _ =>
    inferInstanceAs (Decidable True)

def PatientRun : OvhMsg → List OvhEvent → Prop
  | _, [] => True
  | s, event :: events => event.Patient s ∧ PatientRun (ovhStep s event) events

instance decidablePatientRun : (s : OvhMsg) → (events : List OvhEvent) →
    Decidable (PatientRun s events)
  | _, [] => inferInstanceAs (Decidable True)
  | s, event :: events =>
    have := decidablePatientRun (ovhStep s event) events
    inferInstanceAs (Decidable (event.Patient s ∧ PatientRun (ovhStep s event) events))

theorem Kept.step {s : OvhMsg} (kept : Kept s) {event : OvhEvent} (patient : event.Patient s) :
    Kept (ovhStep s event) := by
  cases event with
  | sendClearEocFrame data => exact kept.sendClearEocFrame data
  | timer timeMs linkActive => exact kept.timer linkActive patient
  | indicateRcvFrame msg => exact kept.indicateRcvFrame patient
  | sendCompleteFrame f => exact kept.transmits Transmits.sendCompleteFrame
  | setL3 =>
    rw [ovhStep, setL3]
    split
    · exact kept
    · exact kept.transmits (f := .txCmdFrame) ⟨fun _ _ => rfl, rfl, rfl, rfl, rfl, rfl, id⟩
  | setL0 powerState =>
    rw [ovhStep, setL0]
    split
    · exact kept
    · exact kept.transmits (f := .txCmdFrame) ⟨fun _ _ => rfl, rfl, rfl, rfl, rfl, rfl, id⟩
  | statusSnooper powerState => exact kept.statusSnooper powerState

theorem Kept.run {s : OvhMsg} (kept : Kept s) {events : List OvhEvent}
    (patient : PatientRun s events) : Kept (ovhRun s events) := by
  induction events generalizing s with
  | nil => exact kept
  | cons event events ih => exact ih (kept.step patient.1) patient.2

theorem kept_ovhMsgInit : Kept ovhMsgInit :=
  ⟨⟨fun g => by simp [ovhMsgInit, OvhFrame.new], rfl, rfl, by simp [ovhMsgInit]⟩,
    fun isEoc => absurd rfl isEoc⟩

/-- **Clear EOC frames are given back once, in their order and not while they are in use**, when the
lower layer is fast enough: those given back, the one that is sent and those that wait are the
frames that were taken in. -/
theorem clearEoc_given_back {events : List OvhEvent} (patient : PatientRun ovhMsgInit events) :
    let s := ovhRun ovhMsgInit events
    s.completed.map Prod.fst ++ s.current ++ s.txClEocFrameCB = s.accepted ∧ s.accepted.Nodup ∧
      ∀ entry ∈ s.completed, entry.2 = false := by
  have kept := kept_ovhMsgInit.run patient
  refine ⟨kept.order, ?_, kept.unused⟩
  rw [kept.numbered]
  exact nodup_range.map fun _ _ => FrameId.clearEoc.inj

def clearEocAck : List UInt8 :=
  [kG992p3PriorityNormal, 2, kG992p3OvhMsgCmdClearEOC, kG992p3OvhMsgCmdClearEOCAck]

theorem clearEoc_given_back_twoFrames :
    let events : List OvhEvent := [.sendClearEocFrame [7], .sendClearEocFrame [8], .timer 10 true,
      .sendCompleteFrame (.clearEoc 0), .indicateRcvFrame clearEocAck, .timer 10 true]
    let s := ovhRun ovhMsgInit events
    s.completed = [(.clearEoc 0, false)] ∧ s.current = [.clearEoc 1] ∧
      s.completed.map Prod.fst ++ s.current ++ s.txClEocFrameCB = s.accepted := by
  refine ⟨by decide +kernel, by decide +kernel, (clearEoc_given_back ?_).1⟩
  decide +kernel

/-- **A frame is given back while the lower layer has it**: it is sent again after a second, and
then the acknowledgement of the first transmission arrives. -/
theorem clearEoc_given_back_busy :
    (ovhRun ovhMsgInit [.sendClearEocFrame [7], .timer 10 true, .sendCompleteFrame (.clearEoc 0),
      .timer 1001 true, .indicateRcvFrame clearEocAck]).completed = [(.clearEoc 0, true)] := by
  decide +kernel

end EchoLife.Dsl
