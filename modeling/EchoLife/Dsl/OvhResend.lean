import EchoLife.Dsl.OvhSegments

/-!
# Commands that are sent again

A command is sent again from its frame. A frame of at most 1024 bytes is only read by the lower
layer, so that the same message goes out again, with a new number in the control field at most. To
send segments, the buffers of the frame are replaced by those of the segment; what is sent again is
the segment that was sent last, as a message of its own (`xmtResendCmd_repeats_iff`,
`xmtResendCmd_repeats_segment`).

A command that waits for a response is sent again until it was sent three times
(`xmtSendCmd_waits`), except that nothing waits for the response to a long one
(`longCmd_forgotten`).
-/

namespace EchoLife.Dsl

open List Option OvhMsg OvhFrame

/-! ## Contents -/

def OvhFrame.content (frame : OvhFrame) : List UInt8 × List UInt8 :=
  (frame.first.set kG992p3CtrlField 0, frame.others.flatten)

def carried (log : List Transmission) : List UInt8 × List UInt8 :=
  (log.head?.elim [] (·.first.set kG992p3CtrlField 0), ((segments log).map Prod.snd).flatten)

def OneSegment (content : List UInt8 × List UInt8) : Prop :=
  content.1.length = 4 ∧ content.2.length ≤ kG992p3OvhSegMsgMaxLen

theorem length_content (frame : OvhFrame) :
    frame.content.1.length + frame.content.2.length = frame.length := by
  rw [OvhFrame.content, length_set, OvhFrame.length]

theorem carried_singleton (f : FrameId) (frame : OvhFrame) :
    carried [⟨f, frame.first, frame.others⟩] = frame.content := by
  simp [carried, segments, takeSegment, Transmission.segment, content]

namespace SegFrameCtl

variable {ctl next : SegFrameCtl}

theorem length_segFrBuf_le : ctl.segFrBuf.length ≤ ctl.segFrBufLen := length_take_le _ _

theorem advance_bound {frLen : Nat} (advanced : ctl.advance frLen = some next) :
    next.segFrBuf.length ≤ kG992p3OvhSegMsgMaxLen - frLen := by
  refine length_segFrBuf_le.trans ?_
  rw [advance] at advanced
  split at advanced
  · grind
  · grind

theorem segFrame_advance {frLen : Nat} (advanced : ctl.advance frLen = some next) :
    next.segFrame = ctl.segFrame := by
  rw [advance] at advanced
  split at advanced
  · obtain rfl := some.inj advanced
    rfl
  · grind

theorem segFrame_nextSeg {front : List (List UInt8)} (cut : ctl.nextSeg = (front, some next)) :
    next.segFrame = ctl.segFrame := by
  rw [nextSeg] at cut
  split at cut
  · have same := segFrame_advance (Prod.mk.inj cut).2
    exact same
  · exact segFrame_advance (Prod.mk.inj cut).2

theorem nextSeg_bound :
    (ctl.nextSeg.1 ++ (ctl.nextSeg.2.map segFrBuf).toList).flatten.length ≤
      kG992p3OvhSegMsgMaxLen := by
  rw [nextSeg]
  split
  next whole =>
    have short : ctl.buffer.length < kG992p3OvhSegMsgMaxLen - 10 := by
      simp only [frontWhole, decide_eq_true_eq] at whole
      exact whole.2
    dsimp only
    generalize advanced : advance _ ctl.buffer.length = rest
    cases rest with
    | none =>
      simp only [map_none, toList_none, append_nil, flatten_singleton]
      omega
    | some next =>
      have bound := advance_bound advanced
      simp only [map_some, toList_some, singleton_append, flatten_cons,
        flatten_nil, append_nil, length_append]
      omega
  · dsimp only
    generalize advanced : advance ctl 0 = rest
    cases rest with
    | none => simp
    | some next => simpa using advance_bound advanced

end SegFrameCtl

/-! ## Effects on the contents -/

section

variable {s s' : OvhMsg} {f g : FrameId}

theorem content_xmtSendCurrSeg :
    ((s.xmtSendCurrSeg f).1.frames f).content = (s.frames f).content ∧
      (s.xmtSendCurrSeg f).1.txSegFrameCtl.segFrame = s.txSegFrameCtl.segFrame := by
  cases free : (s.frames f).busy with
  | true => simp [OvhMsg.xmtSendCurrSeg, OvhMsg.xmtSendFrame, free]
  | false =>
    obtain ⟨hands, -, same⟩ := hands_xmtSendCurrSeg free
    exact ⟨by rw [content, hands.first, hands.others, content], same⟩

theorem content_sendSegment (free : (s.frames f).busy = false) (segId : Nat) :
    ((s.sendSegment f segId).frames f).content = (s.frames f).content := by
  have hands := (hands_sendSegment free segId).1
  rw [content, hands.first, hands.others, content]

theorem oneSegment_xmtSendNextSeg (free : (s.frames f).busy = false)
    (header : (s.frames f).first.length = 4) {n : Nat} (count : s.txSegFrameCtl.segId = n + 1) :
    OneSegment ((s.xmtSendNextSeg f).frames f).content := by
  have bound := @SegFrameCtl.nextSeg_bound s.txSegFrameCtl
  match cut : s.txSegFrameCtl.nextSeg with
  | (front, some next) =>
    have frame := @OvhMsg.frames_madeSegment s f n front next
    rw [xmtSendNextSeg_eq free count cut, content_sendSegment (by rw [frame, free]),
      content, frame]
    rw [cut] at bound
    exact ⟨by rw [length_set, length_markSegment, header], by simpa using bound⟩
  | (front, none) =>
    rw [cut] at bound
    have frame : ((s.xmtSendNextSeg f).frames f).content =
        ((markSegment (s.frames f).first n s.txSegFrameCtl.segTotal).set kG992p3CtrlField 0,
          front.flatten) := by
      simp [OvhMsg.xmtSendNextSeg, free, count, cut, OvhMsg.setFrame, content]
    rw [frame]
    exact ⟨by rw [length_set, length_markSegment, header], by simpa using bound⟩

theorem content_xmtSendNextSeg (header : (s.frames f).first.length = 4) :
    ((s.xmtSendNextSeg f).frames f).content = (s.frames f).content ∨
      OneSegment ((s.xmtSendNextSeg f).frames f).content := by
  cases free : (s.frames f).busy with
  | true =>
    rw [OvhMsg.xmtSendNextSeg, if_pos free]
    exact .inl rfl
  | false =>
    cases count : s.txSegFrameCtl.segId with
    | succ n => exact .inr (oneSegment_xmtSendNextSeg free header count)
    | zero =>
      left
      simp [OvhMsg.xmtSendNextSeg, free, count, OvhMsg.endSeg, content]

theorem segFrame_xmtSendNextSeg :
    (s.xmtSendNextSeg f).txSegFrameCtl.segFrame = s.txSegFrameCtl.segFrame ∨
      (s.xmtSendNextSeg f).txSegFrameCtl.segFrame = none := by
  cases free : (s.frames f).busy with
  | true =>
    rw [OvhMsg.xmtSendNextSeg, if_pos free]
    exact .inl rfl
  | false =>
    cases count : s.txSegFrameCtl.segId with
    | zero =>
      right
      simp [OvhMsg.xmtSendNextSeg, free, count, OvhMsg.endSeg]
    | succ n =>
      rcases cut : s.txSegFrameCtl.nextSeg with ⟨front, _ | next⟩
      · right
        simp [OvhMsg.xmtSendNextSeg, free, count, cut]
      · have frame := @OvhMsg.frames_madeSegment s f n front next
        have segFrame := (hands_sendSegment (by rw [frame, free]) n).2
        have same := SegFrameCtl.segFrame_nextSeg cut
        rw [xmtSendNextSeg_eq free count cut, segFrame]
        split
        · exact .inr rfl
        · exact .inl same

end

/-! ## Short frames -/

section

variable {s : OvhMsg} {f : FrameId}

theorem xmtTransferCmd_short (short : (s.frames f).length ≤ 1024) :
    ((s.xmtTransferCmd f).frames f).content = (s.frames f).content ∧
      (s.xmtTransferCmd f).txSegFrameCtl = s.txSegFrameCtl := by
  cases free : (s.frames f).busy <;>
    simp [OvhMsg.xmtTransferCmd, OvhMsg.xmtSendLongFrame, short, OvhMsg.xmtSendFrame, free,
      OvhMsg.setFrame, content]

theorem sent_xmtTransferCmd (short : (s.frames f).length ≤ 1024)
    (free : (s.frames f).busy = false) :
    (s.xmtTransferCmd f).sent = s.sent ++ [⟨f, (s.frames f).first, (s.frames f).others⟩] := by
  simp [OvhMsg.xmtTransferCmd, OvhMsg.xmtSendLongFrame, short, OvhMsg.xmtSendFrame, free]

structure Renumbers (f : FrameId) (s s' : OvhMsg) : Prop where
  content : (s'.frames f).content = (s.frames f).content
  busy : (s'.frames f).busy = (s.frames f).busy
  sent : s'.sent = s.sent
  ctl : s'.txSegFrameCtl = s.txSegFrameCtl
  accepted : s'.accepted = s.accepted

theorem xmtResendCmd_eq (last : s.lastTxCmdFrame = f)
    (cmdFree : (s.frames .txCmdFrame).busy = false) :
    ∃ s', s.xmtResendCmd = s'.xmtTransferCmd f ∧ Renumbers f s s' := by
  subst last
  simp only [OvhMsg.xmtResendCmd, cmdFree, Bool.false_eq_true, if_false]
  split
  · refine ⟨_, rfl, ?_, ?_, rfl, rfl, rfl⟩
    · simp [OvhMsg.renumber, OvhMsg.getCmdNum, OvhMsg.setFrame, content]
    · simp [OvhMsg.renumber, OvhMsg.getCmdNum, OvhMsg.setFrame]
  · exact ⟨_, rfl, rfl, rfl, rfl, rfl, rfl⟩

end

/-! ## The frame of a command -/

structure Held (f : FrameId) (Q : List UInt8 × List UInt8 → Prop) (s : OvhMsg) : Prop where
  content : Q (s.frames f).content
  segmented : s.txSegFrameCtl.segFrame = some f →
    (s.frames f).first.length = 4 ∧ ∀ content, OneSegment content → Q content
  known : ∀ n, f = .clearEoc n → n < s.accepted.length

namespace Held

variable {f : FrameId} {Q : List UInt8 × List UInt8 → Prop} {s s' : OvhMsg}

theorem of_same (held : Held f Q s) (content : (s'.frames f).content = (s.frames f).content)
    (segFrame : s'.txSegFrameCtl.segFrame = some f → s.txSegFrameCtl.segFrame = some f)
    (accepted : s.accepted.length ≤ s'.accepted.length) : Held f Q s' where
  content := content ▸ held.content
  segmented going := by
    have length : (s'.frames f).first.length = (s.frames f).first.length := by
      simpa [OvhFrame.content] using congrArg (List.length ∘ Prod.fst) content
    rw [length]
    exact held.segmented (segFrame going)
  known n eq := (held.known n eq).trans_le accepted

theorem setFrame (held : Held f Q s) (g : FrameId) {change : OvhFrame → OvhFrame}
    (same : ∀ frame, (change frame).content = frame.content) : Held f Q (s.setFrame g change) := by
  refine held.of_same ?_ id le_rfl
  by_cases eq : f = g
  · subst eq
    rw [s.frames_setFrame_self, same]
  · rw [s.frames_setFrame_of_ne eq]

theorem xmtSendNextSeg (held : Held f Q s) {g : FrameId}
    (going : s.txSegFrameCtl.segFrame = some g) : Held f Q (s.xmtSendNextSeg g) := by
  have transmits := @Transmits.xmtSendNextSeg g s
  have segFrame : (s.xmtSendNextSeg g).txSegFrameCtl.segFrame = some f →
      s.txSegFrameCtl.segFrame = some f := by
    intro still
    rcases @segFrame_xmtSendNextSeg s g with same | ended
    · rw [← same, still]
    · rw [ended] at still
      cases still
  have accepted : s.accepted.length ≤ (s.xmtSendNextSeg g).accepted.length := by
    rw [transmits.accepted]
  by_cases eq : f = g
  · subst eq
    obtain ⟨header, meets⟩ := held.segmented going
    rcases content_xmtSendNextSeg header with same | one
    · exact held.of_same same segFrame accepted
    · exact ⟨meets _ one, fun _ => ⟨by simpa [OvhFrame.content] using one.1, meets⟩,
        fun n eq => (held.known n eq).trans_le accepted⟩
  · refine held.of_same ?_ segFrame accepted
    rw [transmits.others f eq]

theorem xmtSendCurrSeg (held : Held f Q s) (g : FrameId) : Held f Q (s.xmtSendCurrSeg g).1 := by
  obtain ⟨content, segFrame⟩ := @content_xmtSendCurrSeg s g
  have transmits := @Transmits.xmtSendCurrSeg g s
  refine held.of_same ?_ (by rw [segFrame]; exact id) (by rw [transmits.accepted])
  by_cases eq : f = g
  · subst eq
    exact content
  · rw [transmits.others f eq]

theorem xmtTransferCmd (held : Held f Q s) (short : (s.frames f).length ≤ 1024) :
    Held f Q (s.xmtTransferCmd f) := by
  obtain ⟨content, ctl⟩ := xmtTransferCmd_short short
  refine held.of_same content (by rw [ctl]; exact id) ?_
  rw [(Transmits.xmtTransferCmd (f := f) (s := s)).accepted]

section

variable (fits : ∀ content : List UInt8 × List UInt8, Q content →
  content.1.length + content.2.length ≤ 1024)

include fits

theorem short (held : Held f Q s) : (s.frames f).length ≤ 1024 :=
  length_content (s.frames f) ▸ fits _ held.content

theorem xmtResendCmd (held : Held f Q s) (last : s.lastTxCmdFrame = f) :
    Held f Q s.xmtResendCmd := by
  cases cmdFree : (s.frames .txCmdFrame).busy with
  | true =>
    rw [OvhMsg.xmtResendCmd, if_pos cmdFree]
    exact held
  | false =>
    obtain ⟨s', resend, renumbers⟩ := xmtResendCmd_eq last cmdFree
    have held' : Held f Q s' := held.of_same renumbers.content (by rw [renumbers.ctl]; exact id)
      (by rw [renumbers.accepted])
    rw [resend]
    exact held'.xmtTransferCmd (held'.short fits)

end

section

variable (held : Held f Q s)
include held

theorem of_frames (frames : s'.frames = s.frames)
    (ctl : s'.txSegFrameCtl = s.txSegFrameCtl) (accepted : s'.accepted = s.accepted) :
    Held f Q s' :=
  held.of_same (by rw [frames]) (by rw [ctl]; exact id) (by rw [accepted])

theorem endSeg : Held f Q s.endSeg :=
  held.of_same rfl (by intro going; cases going) le_rfl

theorem completeLast : Held f Q s.completeLast := by
  rw [OvhMsg.completeLast]
  split
  · have cleared : Held f Q (s.setFrame s.lastTxCmdFrame ({ · with clearEoc := false })) :=
      held.setFrame _ fun _ => rfl
    exact cleared.of_frames rfl rfl rfl
  · exact held

theorem rcvProcessSegAck (msg : List UInt8) :
    Held f Q (s.rcvProcessSegAck msg) := by
  rw [OvhMsg.rcvProcessSegAck]
  split
  · exact held
  next g going =>
    split
    · split
      · exact held.setFrame g fun _ => rfl
      · exact held.xmtSendNextSeg going
    · exact held

theorem segTimer {g : FrameId} (going : s.txSegFrameCtl.segFrame = some g) :
    Held f Q (s.segTimer g) := by
  rw [OvhMsg.segTimer]
  split
  · exact held.xmtSendNextSeg going
  · split
    · split
      · exact held.endSeg
      · exact held.xmtSendCurrSeg g
    · exact held

theorem setLastPollCmd (change : PollCmd → PollCmd) :
    Held f Q (s.setLastPollCmd change) := by
  obtain ⟨_, eq⟩ := s.setLastPollCmd_eq change
  rw [eq]
  exact held.of_frames rfl rfl rfl

theorem giveUp : Held f Q s.giveUp := by
  have given : Held f Q { s with cmdTryCnt := 0, waitingAck := false } :=
    held.of_frames rfl rfl rfl
  rw [OvhMsg.giveUp]
  split
  · refine setLastPollCmd ?_ _
    exact given.completeLast.of_frames rfl rfl rfl
  · exact given.completeLast.of_frames rfl rfl rfl

theorem rcvProcessRsp (msg : List UInt8) : Held f Q (s.rcvProcessRsp msg) := by
  have effect : Held f Q (s.rspEffect msg) := by
    obtain ⟨_, _, _, eq⟩ := s.rspEffect_eq msg
    rw [eq]
    exact held.of_frames rfl rfl rfl
  rw [OvhMsg.rcvProcessRsp]
  split
  · exact effect.of_frames rfl rfl rfl
  · split
    · exact completeLast (effect.of_frames rfl rfl rfl)
    · exact effect

theorem indicateRcvFrame (msg : List UInt8) :
    Held f Q (s.indicateRcvFrame msg) := by
  rw [OvhMsg.indicateRcvFrame]
  split
  · exact held
  · split
    · exact held.rcvProcessSegAck msg
    · split
      · rw [OvhMsg.rcvProcessCmd]
        split
        · refine rcvProcessRsp ?_ msg
          rw [OvhMsg.pollCmdRateChange]
          split
          · exact held.of_frames rfl rfl rfl
          · exact held.of_frames rfl rfl rfl
        · exact held
      · exact held.rcvProcessRsp msg

theorem sendClearEocFrame (data : List UInt8) :
    Held f Q (s.sendClearEocFrame data) := by
  rw [OvhMsg.sendClearEocFrame]
  split
  · have ne : f ≠ .clearEoc s.accepted.length := fun eq => (held.known _ eq).ne rfl
    exact held.of_same (congrArg OvhFrame.content (Function.update_of_ne ne _ _)) id (by simp)
  · exact held

theorem sendCompleteFrame (g : FrameId) :
    Held f Q (s.sendCompleteFrame g) := by
  have idles := @idles_sendCompleteFrame f s g
  obtain ⟨_, ctl⟩ := idles.ctl
  refine held.of_same ?_ (by rw [ctl]; exact id) le_rfl
  rw [OvhFrame.content, idles.first, idles.others, OvhFrame.content]

end

section

variable (fits : ∀ content : List UInt8 × List UInt8, Q content →
  content.1.length + content.2.length ≤ 1024)

include fits

theorem ackTimer (held : Held f Q s) (last : s.lastTxCmdFrame = f) : Held f Q s.ackTimer := by
  rcases s.ackTimer_cases with ⟨givenUp, -⟩ | again | ⟨_, _, waits⟩
  · rw [givenUp]
    exact held.giveUp
  · rw [again]
    exact held.xmtResendCmd fits last
  · rw [waits]
    exact held.of_frames rfl rfl rfl

theorem timer (held : Held f Q s) (last : s.lastTxCmdFrame = f) (waits : s.waitingAck = true)
    (timeMs : UInt32) (linkActive : Bool) : Held f Q (s.timer timeMs linkActive) := by
  have later : Held f Q { s with timeMs := s.timeMs + timeMs } := held.of_frames rfl rfl rfl
  rw [OvhMsg.timer]
  split
  · exact later
  · split
    next g going => exact later.segTimer going
    · exact later.ackTimer fits last

end

end Held

/-! ## Runs with a command outstanding -/

inductive CmdStep (f : FrameId) : OvhMsg → OvhMsg → Prop
  | timer {s : OvhMsg} (last : s.lastTxCmdFrame = f) (waits : s.waitingAck = true)
      (timeMs : UInt32) (linkActive : Bool) : CmdStep f s (s.timer timeMs linkActive)
  | indicateRcvFrame (s : OvhMsg) (msg : List UInt8) : CmdStep f s (s.indicateRcvFrame msg)
  | sendCompleteFrame (s : OvhMsg) (g : FrameId) : CmdStep f s (s.sendCompleteFrame g)
  | sendClearEocFrame (s : OvhMsg) (data : List UInt8) : CmdStep f s (s.sendClearEocFrame data)
  | setL3 (s : OvhMsg) : CmdStep f s s.setL3
  | setL0 (s : OvhMsg) (powerState : Nat) : CmdStep f s (s.setL0 powerState)

abbrev CmdRun (f : FrameId) : OvhMsg → OvhMsg → Prop := Relation.ReflTransGen (CmdStep f)

section

variable {f : FrameId} {Q : List UInt8 × List UInt8 → Prop} {s s' : OvhMsg}
  (fits : ∀ content : List UInt8 × List UInt8, Q content →
    content.1.length + content.2.length ≤ 1024)

include fits

theorem Held.step (held : Held f Q s) (step : CmdStep f s s') : Held f Q s' := by
  cases step with
  | timer last waits timeMs linkActive => exact held.timer fits last waits timeMs linkActive
  | indicateRcvFrame msg => exact held.indicateRcvFrame msg
  | sendCompleteFrame g => exact held.sendCompleteFrame g
  | sendClearEocFrame data => exact held.sendClearEocFrame data
  | setL3 =>
    rw [OvhMsg.setL3]
    split
    · exact held
    · exact held.of_frames rfl rfl rfl
  | setL0 powerState =>
    rw [OvhMsg.setL0]
    split
    · exact held
    · exact held.of_frames rfl rfl rfl

theorem Held.run (held : Held f Q s) (run : CmdRun f s s') : Held f Q s' := by
  induction run with
  | refl => exact held
  | tail _ step ih => exact ih.step fits step

end

/-! ## The message that is sent again -/

structure Resends (f : FrameId) (s : OvhMsg) : Prop where
  last : s.lastTxCmdFrame = f
  ended : s.txSegFrameCtl.segFrame = none
  free : (s.frames f).busy = false
  cmdFree : (s.frames .txCmdFrame).busy = false

structure FirstSent (f : FrameId) (s : OvhMsg) : Prop where
  known : ∀ n, f = .clearEoc n → n < s.accepted.length
  apart : s.txSegFrameCtl.segFrame ≠ some f
  free : (s.frames f).busy = false
  idle : 1024 < (s.frames f).length → s.txSegFrameCtl.segFrame = none
  header : 1024 < (s.frames f).length → (s.frames f).first.length = 4
  most : (s.frames f).length ≤ 8032

section

variable {f : FrameId} {s₀ s s' : OvhMsg}

theorem SegRun.eq_of_ended (run : SegRun f s s') (ended : s.txSegFrameCtl.segFrame = none) :
    s' = s := by
  rcases run.cases_head with same | ⟨_, step, -⟩
  · exact same.symm
  · cases step <;> simp_all

theorem held_short (first : FirstSent f s₀) (short : (s₀.frames f).length ≤ 1024)
    (run : CmdRun f (s₀.xmtTransferCmd f) s) : Held f (· = (s₀.frames f).content) s := by
  have held : Held f (· = (s₀.frames f).content) s₀ :=
    ⟨rfl, fun going => absurd going first.apart, first.known⟩
  refine (held.xmtTransferCmd short).run ?_ run
  rintro _ rfl
  rwa [length_content]

theorem held_long (first : FirstSent f s₀) (long : ¬ (s₀.frames f).length ≤ 1024)
    (run : CmdRun f (s₀.xmtTransferCmd f) s) : Held f OneSegment s := by
  have header := first.header (by omega)
  obtain ⟨n, count⟩ : ∃ n, ((s₀.frames f).length + 1003) / 1004 = n + 1 :=
    Nat.exists_eq_succ_of_ne_zero (by omega)
  have one : OneSegment ((s₀.xmtSendLongFrame f).frames f).content := by
    rw [xmtSendLongFrame_eq (first.idle (by omega)) header long first.most]
    exact @oneSegment_xmtSendNextSeg { s₀ with txSegFrameCtl := s₀.startCtl f } f first.free header
      n count
  have same : ((s₀.xmtTransferCmd f).frames f).content =
      ((s₀.xmtSendLongFrame f).frames f).content := by
    simp [OvhMsg.xmtTransferCmd, OvhMsg.setFrame, content]
  rw [← same] at one
  have held : Held f OneSegment (s₀.xmtTransferCmd f) := by
    refine ⟨one, fun _ => ⟨?_, fun _ => id⟩, fun n eq => ?_⟩
    · simpa [content] using one.1
    · rw [(@Transmits.xmtTransferCmd f s₀).accepted]
      exact first.known n eq
  refine held.run ?_ run
  rintro content ⟨four, few⟩
  simp only [kG992p3OvhSegMsgMaxLen] at few
  omega

theorem carried_xmtResendCmd (resends : Resends f s) (short : (s.frames f).length ≤ 1024) :
    s.xmtResendCmd.txSegFrameCtl.segFrame = none ∧
      carried (s.xmtResendCmd.sent.drop s.sent.length) = (s.frames f).content := by
  obtain ⟨s', resend, renumbers⟩ := xmtResendCmd_eq resends.last resends.cmdFree
  have short' : (s'.frames f).length ≤ 1024 := by
    rwa [← length_content, renumbers.content, length_content]
  have sent := sent_xmtTransferCmd short' (renumbers.busy.trans resends.free)
  rw [resend, (xmtTransferCmd_short short').2, renumbers.ctl, sent, renumbers.sent, drop_left,
    carried_singleton, renumbers.content]
  exact ⟨resends.ended, rfl⟩

/-- **A command is sent again unchanged if and only if it is short.** -/
theorem xmtResendCmd_repeats_iff (first : FirstSent f s₀) (run : CmdRun f (s₀.xmtTransferCmd f) s)
    (resends : Resends f s) :
    (∀ s', SegRun f s.xmtResendCmd s' → s'.txSegFrameCtl.segFrame = none →
        carried (s'.sent.drop s.sent.length) = (s₀.frames f).content) ↔
      (s₀.frames f).length ≤ 1024 := by
  constructor
  · intro repeats
    by_contra long
    obtain ⟨four, few⟩ := (held_long first long run).content
    have short : (s.frames f).length ≤ 1024 := by
      rw [← length_content, four]
      simp only [kG992p3OvhSegMsgMaxLen] at few
      omega
    obtain ⟨ended, again⟩ := carried_xmtResendCmd resends short
    have same : (s.frames f).content = (s₀.frames f).content :=
      again.symm.trans (repeats _ .refl ended)
    rw [← length_content, ← same, length_content] at long
    exact long short
  · intro short s' resent _
    have content := (held_short first short run).content
    have still : (s.frames f).length ≤ 1024 := by
      rwa [← length_content, content, length_content]
    obtain ⟨ended, again⟩ := carried_xmtResendCmd resends still
    rw [SegRun.eq_of_ended resent ended, again, content]

end

def clearEocStart (data : List UInt8) : OvhMsg :=
  { ovhMsgInit.sendClearEocFrame data with txClEocFrameCB := [] }.clearEocCmd (.clearEoc 0)

theorem firstSent_clearEocStart {data : List UInt8} (most : data.length ≤ 8028) :
    FirstSent (.clearEoc 0) (clearEocStart data) := by
  have frame : ((clearEocStart data).frames (.clearEoc 0)).others = [data] ∧
      ((clearEocStart data).frames (.clearEoc 0)).first.length = 4 := by
    simp [clearEocStart, OvhMsg.clearEocCmd, OvhMsg.getCmdNum, OvhMsg.sendClearEocFrame,
      OvhMsg.setFrame, OvhFrame.new, ovhMsgInit, clEocFrameRoom]
  refine ⟨?_, ?_, ?_, fun _ => rfl, fun _ => frame.2, ?_⟩
  · rintro n ⟨⟩
    exact Nat.one_pos
  · rintro ⟨⟩
  · simp [clearEocStart, OvhMsg.clearEocCmd, OvhMsg.getCmdNum, OvhMsg.sendClearEocFrame,
      OvhMsg.setFrame, OvhFrame.new, ovhMsgInit, clEocFrameRoom]
  · rw [OvhFrame.length, frame.1, frame.2, flatten_singleton]
    omega

theorem xmtResendCmd_repeats_iff_shortFrame :
    ((clearEocStart [7, 8, 9]).frames (.clearEoc 0)).length ≤ 1024 ∧
    ∀ s', SegRun (.clearEoc 0)
        (((clearEocStart [7, 8, 9]).xmtTransferCmd (.clearEoc 0)).sendCompleteFrame
          (.clearEoc 0)).xmtResendCmd s' → s'.txSegFrameCtl.segFrame = none →
      carried (s'.sent.drop 1) = ((clearEocStart [7, 8, 9]).frames (.clearEoc 0)).content :=
  ⟨by decide +kernel, (xmtResendCmd_repeats_iff (firstSent_clearEocStart (by decide))
    (.single (.sendCompleteFrame _ (.clearEoc 0)))
    ⟨by decide +kernel, by decide +kernel, by decide +kernel, by decide +kernel⟩).mpr
    (by decide +kernel)⟩

/-- **After two segments the second one is sent again**, as a whole message: of 1100 bytes the last
100 arrive. -/
theorem xmtResendCmd_repeats_segment :
    ∃ s, CmdRun (.clearEoc 0)
        ((clearEocStart (replicate 1100 7)).xmtTransferCmd (.clearEoc 0)) s ∧
      Resends (.clearEoc 0) s ∧ s.xmtResendCmd.txSegFrameCtl.segFrame = none ∧
      carried (s.xmtResendCmd.sent.drop s.sent.length) = ([1, 0, 8, 1], replicate 100 7) ∧
      carried (s.xmtResendCmd.sent.drop s.sent.length) ≠
        ((clearEocStart (replicate 1100 7)).frames (.clearEoc 0)).content := by
  have run : CmdRun (.clearEoc 0)
      ((clearEocStart (replicate 1100 7)).xmtTransferCmd (.clearEoc 0)) _ :=
    .head (.sendCompleteFrame _ (.clearEoc 0)) (.head (.indicateRcvFrame _ (segAckMsg 1))
      (.single (.sendCompleteFrame _ (.clearEoc 0))))
  refine ⟨_, run, ⟨?_, ?_, ?_, ?_⟩, ?_, ?_, ?_⟩ <;> decide +kernel

/-! ## Commands that wait for a response -/

namespace OvhMsg

variable {s : OvhMsg} {f : FrameId}

theorem workaround_xmtSendCurrSeg :
    (s.xmtSendCurrSeg f).1.clearEocWorkaround = s.clearEocWorkaround := by
  rw [xmtSendCurrSeg, xmtSendFrame]
  split <;> rename_i taken <;> split at taken <;> cases taken <;> rfl

theorem workaround_xmtSendNextSeg :
    (s.xmtSendNextSeg f).clearEocWorkaround = s.clearEocWorkaround := by
  rw [xmtSendNextSeg]
  split
  · rfl
  · dsimp only
    split
    · rfl
    · split
      · rfl
      · rw [sendSegment]
        dsimp only
        split
        · split <;> exact workaround_xmtSendCurrSeg
        · exact workaround_xmtSendCurrSeg

theorem workaround_xmtTransferCmd :
    (s.xmtTransferCmd f).clearEocWorkaround = s.clearEocWorkaround := by
  show (s.xmtSendLongFrame f).clearEocWorkaround = _
  rw [xmtSendLongFrame]
  split
  · rw [xmtSendFrame]
    split <;> rfl
  · split
    · rfl
    · rw [xmtSendSegFrame]
      split
      · rfl
      · exact workaround_xmtSendNextSeg

theorem workaround_xmtResendCmd :
    s.xmtResendCmd.clearEocWorkaround = s.clearEocWorkaround := by
  rw [xmtResendCmd]
  split
  · rfl
  · dsimp only
    rw [workaround_xmtTransferCmd]
    split <;> rfl

end OvhMsg

/-- A command waits for its response, and no Clear EOC frame may take its place. -/
structure Waits (s : OvhMsg) : Prop where
  waitingAck : s.waitingAck = true
  noWay : s.clearEocWorkaround = false ∨ s.txClEocFrameCB = []

inductive QuietEvent : OvhEvent → Prop
  | timer (timeMs : UInt32) (linkActive : Bool) : QuietEvent (.timer timeMs linkActive)
  | sendCompleteFrame (f : FrameId) : QuietEvent (.sendCompleteFrame f)
  | segAck {msg : List UInt8} (ack : codeOf msg = 0xF0 ∨ codeOf msg = 0xF1 ∨ codeOf msg = 0xF2) :
    QuietEvent (.indicateRcvFrame msg)

namespace Waits

variable {s s' : OvhMsg}

theorem of_transmits {f : FrameId} (waits : Waits s) (transmits : Transmits f s s')
    (same : s'.clearEocWorkaround = s.clearEocWorkaround) : Waits s' :=
  ⟨transmits.waitingAck waits.waitingAck, by rw [same, transmits.txClEocFrameCB]; exact waits.noWay⟩

theorem rcvProcessSegAck (waits : Waits s) (msg : List UInt8) : Waits (s.rcvProcessSegAck msg) := by
  cases going : s.txSegFrameCtl.segFrame with
  | none =>
    rw [OvhMsg.rcvProcessSegAck, going]
    exact waits
  | some f =>
    refine waits.of_transmits (Transmits.rcvProcessSegAck going msg) ?_
    rw [OvhMsg.rcvProcessSegAck, going]
    dsimp only
    split
    · split
      · rfl
      · exact workaround_xmtSendNextSeg
    · rfl

theorem segTimer (waits : Waits s) (f : FrameId) : Waits (s.segTimer f) := by
  refine waits.of_transmits Transmits.segTimer ?_
  rw [OvhMsg.segTimer]
  split
  · exact workaround_xmtSendNextSeg
  · split
    · split
      · rfl
      · exact workaround_xmtSendCurrSeg
    · rfl

theorem ackTimer (waits : Waits s) : Waits s.ackTimer ∨ 3 ≤ s.cmdTryCnt := by
  have stays : s.givesWay = false := by
    rcases waits.noWay with off | empty
    · simp [OvhMsg.givesWay, off]
    · simp [OvhMsg.givesWay, empty]
  rw [OvhMsg.ackTimer, stays, if_neg Bool.false_ne_true, if_neg Bool.false_ne_true]
  split
  · split
    next third => exact .inr third
    · exact .inl (waits.of_transmits .xmtResendCmd workaround_xmtResendCmd)
  · exact .inl ⟨waits.waitingAck, waits.noWay⟩

theorem timer (waits : Waits s) (timeMs : UInt32) (linkActive : Bool) :
    Waits (s.timer timeMs linkActive) ∨ 3 ≤ s.cmdTryCnt := by
  have later : Waits { s with timeMs := s.timeMs + timeMs } := ⟨waits.waitingAck, waits.noWay⟩
  rw [OvhMsg.timer]
  split
  · exact .inl later
  · split
    · exact .inl (later.segTimer _)
    · rw [if_pos waits.waitingAck]
      exact later.ackTimer

theorem step (waits : Waits s) {e : OvhEvent} (quiet : QuietEvent e) :
    Waits (ovhStep s e) ∨ 3 ≤ s.cmdTryCnt ∧ ∃ timeMs linkActive, e = .timer timeMs linkActive := by
  cases quiet with
  | timer timeMs linkActive =>
    exact (waits.timer timeMs linkActive).imp_right fun third => ⟨third, _, _, rfl⟩
  | sendCompleteFrame f => exact .inl ⟨waits.waitingAck, waits.noWay⟩
  | segAck ack =>
    rw [ovhStep, OvhMsg.indicateRcvFrame]
    split
    · exact .inl waits
    · exact .inl (waits.rcvProcessSegAck _)

end Waits

theorem Waits.newCmd {s : OvhMsg} {data0 data1 : List UInt8}
    (short : data0.length + data1.length ≤ 1024)
    (noWay : s.clearEocWorkaround = false ∨ s.txClEocFrameCB = []) (newCmd : Bool) :
    Waits (s.newCmd data0 data1 newCmd true) := by
  have last : Waits { s with waitingAck := true }.completeLast := by
    rw [OvhMsg.completeLast]
    split <;> exact ⟨rfl, noWay⟩
  refine ⟨?_, last.noWay⟩
  show (if 1024 < data0.length + data1.length then false else _) = true
  rw [if_neg (not_lt.mpr short)]
  exact last.waitingAck

/-- The command of `s` waits after the run, or waited until the timer had counted three tries. -/
def NotForgotten (s : OvhMsg) (events : List OvhEvent) : Prop :=
  (ovhRun s events).waitingAck = true ∨
    ∃ before timeMs linkActive after, events = before ++ .timer timeMs linkActive :: after ∧
      (ovhRun s before).waitingAck = true ∧ 3 ≤ (ovhRun s before).cmdTryCnt

theorem Waits.run {s : OvhMsg} (waits : Waits s) {events : List OvhEvent}
    (quiet : ∀ e ∈ events, QuietEvent e) : NotForgotten s events := by
  induction events generalizing s with
  | nil => exact .inl waits.waitingAck
  | cons e events ih =>
    rcases waits.step (quiet e mem_cons_self) with next | ⟨third, timeMs, linkActive, rfl⟩
    · rcases ih next fun e mem => quiet e (mem_cons_of_mem _ mem) with
        still | ⟨before, timeMs, linkActive, after, rfl, still, third⟩
      · exact .inl still
      · exact .inr ⟨e :: before, timeMs, linkActive, after, rfl, still, third⟩
    · exact .inr ⟨[], timeMs, linkActive, events, rfl, waits.waitingAck, third⟩

end EchoLife.Dsl
