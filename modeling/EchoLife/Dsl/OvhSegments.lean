import EchoLife.Dsl.OvhMsg
import EchoLife.Lib.Slices

/-!
# Messages in segments

`SegFrameCtl.plan` lists the parts of a long frame that are still to be sent, and every call of
`xmtSendNextSeg` sends the next of them (`xmtSendNextSeg_spec`), as many as were counted
(`Underway.run`). They are counted as if every segment could be filled with 1004 bytes, so that the
last bytes are lost unless the lengths fit (`xmtSendLongFrame_whole_iff`,
`xmtSendLongFrame_loses_byte`).
-/

namespace EchoLife.Dsl

open List Slices OvhMsg SegFrameCtl

/-! ## The parts of a frame -/

namespace SegFrameCtl

def parts (ctl : SegFrameCtl) : List (List UInt8) :=
  slices kG992p3OvhSegMsgMaxLen (ctl.buffer.drop (ctl.segFrBufStart + ctl.segFrBufLen)) ++
    ctl.segFrBufCur.tail.flatMap (slices kG992p3OvhSegMsgMaxLen)

def plan (ctl : SegFrameCtl) : List (List UInt8) :=
  if ctl.frontWhole then slices kG992p3OvhSegMsgMaxLen ctl.segFrBufCur.flatten else ctl.parts

structure Cuttable (ctl : SegFrameCtl) : Prop where
  few : ctl.segFrBufCur.length ≤ 2
  front : ctl.frontWhole → ∃ front rest, ctl.segFrBufCur = [front, rest] ∧ rest ≠ []

variable {ctl : SegFrameCtl}

theorem frontWhole_eq_false (begun : ctl.segFrBufLen ≠ 0) : ctl.frontWhole = false := by
  simp [frontWhole, begun]

theorem cuttable_of_begun (few : ctl.segFrBufCur.length ≤ 2) (begun : ctl.segFrBufLen ≠ 0) :
    ctl.Cuttable where
  few := few
  front := by simp [frontWhole_eq_false begun]

theorem maxLen_pos : 0 < kG992p3OvhSegMsgMaxLen := by decide

theorem segFrBuf_cons_parts (more : ctl.segFrBufStart < ctl.buffer.length)
    (full : ctl.segFrBufLen =
      min (ctl.buffer.length - ctl.segFrBufStart) kG992p3OvhSegMsgMaxLen) :
    slices kG992p3OvhSegMsgMaxLen (ctl.buffer.drop ctl.segFrBufStart) ++
        ctl.segFrBufCur.tail.flatMap (slices kG992p3OvhSegMsgMaxLen) =
      ctl.segFrBuf :: ctl.parts := by
  have rest : ctl.buffer.drop ctl.segFrBufStart ≠ [] := by
    simpa [drop_eq_nil_iff] using more
  have front : ctl.segFrBuf =
      (ctl.buffer.drop ctl.segFrBufStart).take kG992p3OvhSegMsgMaxLen := by
    rw [segFrBuf, take_eq_take_iff, length_drop]
    omega
  have behind : ctl.buffer.drop (ctl.segFrBufStart + ctl.segFrBufLen) =
      (ctl.buffer.drop ctl.segFrBufStart).drop kG992p3OvhSegMsgMaxLen := by
    rw [drop_drop, drop_eq_drop_iff]
    omega
  rw [slices_of_ne_nil maxLen_pos rest, cons_append, front, parts, behind]

theorem advance_spec (few : ctl.segFrBufCur.length ≤ 2) {part : List UInt8}
    {later : List (List UInt8)} (todo : ctl.parts = part :: later) :
    ∃ next, ctl.advance 0 = some next ∧ next.segFrBuf = part ∧ next.parts = later ∧
      next.segFrBufLen ≠ 0 ∧ next.segFrBufCur.length ≤ 2 ∧
      next.segFrame = ctl.segFrame ∧ next.segTotal = ctl.segTotal := by
  have pos := maxLen_pos
  by_cases more : ctl.segFrBufStart + ctl.segFrBufLen < ctl.buffer.length
  · let next : SegFrameCtl := { ctl with
      segFrBufStart := ctl.segFrBufStart + ctl.segFrBufLen
      segFrBufLen := min (ctl.buffer.length - (ctl.segFrBufStart + ctl.segFrBufLen))
        kG992p3OvhSegMsgMaxLen }
    obtain ⟨rfl, rfl⟩ := cons.inj
      ((@segFrBuf_cons_parts next more rfl).symm.trans todo)
    refine ⟨next, ?_, rfl, rfl, ?_, few, rfl, rfl⟩
    · simp [advance, more, next]
    · change min _ _ ≠ 0
      omega
  · -- the buffer is used up, so that the next part is at the start of the one behind it
    have used : ctl.buffer.drop (ctl.segFrBufStart + ctl.segFrBufLen) = [] :=
      drop_eq_nil_of_le (by omega)
    rw [parts, used, slices_nil, nil_append] at todo
    match tail_eq : ctl.segFrBufCur.tail with
    | [] => simp [tail_eq] at todo
    | following :: others =>
      have no_others : others = [] := by
        have := congrArg List.length tail_eq
        rw [length_tail, length_cons] at this
        exact length_eq_zero_iff.mp (by omega)
      subst no_others
      have nonempty : 0 < following.length := by
        apply length_pos_iff.mpr
        rintro rfl
        simp [tail_eq] at todo
      let next : SegFrameCtl := { ctl with
        segFrBufCur := [following]
        segFrBufStart := 0
        segFrBufLen := min following.length kG992p3OvhSegMsgMaxLen }
      have cut : slices kG992p3OvhSegMsgMaxLen following = next.segFrBuf :: next.parts := by
        simpa [next, buffer] using @segFrBuf_cons_parts next nonempty rfl
      obtain ⟨rfl, rfl⟩ := cons.inj (cut.symm.trans (by simpa [tail_eq] using todo))
      refine ⟨next, ?_, rfl, rfl, ?_, by simp [next], rfl, rfl⟩
      · simp [advance, tail_eq, next]
        omega
      · change min _ _ ≠ 0
        omega

theorem nextSeg_spec (cuttable : ctl.Cuttable) {part : List UInt8} {later : List (List UInt8)}
    (todo : ctl.plan = part :: later) :
    ∃ front next, ctl.nextSeg = (front, some next) ∧ (front ++ [next.segFrBuf]).flatten = part ∧
      next.plan = later ∧ next.Cuttable ∧
      next.segFrame = ctl.segFrame ∧ next.segTotal = ctl.segTotal := by
  by_cases whole : ctl.frontWhole
  · obtain ⟨front, rest, buffers, nonempty⟩ := cuttable.front whole
    have some_left : 0 < rest.length := length_pos_iff.mpr nonempty
    have is_front : ctl.buffer = front := by simp [buffer, buffers]
    have short : ctl.segFrBufLen = 0 ∧ front.length < kG992p3OvhSegMsgMaxLen - 10 := by
      simpa [frontWhole, is_front] using whole
    let next : SegFrameCtl := { ctl with
      segFrBufCur := [rest]
      segFrBufStart := 0
      segFrBufLen := min rest.length (kG992p3OvhSegMsgMaxLen - front.length) }
    have begun : next.segFrBufLen ≠ 0 := by
      change min _ _ ≠ 0
      omega
    have filled : next.segFrBuf = rest.take (kG992p3OvhSegMsgMaxLen - front.length) := by
      change (rest.drop 0).take (min _ _) = _
      rw [drop_zero, take_eq_take_iff]
      omega
    have behind : next.parts = slices kG992p3OvhSegMsgMaxLen
        (rest.drop (kG992p3OvhSegMsgMaxLen - front.length)) := by
      have dropped : rest.drop (0 + min rest.length (kG992p3OvhSegMsgMaxLen - front.length)) =
          rest.drop (kG992p3OvhSegMsgMaxLen - front.length) := by
        rw [drop_eq_drop_iff]
        omega
      simpa [parts, next, buffer] using congrArg (slices kG992p3OvhSegMsgMaxLen) dropped
    rw [plan, if_pos whole, buffers, flatten_cons, flatten_singleton,
      slices_append_short (by omega) nonempty, ← filled, ← behind] at todo
    obtain ⟨rfl, rfl⟩ := cons.inj todo
    refine ⟨[front], next, ?_, by simp, ?_, cuttable_of_begun (by simp [next]) begun, rfl, rfl⟩
    · simp [nextSeg, whole, buffers, advance, next, short.1, buffer, some_left]
    · rw [plan, frontWhole_eq_false begun, if_neg Bool.false_ne_true]
  · rw [plan, if_neg whole] at todo
    obtain ⟨next, advanced, is_part, rest, begun, few, same⟩ := advance_spec cuttable.few todo
    refine ⟨[], next, ?_, by simp [is_part], ?_, cuttable_of_begun few begun, same⟩
    · rw [nextSeg, if_neg whole, advanced]
    · rw [plan, frontWhole_eq_false begun, if_neg Bool.false_ne_true, rest]

end SegFrameCtl

/-! ## Segments as the far end reads them -/

def segIdOf (first : List UInt8) : Nat := ((first.getD kG992p3CtrlField 0 >>> 3) &&& 7).toNat

def Transmission.segment (t : Transmission) : Nat × List UInt8 :=
  (segIdOf t.first, t.others.flatten)

def takeSegment (taken : List (Nat × List UInt8)) (seg : Nat × List UInt8) :
    List (Nat × List UInt8) :=
  if taken.getLast? = some seg then taken else taken ++ [seg]

def segments (log : List Transmission) : List (Nat × List UInt8) :=
  (log.map Transmission.segment).foldl takeSegment []

theorem segments_concat (log : List Transmission) (t : Transmission) :
    segments (log ++ [t]) = takeSegment (segments log) t.segment := by
  rw [segments, map_append, foldl_append, map_singleton, foldl_cons,
    foldl_nil, segments]

theorem ctrlField_segId : ∀ (ctrl : Fin 256) (segId : Fin 8) (marked : Bool),
    (((UInt8.ofNat ctrl.val &&& 0x3) ||| (if marked then (0x80 : UInt8) else 0) |||
      (UInt8.ofNat segId.val <<< (3 : UInt8))) >>> 3 &&& 7).toNat = segId.val := by
  decide +kernel

theorem segIdOf_markSegment {first : List UInt8} (header : 1 < first.length) {segId : Nat}
    (small : segId < 8) (segTotal : Nat) : segIdOf (markSegment first segId segTotal) = segId := by
  have field := ctrlField_segId ⟨(first.getD kG992p3CtrlField 0).toNat, UInt8.toNat_lt _⟩
    ⟨segId, small⟩ (decide (segId = 0 ∨ segId = segTotal - 1))
  have place : first[kG992p3CtrlField]? = some (first.getD kG992p3CtrlField 0) := by
    have found := getElem?_eq_getElem (show kG992p3CtrlField < first.length from header)
    rw [getD_eq_getElem?_getD, found, Option.getD_some]
  rw [segIdOf, markSegment, getD_eq_getElem?_getD, getElem?_modify_eq, place]
  simpa using field

@[simp] theorem length_markSegment (first : List UInt8) (segId segTotal : Nat) :
    (markSegment first segId segTotal).length = first.length :=
  length_modify ..

/-! ## One segment -/

namespace OvhMsg

variable {s s' : OvhMsg} {f : FrameId}

structure Hands (f : FrameId) (s s' : OvhMsg) : Prop where
  sent : s'.sent = s.sent ++ [⟨f, (s.frames f).first, (s.frames f).others⟩]
  first : (s'.frames f).first = (s.frames f).first
  others : (s'.frames f).others = (s.frames f).others
  ctl : ∃ segFrame timeSegOut tryCnt, s'.txSegFrameCtl =
    { s.txSegFrameCtl with segFrame := segFrame, timeSegOut := timeSegOut, tryCnt := tryCnt }

theorem hands_xmtSendCurrSeg (free : (s.frames f).busy = false) :
    Hands f s (s.xmtSendCurrSeg f).1 ∧ (s.xmtSendCurrSeg f).2 = true ∧
      (s.xmtSendCurrSeg f).1.txSegFrameCtl.segFrame = s.txSegFrameCtl.segFrame := by
  have taken : s.xmtSendFrame f = some { s.setFrame f ({ · with busy := true }) with
      sent := s.sent ++ [⟨f, (s.frames f).first, (s.frames f).others⟩] } := by
    simp [xmtSendFrame, free]
  rw [xmtSendCurrSeg, taken]
  refine ⟨⟨rfl, ?_, ?_, ⟨_, _, _, rfl⟩⟩, rfl, rfl⟩
  · simp [setFrame]
  · simp [setFrame]

theorem hands_sendSegment (free : (s.frames f).busy = false) (segId : Nat) :
    Hands f s (s.sendSegment f segId) ∧
      (s.sendSegment f segId).txSegFrameCtl.segFrame =
        if segId = 0 then none else s.txSegFrameCtl.segFrame := by
  obtain ⟨hands, is_sent, same⟩ := hands_xmtSendCurrSeg free
  rw [sendSegment]
  generalize s.xmtSendCurrSeg f = result at hands is_sent same
  dsimp only at hands is_sent same ⊢
  obtain ⟨segFrame, timeSegOut, tryCnt, ctl⟩ := hands.ctl
  by_cases last : segId = 0
  · rw [if_pos ⟨is_sent, last⟩, if_pos last]
    split
    · refine ⟨⟨hands.sent, ?_, ?_, ⟨none, timeSegOut, tryCnt, ?_⟩⟩, rfl⟩
      · simpa [endSeg, setFrame] using hands.first
      · simpa [endSeg, setFrame] using hands.others
      · simp [endSeg, ctl]
    · refine ⟨⟨hands.sent, hands.first, hands.others, ⟨none, timeSegOut, tryCnt, ?_⟩⟩, rfl⟩
      simp [endSeg, ctl]
  · grind

structure SendsPart (f : FrameId) (n : Nat) (part : List UInt8) (later : List (List UInt8))
    (s s' : OvhMsg) : Prop where
  sent : s'.sent = s.sent ++ [⟨f, (s'.frames f).first, (s'.frames f).others⟩]
  first : (s'.frames f).first = markSegment (s.frames f).first n s.txSegFrameCtl.segTotal
  payload : (s'.frames f).others.flatten = part
  segId : s'.txSegFrameCtl.segId = n
  segTotal : s'.txSegFrameCtl.segTotal = s.txSegFrameCtl.segTotal
  plan : s'.txSegFrameCtl.plan = later
  cuttable : s'.txSegFrameCtl.Cuttable
  segFrame : s'.txSegFrameCtl.segFrame = if n = 0 then none else s.txSegFrameCtl.segFrame

def madeSegment (s : OvhMsg) (f : FrameId) (n : Nat) (front : List (List UInt8))
    (next : SegFrameCtl) : OvhMsg :=
  { (s.setFrame f ({ · with nextSegPending := false })).setFrame f ({ · with
      first := markSegment (s.frames f).first n s.txSegFrameCtl.segTotal
      others := front ++ [next.segFrBuf] }) with
    txSegFrameCtl := { next with segId := n, tryCnt := 0 } }

theorem frames_madeSegment (n : Nat) (front : List (List UInt8)) (next : SegFrameCtl) :
    (s.madeSegment f n front next).frames f = { s.frames f with
      nextSegPending := false
      first := markSegment (s.frames f).first n s.txSegFrameCtl.segTotal
      others := front ++ [next.segFrBuf] } := by
  simp [madeSegment, setFrame]

theorem xmtSendNextSeg_eq (free : (s.frames f).busy = false) {n : Nat}
    (count : s.txSegFrameCtl.segId = n + 1) {front : List (List UInt8)} {next : SegFrameCtl}
    (cut : s.txSegFrameCtl.nextSeg = (front, some next)) :
    s.xmtSendNextSeg f = (s.madeSegment f n front next).sendSegment f n := by
  simp [xmtSendNextSeg, free, count, cut, madeSegment]

theorem xmtSendNextSeg_spec (free : (s.frames f).busy = false)
    (cuttable : s.txSegFrameCtl.Cuttable) {n : Nat} (count : s.txSegFrameCtl.segId = n + 1)
    {part : List UInt8} {later : List (List UInt8)} (todo : s.txSegFrameCtl.plan = part :: later) :
    SendsPart f n part later s (s.xmtSendNextSeg f) := by
  obtain ⟨front, next, cut, payload, plan, cuttable', same, total⟩ :=
    nextSeg_spec cuttable todo
  have frame := @frames_madeSegment s f n front next
  obtain ⟨hands, segFrame⟩ := hands_sendSegment (by rw [frame, free]) n
  obtain ⟨_, _, _, ctl⟩ := hands.ctl
  rw [xmtSendNextSeg_eq free count cut]
  exact {
    sent := by rw [hands.sent, hands.first, hands.others]; rfl
    first := by rw [hands.first, frame]
    payload := by rw [hands.others, frame, payload]
    segId := by rw [ctl]; rfl
    segTotal := by rw [ctl]; exact total
    plan := by rw [ctl]; exact plan
    cuttable := by rw [ctl]; exact ⟨cuttable'.few, cuttable'.front⟩
    segFrame := by rw [segFrame]; split <;> simp [madeSegment, same] }

end OvhMsg

/-! ## Runs -/

def OvhFrame.segment (frame : OvhFrame) : Nat × List UInt8 :=
  (segIdOf frame.first, frame.others.flatten)

structure Underway (f : FrameId) (before : List Transmission) (planned : List (Nat × List UInt8))
    (segTotal : Nat) (s : OvhMsg) : Prop where
  log : ∃ log, s.sent = before ++ log ∧
    segments log ++ (List.range s.txSegFrameCtl.segId).reverse.zip s.txSegFrameCtl.plan = planned ∧
    (segments log).getLast? = some (s.frames f).segment
  header : 1 < (s.frames f).first.length
  current : segIdOf (s.frames f).first = s.txSegFrameCtl.segId
  small : s.txSegFrameCtl.segId < 8
  enough : s.txSegFrameCtl.segId ≤ s.txSegFrameCtl.plan.length
  cuttable : s.txSegFrameCtl.Cuttable
  total : s.txSegFrameCtl.segTotal = segTotal
  segFrame : s.txSegFrameCtl.segFrame = if s.txSegFrameCtl.segId = 0 then none else some f

structure Idles (f : FrameId) (s s' : OvhMsg) : Prop where
  sent : s'.sent = s.sent
  first : (s'.frames f).first = (s.frames f).first
  others : (s'.frames f).others = (s.frames f).others
  ctl : ∃ timeSegOut, s'.txSegFrameCtl = { s.txSegFrameCtl with timeSegOut := timeSegOut }

section

variable {f : FrameId} {before : List Transmission} {planned : List (Nat × List UInt8)}
  {segTotal : Nat} {s s' : OvhMsg}

theorem Underway.idle (under : Underway f before planned segTotal s) (idles : Idles f s s') :
    Underway f before planned segTotal s' := by
  obtain ⟨_, ctl⟩ := idles.ctl
  obtain ⟨log, sent, first, last⟩ := under.log
  exact {
    log := ⟨log, by rw [idles.sent, sent], by rw [ctl]; exact first,
      by rw [last, OvhFrame.segment, OvhFrame.segment, idles.first, idles.others]⟩
    header := idles.first ▸ under.header
    current := by rw [ctl, idles.first]; exact under.current
    small := by rw [ctl]; exact under.small
    enough := by rw [ctl]; exact under.enough
    cuttable := by rw [ctl]; exact ⟨under.cuttable.few, under.cuttable.front⟩
    total := by rw [ctl]; exact under.total
    segFrame := by rw [ctl]; exact under.segFrame }

theorem OvhMsg.SendsPart.underway {n : Nat} {part : List UInt8} {later : List (List UInt8)}
    (sends : s.SendsPart f n part later s') (header : 1 < (s.frames f).first.length)
    (going : s.txSegFrameCtl.segFrame = some f) (small : n < 8) (enough : n ≤ later.length)
    {log : List Transmission} (sent : s.sent = before ++ log)
    (plan : segments log ++ (n, part) :: (List.range n).reverse.zip later = planned)
    (unseen : ∀ seg, (segments log).getLast? = some seg → seg.1 ≠ n) :
    Underway f before planned s.txSegFrameCtl.segTotal s' := by
  have current : segIdOf (s'.frames f).first = n := by
    rw [sends.first]
    exact segIdOf_markSegment header small _
  have taken : segments (log ++ [⟨f, (s'.frames f).first, (s'.frames f).others⟩]) =
      segments log ++ [(n, part)] := by
    rw [segments_concat, Transmission.segment, current, sends.payload, takeSegment, if_neg]
    exact fun last => unseen _ last rfl
  exact {
    log := by
      refine ⟨_, by rw [sends.sent, sent, append_assoc], ?_, ?_⟩
      · rw [taken, sends.segId, sends.plan, append_assoc, singleton_append, plan]
      · rw [taken, getLast?_concat, OvhFrame.segment, current, sends.payload]
    header := by rw [sends.first, length_markSegment]; exact header
    current := by rw [current, sends.segId]
    small := by rw [sends.segId]; exact small
    enough := by rw [sends.segId, sends.plan]; exact enough
    cuttable := sends.cuttable
    total := sends.segTotal
    segFrame := by rw [sends.segFrame, sends.segId, going] }

theorem zip_range_succ {n : Nat} (part : List UInt8) (later : List (List UInt8)) :
    (List.range (n + 1)).reverse.zip (part :: later) =
      (n, part) :: (List.range n).reverse.zip later := by
  rw [range_succ, reverse_append, reverse_singleton, singleton_append,
    zip_cons_cons]

theorem Underway.next (under : Underway f before planned segTotal s)
    (free : (s.frames f).busy = false) {n : Nat} (count : s.txSegFrameCtl.segId = n + 1) :
    Underway f before planned segTotal (s.xmtSendNextSeg f) ∧
      (s.xmtSendNextSeg f).txSegFrameCtl.segId = n := by
  have enough := under.enough
  have small := under.small
  obtain ⟨part, later, todo⟩ := exists_cons_of_length_pos
    (show 0 < s.txSegFrameCtl.plan.length by omega)
  have sends := xmtSendNextSeg_spec free under.cuttable count todo
  obtain ⟨log, sent, first, last⟩ := under.log
  rw [count, todo, zip_range_succ] at first
  rw [count, todo, length_cons] at enough
  have going : s.txSegFrameCtl.segFrame = some f := by
    rw [under.segFrame, if_neg (by omega)]
  refine ⟨?_, sends.segId⟩
  rw [← under.total]
  refine sends.underway under.header going (by omega) (by omega) sent first ?_
  intro seg is_last
  rw [last] at is_last
  rw [← Option.some.inj is_last, OvhFrame.segment, under.current, count]
  exact Nat.succ_ne_self n

theorem Underway.again (under : Underway f before planned segTotal s) :
    Underway f before planned segTotal (s.xmtSendCurrSeg f).1 := by
  cases free : (s.frames f).busy with
  | true =>
    have refused : s.xmtSendFrame f = none := by simp [xmtSendFrame, free]
    apply under.idle
    rw [xmtSendCurrSeg, refused]
    exact ⟨rfl, rfl, rfl, ⟨_, rfl⟩⟩
  | false =>
    obtain ⟨hands, -, same⟩ := hands_xmtSendCurrSeg free
    obtain ⟨_, _, _, ctl⟩ := hands.ctl
    obtain ⟨log, sent, first, last⟩ := under.log
    have taken : segments (log ++ [⟨f, (s.frames f).first, (s.frames f).others⟩]) =
        segments log := by
      rw [segments_concat, takeSegment, last]
      exact if_pos rfl
    exact {
      log := by
        refine ⟨_, by rw [hands.sent, sent, append_assoc], ?_, ?_⟩
        · rw [taken, ctl]
          exact first
        · rw [taken, last, OvhFrame.segment, OvhFrame.segment, hands.first, hands.others]
      header := hands.first ▸ under.header
      current := by rw [ctl, hands.first]; exact under.current
      small := by rw [ctl]; exact under.small
      enough := by rw [ctl]; exact under.enough
      cuttable := by rw [ctl]; exact ⟨under.cuttable.few, under.cuttable.front⟩
      total := by rw [ctl]; exact under.total
      segFrame := by rw [same, ctl]; exact under.segFrame }

end

def OvhMsg.GivesUpSeg (s : OvhMsg) (f : FrameId) (timeMs : UInt32) : Prop :=
  (s.frames f).nextSegPending = false ∧ s.timeMs + timeMs - s.txSegFrameCtl.timeSegOut > 1000 ∧
    3 ≤ s.txSegFrameCtl.tryCnt

inductive SegStep (f : FrameId) : OvhMsg → OvhMsg → Prop
  | sendComplete {s : OvhMsg} (going : s.txSegFrameCtl.segFrame = some f) (g : FrameId) :
      SegStep f s (s.sendCompleteFrame g)
  | segAck {s : OvhMsg} (going : s.txSegFrameCtl.segFrame = some f) (msg : List UInt8) :
      SegStep f s (s.rcvProcessSegAck msg)
  | timer {s : OvhMsg} (going : s.txSegFrameCtl.segFrame = some f) (timeMs : UInt32)
      (linkActive : Bool) (heard : ¬ s.GivesUpSeg f timeMs) :
        SegStep f s (s.timer timeMs linkActive)

abbrev SegRun (f : FrameId) : OvhMsg → OvhMsg → Prop := Relation.ReflTransGen (SegStep f)

section

variable {f : FrameId} {before : List Transmission} {planned : List (Nat × List UInt8)}
  {segTotal : Nat} {s s' : OvhMsg}

theorem idles_sendCompleteFrame (g : FrameId) : Idles f s (s.sendCompleteFrame g) := by
  by_cases same : f = g
  · subst same
    exact ⟨rfl, by simp [sendCompleteFrame, setFrame],
      by simp [sendCompleteFrame, setFrame], ⟨_, rfl⟩⟩
  · have frame : (s.sendCompleteFrame g).frames f = s.frames f := Function.update_of_ne same _ _
    exact ⟨rfl, by rw [frame], by rw [frame], ⟨_, rfl⟩⟩

section

variable (under : Underway f before planned segTotal s) (going : s.txSegFrameCtl.segFrame = some f)
include under going

theorem Underway.proceed : Underway f before planned segTotal (s.xmtSendNextSeg f) := by
  have more : s.txSegFrameCtl.segId ≠ 0 := by
    intro last
    rw [under.segFrame, if_pos last] at going
    cases going
  obtain ⟨n, count⟩ := Nat.exists_eq_succ_of_ne_zero more
  cases free : (s.frames f).busy with
  | false => exact (under.next free count).1
  | true =>
    rw [xmtSendNextSeg, if_pos free]
    exact under

theorem Underway.segAck (msg : List UInt8) :
    Underway f before planned segTotal (s.rcvProcessSegAck msg) := by
  simp only [rcvProcessSegAck, going]
  split
  · split
    · exact under.idle ⟨rfl, by simp, by simp, ⟨_, rfl⟩⟩
    · exact under.proceed going
  · exact under

theorem Underway.timer {timeMs : UInt32} (linkActive : Bool) (heard : ¬ s.GivesUpSeg f timeMs) :
    Underway f before planned segTotal (s.timer timeMs linkActive) := by
  have later : Underway f before planned segTotal { s with timeMs := s.timeMs + timeMs } :=
    under.idle ⟨rfl, rfl, rfl, ⟨_, rfl⟩⟩
  rw [OvhMsg.timer]
  split
  · exact later
  · simp only [going, OvhMsg.segTimer]
    split
    · exact later.proceed going
    next waits =>
      split
      next expired =>
        have tries : ¬ 3 ≤ s.txSegFrameCtl.tryCnt := fun many =>
          heard ⟨by simpa using waits, expired, many⟩
        rw [if_neg tries]
        exact later.again
      · exact later

end

theorem Underway.step (under : Underway f before planned segTotal s) (step : SegStep f s s') :
    Underway f before planned segTotal s' := by
  cases step with
  | sendComplete going g => exact under.idle (idles_sendCompleteFrame g)
  | segAck going msg => exact under.segAck going msg
  | timer going timeMs linkActive heard => exact under.timer going linkActive heard

theorem Underway.run (under : Underway f before planned segTotal s) (run : SegRun f s s') :
    Underway f before planned segTotal s' := by
  induction run with
  | refl => exact under
  | tail _ step ih => exact ih.step step

def segAckMsg (segId : Nat) : List UInt8 := [kG992p3PriorityNormal, 2, 0xF1, 1, UInt8.ofNat segId]

theorem Underway.exists_run (under : Underway f before planned segTotal s) :
    ∃ s', SegRun f s s' ∧ s'.txSegFrameCtl.segFrame = none := by
  generalize left : s.txSegFrameCtl.segId = segId
  induction segId generalizing s with
  | zero => exact ⟨s, .refl, by rw [under.segFrame, if_pos left]⟩
  | succ n ih =>
    have going : s.txSegFrameCtl.segFrame = some f := by
      rw [under.segFrame, if_neg (by omega)]
    have released := under.idle (@idles_sendCompleteFrame f s f)
    have free : ((s.sendCompleteFrame f).frames f).busy = false := by
      simp [sendCompleteFrame, setFrame]
    obtain ⟨under', left'⟩ := released.next free left
    obtain ⟨s', run, ended⟩ := ih under' left'
    have still : (s.sendCompleteFrame f).txSegFrameCtl.segFrame = some f := going
    have acked : (s.sendCompleteFrame f).rcvProcessSegAck (segAckMsg (n + 1)) =
        (s.sendCompleteFrame f).xmtSendNextSeg f := by
      have number : (s.sendCompleteFrame f).txSegFrameCtl.segId =
          ((segAckMsg (n + 1)).getD (kG992p3CmdSubCode + 1) 0).toNat := by
        have small := under.small
        change s.txSegFrameCtl.segId = (UInt8.ofNat (n + 1)).toNat
        rw [UInt8.toNat_ofNat', Nat.mod_eq_of_lt (by omega), left]
      simp only [rcvProcessSegAck, still, if_pos number, free, Bool.false_eq_true, if_false]
    refine ⟨s', .head (.sendComplete going f) (.head ?_ run), ended⟩
    rw [← acked]
    exact .segAck still _

end

/-! ## Whole messages -/

namespace SegFrameCtl

variable {ctl : SegFrameCtl}

theorem plan_start (start : ctl.segFrBufStart = 0) (len : ctl.segFrBufLen = 0) :
    ctl.plan =
      if ctl.buffer.length < kG992p3OvhSegMsgMaxLen - 10 then
        slices kG992p3OvhSegMsgMaxLen ctl.segFrBufCur.flatten
      else ctl.segFrBufCur.flatMap (slices kG992p3OvhSegMsgMaxLen) := by
  have whole : ctl.frontWhole = decide (ctl.buffer.length < kG992p3OvhSegMsgMaxLen - 10) := by
    simp [frontWhole, len]
  have parts : ctl.parts = ctl.segFrBufCur.flatMap (slices kG992p3OvhSegMsgMaxLen) := by
    rw [parts, start, len, buffer]
    cases ctl.segFrBufCur <;> simp
  simp only [plan, whole, parts, decide_eq_true_eq]

variable (start : ctl.segFrBufStart = 0) (len : ctl.segFrBufLen = 0)

include start len

theorem flatten_plan : ctl.plan.flatten = ctl.segFrBufCur.flatten := by
  rw [plan_start start len]
  split
  · exact flatten_slices maxLen_pos _
  · exact flatten_flatMap_slices maxLen_pos _

theorem plan_bounds : ∀ part ∈ ctl.plan, part ≠ [] ∧ part.length ≤ kG992p3OvhSegMsgMaxLen := by
  intro part mem
  rw [plan_start start len] at mem
  split at mem
  · exact ⟨ne_nil_of_mem_slices maxLen_pos _ part mem,
      length_le_of_mem_slices maxLen_pos _ part mem⟩
  · obtain ⟨buffer, -, in_buffer⟩ := mem_flatMap.mp mem
    exact ⟨ne_nil_of_mem_slices maxLen_pos _ part in_buffer,
      length_le_of_mem_slices maxLen_pos _ part in_buffer⟩

end SegFrameCtl

def segmentsFor (n : Nat) : Nat := (n + (kG992p3OvhSegMsgMaxLen - 1)) / kG992p3OvhSegMsgMaxLen

def CountFits (front rest : Nat) : Prop :=
  ((front + rest) % 1000 = 0 ∨ 4 * ((front + rest) / 1000 - 1) < (front + rest) % 1000) ∧
    (front < 990 ∨ segmentsFor front + segmentsFor rest = segmentsFor (front + rest))

structure LongFrame (frame : OvhFrame) (front : List UInt8) (more : List (List UInt8)) : Prop where
  header : frame.first.length = 4
  buffers : frame.others = front :: more
  few : more.length ≤ 1
  least : 1025 ≤ frame.length
  most : frame.length ≤ 8000

structure SendsWhole (s s' : OvhMsg) (payload : List UInt8) : Prop where
  payload : ((segments (s'.sent.drop s.sent.length)).map Prod.snd).flatten = payload
  countdown : (segments (s'.sent.drop s.sent.length)).map Prod.fst =
    (List.range s'.txSegFrameCtl.segTotal).reverse
  bounded : ∀ seg ∈ segments (s'.sent.drop s.sent.length), seg.2.length ≤ kG992p3OvhSegMsgMaxLen

def OvhMsg.startCtl (s : OvhMsg) (f : FrameId) : SegFrameCtl :=
  { s.txSegFrameCtl with
    segTotal := ((s.frames f).length + 1003) / 1004
    segId := ((s.frames f).length + 1003) / 1004
    segFrBufCur := (s.frames f).others
    segFrBufStart := 0
    segFrBufLen := 0
    segFrame := some f }

section

variable {s : OvhMsg} {f : FrameId} {front : List UInt8} {more : List (List UInt8)}

theorem LongFrame.length_eq {frame : OvhFrame} (long : LongFrame frame front more) :
    frame.length = 4 + (front.length + more.flatten.length) := by
  rw [OvhFrame.length, long.header, long.buffers, flatten_cons, length_append]

theorem xmtSendLongFrame_eq (idle : s.txSegFrameCtl.segFrame = none)
    (header : (s.frames f).first.length = 4) (too_long : ¬ (s.frames f).length ≤ 1024)
    (most : (s.frames f).length ≤ 8032) :
    s.xmtSendLongFrame f = { s with txSegFrameCtl := s.startCtl f }.xmtSendNextSeg f := by
  have few_segs : ¬ 8 < ((s.frames f).length + 1003) / 1004 := by omega
  have is_byte : ((s.frames f).length + 1003) / 1004 % 256 = ((s.frames f).length + 1003) / 1004 :=
    Nat.mod_eq_of_lt (by omega)
  simp only [xmtSendLongFrame, xmtSendSegFrame, if_neg too_long, idle,
    Option.isSome_none, Bool.false_eq_true, if_false, header, kG992p3OvhSegMsgMaxLen,
    Nat.reduceAdd, Nat.reduceSub, is_byte, if_neg few_segs, startCtl]

section

variable (long : LongFrame (s.frames f) front more)
include long

theorem cuttable_start : (s.startCtl f).Cuttable := by
  have length := long.length_eq
  have least := long.least
  constructor
  · change (s.frames f).others.length ≤ 2
    rw [long.buffers, length_cons]
    exact Nat.succ_le_succ long.few
  · intro whole
    have short : front.length < 990 := by
      simpa [frontWhole, buffer, startCtl, long.buffers,
        kG992p3OvhSegMsgMaxLen] using whole
    match more, long with
    | [], long => simp at length; omega
    | [rest], long =>
      refine ⟨front, rest, long.buffers, ?_⟩
      rintro rfl
      simp at length
      omega

theorem length_plan_start :
    (s.startCtl f).plan.length =
      if front.length < 990 then segmentsFor (front.length + more.flatten.length)
      else segmentsFor front.length + segmentsFor more.flatten.length := by
  have count (l : List UInt8) : (slices kG992p3OvhSegMsgMaxLen l).length = segmentsFor l.length :=
    length_slices maxLen_pos l
  have buffers : (s.startCtl f).segFrBufCur = front :: more := long.buffers
  rw [plan_start rfl rfl, buffer, buffers]
  change (if front.length < 990 then _ else _ : List (List UInt8)).length = _
  split
  · rw [count, flatten_cons, length_append]
  · match more, long.few with
    | [], _ =>
      have nothing : segmentsFor 0 = 0 := rfl
      simp [count, nothing]
    | [rest], _ => simp [count]

theorem segTotal_le_length_plan :
    ((s.frames f).length + 1003) / 1004 ≤ (s.startCtl f).plan.length := by
  have length := long.length_eq
  have least := long.least
  rw [length_plan_start long]
  simp only [segmentsFor, kG992p3OvhSegMsgMaxLen]
  split <;> omega

theorem length_plan_le_iff :
    (s.startCtl f).plan.length ≤ ((s.frames f).length + 1003) / 1004 ↔
      CountFits front.length more.flatten.length := by
  have length := long.length_eq
  have most := long.most
  rw [length_plan_start long, CountFits]
  simp only [segmentsFor, kG992p3OvhSegMsgMaxLen]
  split
  next short =>
    simp only [short, true_or, and_true]
    omega
  next far =>
    simp only [far, false_or]
    omega

end

def OvhMsg.planned (s : OvhMsg) (f : FrameId) : List (Nat × List UInt8) :=
  (List.range (s.startCtl f).segTotal).reverse.zip (s.startCtl f).plan

theorem underway_xmtSendLongFrame (idle : s.txSegFrameCtl.segFrame = none)
    (free : (s.frames f).busy = false) (long : LongFrame (s.frames f) front more) :
    Underway f s.sent (s.planned f) (s.startCtl f).segTotal (s.xmtSendLongFrame f) := by
  have least := long.least
  have most := long.most
  have enough := segTotal_le_length_plan long
  obtain ⟨n, count⟩ : ∃ n, ((s.frames f).length + 1003) / 1004 = n + 1 :=
    Nat.exists_eq_succ_of_ne_zero (by omega)
  obtain ⟨part, later, todo⟩ := exists_cons_of_length_pos
    (show 0 < (s.startCtl f).plan.length by omega)
  rw [count, todo, length_cons] at enough
  rw [xmtSendLongFrame_eq idle long.header (by omega) (by omega)]
  have sends := @OvhMsg.xmtSendNextSeg_spec { s with txSegFrameCtl := s.startCtl f } f free
    (cuttable_start long) n count part later todo
  refine sends.underway (by simp [long.header]) rfl (by omega) (by omega)
    (append_nil s.sent).symm ?_ (by simp [segments])
  change _ = (List.range (((s.frames f).length + 1003) / 1004)).reverse.zip (s.startCtl f).plan
  rw [count, todo, zip_range_succ]
  rfl

theorem Underway.segments_eq {before : List Transmission} {planned : List (Nat × List UInt8)}
    {segTotal : Nat} (under : Underway f before planned segTotal s)
    (ended : s.txSegFrameCtl.segFrame = none) :
    segments (s.sent.drop before.length) = planned := by
  have last : s.txSegFrameCtl.segId = 0 := by
    by_contra more
    rw [under.segFrame, if_neg more] at ended
    cases ended
  obtain ⟨log, sent, first, -⟩ := under.log
  rw [sent, drop_left, ← first, last]
  simp

/-- **A long frame is sent whole if and only if its lengths fit the count**, when all its segments
are acknowledged. -/
theorem xmtSendLongFrame_whole_iff (idle : s.txSegFrameCtl.segFrame = none)
    (free : (s.frames f).busy = false) (long : LongFrame (s.frames f) front more) :
    (∀ s', SegRun f (s.xmtSendLongFrame f) s' → s'.txSegFrameCtl.segFrame = none →
        SendsWhole s s' (s.frames f).others.flatten) ↔
      CountFits front.length more.flatten.length := by
  have start := underway_xmtSendLongFrame idle free long
  have flat : (s.startCtl f).plan.flatten = (s.frames f).others.flatten :=
    SegFrameCtl.flatten_plan rfl rfl
  have bounds : ∀ part ∈ (s.startCtl f).plan,
      part ≠ [] ∧ part.length ≤ kG992p3OvhSegMsgMaxLen := SegFrameCtl.plan_bounds rfl rfl
  have enough : (s.startCtl f).segTotal ≤ (s.startCtl f).plan.length := segTotal_le_length_plan long
  have payloads : (s.planned f).map Prod.snd =
      (s.startCtl f).plan.take (s.startCtl f).segTotal := by
    rw [OvhMsg.planned, zip_eq_zip_take_min, map_snd_zip (by simp), length_reverse,
      length_range, Nat.min_eq_left enough]
  have numbers : (s.planned f).map Prod.fst = (List.range (s.startCtl f).segTotal).reverse :=
    map_fst_zip (by simpa using enough)
  have whole := flatten_take_eq_iff (fun part mem => (bounds part mem).1) (s.startCtl f).segTotal
  rw [flat] at whole
  rw [← length_plan_le_iff long]
  refine Iff.trans ?_ whole
  constructor
  · intro all
    obtain ⟨s', run, ended⟩ := start.exists_run
    have carried := (all s' run ended).payload
    rwa [(start.run run).segments_eq ended, payloads] at carried
  · intro carried s' run ended
    have sent := (start.run run).segments_eq ended
    refine ⟨by rw [sent, payloads, carried], ?_, ?_⟩
    · rw [sent, numbers, (start.run run).total]
    · grind

end

def longStart (data : List UInt8) : OvhMsg :=
  ovhMsgInit.setFrame (.clearEoc 0) fun _ => OvhFrame.new [1, 0, 8, 1] [data]

theorem longFrame_longStart {data : List UInt8} (least : 1021 ≤ data.length)
    (most : data.length ≤ 7996) : LongFrame ((longStart data).frames (.clearEoc 0)) data [] := by
  have frame : (longStart data).frames (.clearEoc 0) = OvhFrame.new [1, 0, 8, 1] [data] := by
    simp [longStart]
  have length : (OvhFrame.new [1, 0, 8, 1] [data]).length = 4 + data.length := by
    simp [OvhFrame.length, OvhFrame.new]
  rw [frame]
  exact ⟨rfl, rfl, by decide, by omega, by omega⟩

theorem busy_longStart (data : List UInt8) :
    ((longStart data).frames (.clearEoc 0)).busy = false := by
  simp [longStart, OvhFrame.new]

theorem xmtSendLongFrame_whole_iff_oneBuffer :
    CountFits 1500 0 ∧
    ∀ s', SegRun (.clearEoc 0) ((longStart (replicate 1500 7)).xmtSendLongFrame (.clearEoc 0))
        s' → s'.txSegFrameCtl.segFrame = none →
      SendsWhole (longStart (replicate 1500 7)) s'
        ((longStart (replicate 1500 7)).frames (.clearEoc 0)).others.flatten := by
  have fits : CountFits 1500 0 := ⟨.inr (by decide), .inr (by decide)⟩
  have length : (replicate 1500 (7 : UInt8)).length = 1500 := length_replicate
  refine ⟨fits, (xmtSendLongFrame_whole_iff rfl (busy_longStart _)
    (longFrame_longStart (by omega) (by omega))).mpr ?_⟩
  rw [length]
  exact fits

/-- **The last byte of 2001 is not sent**: two segments are counted, and they have 1000 bytes
each. -/
theorem xmtSendLongFrame_loses_byte :
    ∃ s', SegRun (.clearEoc 0)
        ((longStart (replicate 2001 7)).xmtSendLongFrame (.clearEoc 0)) s' ∧
      s'.txSegFrameCtl.segFrame = none ∧
      ¬ SendsWhole (longStart (replicate 2001 7)) s'
        ((longStart (replicate 2001 7)).frames (.clearEoc 0)).others.flatten := by
  refine ⟨_, .head (.sendComplete ?_ (.clearEoc 0)) (.head (.segAck ?_ (segAckMsg 1)) .refl),
    ?_, ?_⟩
  · decide +kernel
  · decide +kernel
  · decide +kernel
  · intro whole
    have short := congrArg List.length whole.payload
    revert short
    decide +kernel

end EchoLife.Dsl
