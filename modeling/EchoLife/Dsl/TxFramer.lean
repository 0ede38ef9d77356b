import EchoLife.Hdlc.Transmitter
import EchoLife.Lib.Ledger

/-!
# The framer that feeds the transmitter

The framer hands out the buffers of its first frame, one after the other, and tells the owner of a
frame when it is done with it. `TxLink` is the HDLC transmitter with the framer behind it, and
`Custody` says that the two agree on what was taken of the current frame (`hdlcByteTx_custody`).
-/

namespace EchoLife.Dsl

open List Option Function Hdlc

/-! ## The framer -/

structure DslFrame where
  serial : Nat
  buffers : List (List UInt8)
  deriving DecidableEq, Repr

def DslFrame.bytes (f : DslFrame) : List UInt8 := f.buffers.flatten

/-- A call of `txCompleteHandlerPtr`. A frame that was sent is logged with the bytes that the
transmitter took from it. -/
inductive Completion where
  | sent (frame : DslFrame) (taken : List UInt8)
  | flushedWaiting (frame : DslFrame)
  | flushedCurrent (frame : DslFrame)
  deriving DecidableEq, Repr

def Completion.frame : Completion → DslFrame
  | .sent frame _ => frame
  | .flushedWaiting frame => frame
  | .flushedCurrent frame => frame

/-- The data of `dslFramerControl` for sending. `pTxBuf` is the current buffer, given by the
buffers behind it, and `txBufData` what lies between `pTxBufData` and `pTxBufDataEnd`. The last
three fields only record what happened. -/
structure TxFramer where
  dlistTxWaiting : List DslFrame
  pTxFrame : Option DslFrame
  pTxBuf : Option (List (List UInt8))
  txBufData : List UInt8
  submitted : List DslFrame
  taken : List UInt8
  completed : List Completion

namespace TxFramer

variable (c : TxFramer)

def dslFramerTxInit : TxFramer :=
  { c with dlistTxWaiting := [], pTxFrame := none, pTxBuf := none, txBufData := [] }

def dslFramerSendFrame (buffers : List (List UInt8)) : TxFramer :=
  let frame : DslFrame := ⟨c.submitted.length, buffers⟩
  { c with
    dlistTxWaiting := c.dlistTxWaiting ++ [frame]
    submitted := c.submitted ++ [frame] }

def dslFramerSendComplete : TxFramer :=
  match c.pTxFrame with
  | some frame => { c with completed := c.completed ++ [.sent frame c.taken] }
  | none => c

def dslFramerGetTxFrame : TxFramer :=
  match c.dlistTxWaiting.dropWhile (·.buffers = []) with
  | [] => { c with dlistTxWaiting := [], pTxFrame := none, pTxBuf := none }
  | frame :: waiting =>
    { c with
      dlistTxWaiting := waiting
      pTxFrame := some frame
      pTxBuf := some frame.buffers.tail
      txBufData := frame.buffers.headD []
      taken := [] }

theorem dlistTxWaiting_sendComplete :
    c.dslFramerSendComplete.dlistTxWaiting = c.dlistTxWaiting := by
  rw [dslFramerSendComplete]
  split <;> rfl

theorem length_getTxFrame {frame : DslFrame}
    (fetched : c.dslFramerGetTxFrame.pTxFrame = some frame) :
    c.dslFramerGetTxFrame.dlistTxWaiting.length < c.dlistTxWaiting.length := by
  have short := (dropWhile_sublist (p := fun f : DslFrame => decide (f.buffers = []))
    (l := c.dlistTxWaiting)).length_le
  rw [dslFramerGetTxFrame] at fetched ⊢
  split at fetched
  next => cases fetched
  next first waiting found =>
    rw [found, length_cons] at short
    exact short

def dslFramerTxGetPtr (c : TxFramer) (startNewFrame : Bool) :
    Option (List UInt8 × Bool) × TxFramer :=
  if c.txBufData ≠ [] then (some (c.txBufData, startNewFrame), c)
  else
    match c.pTxBuf with
    | some (pTxBuf :: rest) =>
      (some (pTxBuf, startNewFrame), { c with pTxBuf := some rest, txBufData := pTxBuf })
    | _ =>
      match _fetched : c.dslFramerSendComplete.dslFramerGetTxFrame.pTxFrame with
      | some _ => dslFramerTxGetPtr c.dslFramerSendComplete.dslFramerGetTxFrame true
      | none => (none, c.dslFramerSendComplete.dslFramerGetTxFrame)
termination_by c.dlistTxWaiting.length
decreasing_by
  rw [← c.dlistTxWaiting_sendComplete]
  exact length_getTxFrame _ _fetched

/-- `DslFramerTxDone`: the flag `kDslFramerEndOfFrame`. A length that leads past the end of the
data would leave a stray pointer behind. -/
def dslFramerTxDone (bufLen : Nat) : Option (TxFramer × Bool) :=
  if c.txBufData.length < bufLen then none
  else
    let c := { c with txBufData := c.txBufData.drop bufLen }
    if c.txBufData ≠ [] then some (c, false)
    else
      match c.pTxBuf with
      | some (pTxBuf :: rest) => some ({ c with pTxBuf := some rest, txBufData := pTxBuf }, false)
      | _ =>
        if c.pTxFrame.isSome then some (c.dslFramerSendComplete.dslFramerGetTxFrame, true)
        else some (c, false)

def dslFramerTxFlush : TxFramer :=
  { c.dslFramerTxInit with
    completed := c.completed ++ c.dlistTxWaiting.map .flushedWaiting ++
      c.pTxFrame.toList.map .flushedCurrent }

end TxFramer

/-! ## The transmitter with the framer behind it -/

/-- The transmitter, the length of the buffer that it has, and the framer. The field `source` of
the transmitter is not used here: the data comes from the framer. -/
structure TxLink where
  hdlc : TxCtrl
  txDataLen : Nat
  framer : TxFramer

variable {setup : UInt32} {frameState : FrameState}

namespace TxLink

def init : TxLink where
  hdlc := hdlcByteTxReset ⟨[], []⟩
  txDataLen := 0
  framer := ⟨[], none, none, [], [], [], []⟩

def sendFrame (link : TxLink) (buffers : List (List UInt8)) : TxLink :=
  { link with framer := link.framer.dslFramerSendFrame buffers }

def txFlush (link : TxLink) : TxLink :=
  { link with framer := link.framer.dslFramerTxFlush }

def reset (link : TxLink) : TxLink :=
  { link with hdlc := hdlcByteTxReset link.hdlc.source, framer := link.framer.dslFramerTxFlush }

def hdlcFramerTxGetData (link : TxLink) : TxLink :=
  match link.framer.dslFramerTxGetPtr false with
  | (some (buf, startNewFrame), framer) =>
    let hdlc := { link.hdlc with pTxData := buf }
    { hdlc := if startNewFrame then hdlcFramerTxFrameInit hdlc else hdlc
      txDataLen := buf.length
      framer := framer }
  | (none, framer) => { link with hdlc := hdlcFramerTxFrameInit link.hdlc, framer := framer }

def afterChunk (link : TxLink) (chunk : TxChunk) : TxLink :=
  { link with
    hdlc := link.hdlc.afterChunk chunk
    framer := { link.framer with
      taken := link.framer.taken ++
        link.hdlc.pTxData.take (link.hdlc.pTxData.length - chunk.rest.length) } }

structure Iter where
  frameState : FrameState
  link : TxLink
  out : List UInt8
  exit : Bool

def flagPass (setup : UInt32) (frameState : FrameState) (link : TxLink) (room : Nat) : Iter :=
  let link := if link.hdlc.pTxData = [] then link.hdlcFramerTxGetData else link
  if link.hdlc.pTxData = [] then
    if setup &&& kHdlcTxIdleStop = 0 then
      ⟨frameState, link, replicate room hdlcByteFlag, true⟩
    else ⟨.startFlag, link, [hdlcByteFlag], true⟩
  else ⟨.address, link, [hdlcByteFlag], false⟩

def dataPass (link : TxLink) (room : Nat) : Option Iter :=
  if link.hdlc.pTxData = [] then none
  else
    let chunk := hdlcByteTxData link.hdlc.txCrc link.hdlc.pTxData
      (min link.hdlc.pTxData.length room)
    let link := link.afterChunk chunk
    if link.hdlc.pTxData = [] then
      match link.framer.dslFramerTxDone link.txDataLen with
      | none => none
      | some (framer, true) => some ⟨.fcs1, { link with framer := framer }, chunk.out, false⟩
      | some (framer, false) =>
        some ⟨.data, { link with framer := framer }.hdlcFramerTxGetData, chunk.out, false⟩
    else some ⟨.data, link, chunk.out, false⟩

def hdlcByteTxIter (setup : UInt32) (frameState : FrameState) (link : TxLink) (room : Nat) :
    Option Iter :=
  match frameState, link.hdlc.txCharPending with
  | .data, none => link.dataPass room
  | .startFlag, none => some (flagPass setup .startFlag link room)
  | .endFlag, none => some (flagPass setup .endFlag link room)
  | _, _ =>
    (Hdlc.hdlcByteTxIter setup frameState link.hdlc room).map fun it =>
      ⟨it.frameState, { link with hdlc := it.ctrl }, it.out, it.exit⟩

theorem length_out_flagPass (setup : UInt32) (frameState : FrameState) (link : TxLink) {room : Nat}
    (some_room : room ≠ 0) : 0 < (flagPass setup frameState link room).out.length := by
  rw [flagPass]
  generalize (if link.hdlc.pTxData = [] then link.hdlcFramerTxGetData else link) = link
  split_ifs
  · simpa using Nat.pos_of_ne_zero some_room
  · simp
  · simp

theorem hdlcByteTxIter_progress {link : TxLink} {room : Nat} {it : Iter} (some_room : room ≠ 0)
    (pass : hdlcByteTxIter setup frameState link room = some it) :
    0 < it.out.length ∨ (frameState = .address ∧ it.frameState = .data) := by
  unfold hdlcByteTxIter at pass
  split at pass
  next =>
    rw [dataPass] at pass
    split at pass
    next => cases pass
    next started =>
      have written := (hdlcByteTxData_spec link.hdlc.txCrc link.hdlc.pTxData
        (min link.hdlc.pTxData.length room) (Nat.min_le_left _ _)).choose_spec.2.2.2
      have waiting : 0 < link.hdlc.pTxData.length := length_pos_iff.mpr started
      left
      simp only at pass
      split at pass
      · split at pass <;> cases pass <;> simp [written] <;> omega
      · cases pass
        simp [written]
        omega
  next =>
    cases pass
    exact .inl (length_out_flagPass _ _ _ some_room)
  next =>
    cases pass
    exact .inl (length_out_flagPass _ _ _ some_room)
  next =>
    obtain ⟨inner, inner_pass, rfl⟩ := map_eq_some_iff.mp pass
    exact Hdlc.hdlcByteTxIter_progress some_room inner_pass

def hdlcByteTxLoop (setup : UInt32) (frameState : FrameState) (link : TxLink) (room : Nat) :
    Option (FrameState × TxLink × List UInt8) :=
  if _some_room : room = 0 then some (frameState, link, [])
  else
    match _pass : hdlcByteTxIter setup frameState link room with
    | none => none
    | some it =>
      if it.exit then some (it.frameState, it.link, it.out)
      else
        match hdlcByteTxLoop setup it.frameState it.link (room - it.out.length) with
        | none => none
        | some (frameState, link, out) => some (frameState, link, it.out ++ out)
termination_by 2 * room + if frameState = .address then 1 else 0
decreasing_by
  rcases hdlcByteTxIter_progress _some_room _pass with written | ⟨rfl, next⟩
  · split <;> split <;> omega
  · simp [next]

def hdlcByteTx (setup : UInt32) (link : TxLink) (nBytes : Nat) : Option (TxLink × List UInt8) :=
  if nBytes = 0 then none
  else
    (hdlcByteTxLoop setup link.hdlc.txFrameState link nBytes).map fun (frameState, link, out) =>
      ({ link with hdlc := { link.hdlc with txFrameState := frameState } }, out)

end TxLink

/-! ## What the framer holds -/

def Completion.entry : Completion → Ledger.Entry
  | .sent frame _ => .inTurn frame.serial
  | .flushedWaiting frame => .behind frame.serial
  | .flushedCurrent frame => .first frame.serial

namespace TxFramer

def book (c : TxFramer) : Ledger.Book where
  handedIn := c.submitted.length
  pending := (c.pTxFrame.toList ++ c.dlistTxWaiting).map DslFrame.serial
  log := c.completed.map Completion.entry

def frames (c : TxFramer) : List DslFrame :=
  c.pTxFrame.toList ++ c.dlistTxWaiting ++ c.completed.map Completion.frame

structure Sound (c : TxFramer) : Prop where
  filled : ∀ frame ∈ c.dlistTxWaiting, frame.buffers ≠ []
  whole : ∀ frame taken, .sent frame taken ∈ c.completed → taken = frame.bytes
  known : ∀ frame ∈ c.frames, c.submitted[frame.serial]? = some frame

/-- What was taken of the current frame, `left` of its current buffer and the buffers behind make up
the frame. -/
def Holds (c : TxFramer) (left : List UInt8) : Prop :=
  match c.pTxFrame with
  | none => c.txBufData = [] ∧ c.pTxBuf = none
  | some frame => ∃ rest, c.pTxBuf = some rest ∧ frame.bytes = c.taken ++ (left ++ rest.flatten)

structure Moves (c c' : TxFramer) : Prop where
  steps : Ledger.Steps c.book c'.book
  submitted : c'.submitted = c.submitted

theorem Moves.trans {c c' c'' : TxFramer} (first : c.Moves c') (second : c'.Moves c'') :
    c.Moves c'' :=
  ⟨first.steps.trans second.steps, second.submitted.trans first.submitted⟩

variable {c : TxFramer}

theorem getTxFrame_eq (sound : c.Sound) :
    c.dslFramerGetTxFrame = match c.dlistTxWaiting with
      | [] => { c with dlistTxWaiting := [], pTxFrame := none, pTxBuf := none }
      | frame :: waiting =>
        { c with
          dlistTxWaiting := waiting
          pTxFrame := some frame
          pTxBuf := some frame.buffers.tail
          txBufData := frame.buffers.headD []
          taken := [] } := by
  rw [dslFramerGetTxFrame]
  cases waiting : c.dlistTxWaiting with
  | nil => rfl
  | cons frame rest =>
    have filled := sound.filled frame (by simp [waiting])
    rw [dropWhile_cons_of_neg (by simpa using filled)]

theorem getTxFrame_spec (sound : c.Sound) (taken : c.txBufData = []) :
    c.dslFramerGetTxFrame.Sound ∧
      c.dslFramerGetTxFrame.Holds c.dslFramerGetTxFrame.txBufData ∧
      c.dslFramerGetTxFrame.book =
        { c.book with pending := c.dlistTxWaiting.map DslFrame.serial } ∧
      c.dslFramerGetTxFrame.submitted = c.submitted := by
  rw [getTxFrame_eq sound]
  cases waiting : c.dlistTxWaiting with
  | nil =>
    refine ⟨⟨by simp, sound.whole, fun f mem => sound.known f ?_⟩, ⟨taken, rfl⟩, rfl, rfl⟩
    exact mem_append_right _ mem
  | cons frame rest =>
    have filled := sound.filled frame (by simp [waiting])
    refine ⟨⟨fun f mem => sound.filled f (by simp [waiting, mem]), sound.whole,
      fun f mem => sound.known f ?_⟩, ?_, rfl, rfl⟩
    · simp only [frames, waiting, toList_some, mem_append, mem_cons,
        not_mem_nil, or_false] at mem ⊢
      tauto
    obtain ⟨first, more, buffers⟩ := exists_cons_of_ne_nil filled
    refine ⟨more, by simp [buffers], ?_⟩
    simp [DslFrame.bytes, buffers]

theorem nextFrame_spec (sound : c.Sound) (holds : c.Holds []) (taken : c.txBufData = [])
    (last : ∀ buf rest, c.pTxBuf ≠ some (buf :: rest)) :
    c.dslFramerSendComplete.dslFramerGetTxFrame.Sound ∧
      c.dslFramerSendComplete.dslFramerGetTxFrame.Holds
        c.dslFramerSendComplete.dslFramerGetTxFrame.txBufData ∧
      c.Moves c.dslFramerSendComplete.dslFramerGetTxFrame := by
  cases current : c.pTxFrame with
  | none =>
    have same : c.dslFramerSendComplete = c := by
      rw [dslFramerSendComplete, current]
    rw [same]
    obtain ⟨sound', holds', book, submitted⟩ := getTxFrame_spec sound taken
    refine ⟨sound', holds', ?_, submitted⟩
    rw [book]
    simp only [TxFramer.book, current, toList_none, nil_append]
    exact .refl
  | some frame =>
    have logged : c.dslFramerSendComplete =
        { c with completed := c.completed ++ [.sent frame c.taken] } := by
      rw [dslFramerSendComplete, current]
    have all_taken : c.taken = frame.bytes := by
      rw [Holds, current] at holds
      obtain ⟨rest, buf, bytes⟩ := holds
      cases rest with
      | nil => simpa using bytes.symm
      | cons first rest => exact absurd buf (last first rest)
    have sound_logged : c.dslFramerSendComplete.Sound := by
      rw [logged]
      refine ⟨sound.filled, fun f t mem => ?_, fun f mem => sound.known f ?_⟩
      · obtain mem | mem := mem_append.mp mem
        · exact sound.whole f t mem
        · obtain ⟨rfl, rfl⟩ : f = frame ∧ t = c.taken := by simpa using mem
          exact all_taken
      · simp only [frames, current, map_append, map_singleton, Completion.frame,
          toList_some, mem_append, mem_singleton] at mem ⊢
        tauto
    obtain ⟨sound', holds', book, submitted⟩ :=
      getTxFrame_spec sound_logged (by rw [logged]; exact taken)
    refine ⟨sound', holds', ?_, by rw [submitted, logged]⟩
    rw [book, logged]
    refine .single ?_
    have step := Ledger.Step.giveBack (b := c.book)
      (show c.book.pending = frame.serial :: c.dlistTxWaiting.map DslFrame.serial by
        simp [TxFramer.book, current])
    simpa [TxFramer.book, Completion.entry] using step

theorem Holds.nextBuffer {first : List UInt8} {rest : List (List UInt8)} (holds : c.Holds [])
    (buf : c.pTxBuf = some (first :: rest)) :
    { c with pTxBuf := some rest, txBufData := first }.Holds first := by
  rw [Holds] at holds ⊢
  cases current : c.pTxFrame with
  | none =>
    rw [current] at holds
    exact absurd (holds.2.symm.trans buf) (by simp)
  | some frame =>
    rw [current] at holds
    obtain ⟨behind, buf', bytes⟩ := holds
    obtain rfl : behind = first :: rest := some.inj (buf'.symm.trans buf)
    exact ⟨rest, rfl, by simpa using bytes⟩

theorem getPtr_spec (sound : c.Sound) (holds : c.Holds c.txBufData) (startNewFrame : Bool) :
    (c.dslFramerTxGetPtr startNewFrame).2.Sound ∧
      (c.dslFramerTxGetPtr startNewFrame).2.Holds
        (c.dslFramerTxGetPtr startNewFrame).2.txBufData ∧
      c.Moves (c.dslFramerTxGetPtr startNewFrame).2 ∧
      ∀ buf flag, (c.dslFramerTxGetPtr startNewFrame).1 = some (buf, flag) →
        (c.dslFramerTxGetPtr startNewFrame).2.txBufData = buf := by
  fun_induction dslFramerTxGetPtr c startNewFrame with
  | case1 c flag more =>
    refine ⟨sound, holds, ⟨.refl, rfl⟩, fun buf _ found => ?_⟩
    exact (Prod.mk.inj (some.inj found)).1
  | case2 c flag empty first rest buf =>
    have drained : c.txBufData = [] := by simpa using empty
    refine ⟨⟨sound.filled, sound.whole, sound.known⟩, (drained ▸ holds).nextBuffer buf,
      ⟨.refl, rfl⟩,
      fun _ _ found => ?_⟩
    exact (Prod.mk.inj (some.inj found)).1
  | case3 c flag empty frame fetched last ih =>
    have drained : c.txBufData = [] := by simpa using empty
    obtain ⟨sound', holds', moves⟩ := nextFrame_spec sound (drained ▸ holds) drained last
    obtain ⟨sound'', holds'', moves', found⟩ := ih sound' holds'
    exact ⟨sound'', holds'', moves.trans moves', found⟩
  | case4 c flag empty none_left last =>
    have drained : c.txBufData = [] := by simpa using empty
    obtain ⟨sound', holds', moves⟩ := nextFrame_spec sound (drained ▸ holds) drained last
    exact ⟨sound', holds', moves, nofun⟩

theorem txDone_spec {bufLen : Nat} {c' : TxFramer} {endOfFrame : Bool} (sound : c.Sound)
    (holds : c.Holds []) (whole : c.pTxFrame ≠ none → bufLen = c.txBufData.length)
    (done : c.dslFramerTxDone bufLen = some (c', endOfFrame)) :
    c'.Sound ∧ c'.Holds c'.txBufData ∧ c.Moves c' := by
  rw [dslFramerTxDone] at done
  split at done
  next => cases done
  next fits =>
    have drained : c.txBufData.drop bufLen = [] := by
      cases current : c.pTxFrame with
      | none =>
        rw [Holds, current] at holds
        rw [holds.1, drop_nil]
      | some frame =>
        rw [whole (by simp [current]), drop_length]
    have holds' : { c with txBufData := c.txBufData.drop bufLen }.Holds [] := by
      rw [Holds] at holds ⊢
      cases current : c.pTxFrame with
      | none =>
        rw [current] at holds
        exact ⟨drained, holds.2⟩
      | some frame =>
        rw [current] at holds
        exact holds
    have sound' : { c with txBufData := c.txBufData.drop bufLen }.Sound :=
      ⟨sound.filled, sound.whole, sound.known⟩
    simp only [drained, ne_eq, not_true_eq_false, if_false] at done holds' sound'
    split at done
    next first rest buf =>
      obtain ⟨rfl, -⟩ := Prod.mk.inj (some.inj done)
      exact ⟨⟨sound.filled, sound.whole, sound.known⟩, holds.nextBuffer buf, ⟨.refl, rfl⟩⟩
    next buf last =>
      split at done
      next =>
        obtain ⟨rfl, -⟩ := Prod.mk.inj (some.inj done)
        obtain ⟨sound'', holds'', moves⟩ := nextFrame_spec sound' holds' rfl last
        exact ⟨sound'', holds'', moves.steps, moves.submitted⟩
      next =>
        obtain ⟨rfl, -⟩ := Prod.mk.inj (some.inj done)
        exact ⟨sound', holds', ⟨.refl, rfl⟩⟩

theorem sendFrame_spec {left : List UInt8} {buffers : List (List UInt8)} (sound : c.Sound)
    (holds : c.Holds left) (filled : buffers ≠ []) :
    (c.dslFramerSendFrame buffers).Sound ∧ (c.dslFramerSendFrame buffers).Holds left ∧
      Ledger.Steps c.book (c.dslFramerSendFrame buffers).book := by
  refine ⟨⟨?_, sound.whole, ?_⟩, holds, .single ?_⟩
  · intro frame mem
    obtain mem | mem := mem_append.mp mem
    · exact sound.filled frame mem
    · rw [mem_singleton.mp mem]
      exact filled
  · intro frame mem
    have older : frame ∈ c.frames ∨ frame = ⟨c.submitted.length, buffers⟩ := by
      simp only [frames, dslFramerSendFrame, mem_append, mem_singleton] at mem ⊢
      tauto
    rw [dslFramerSendFrame]
    obtain older | rfl := older
    · obtain ⟨inside, _⟩ := List.getElem?_eq_some_iff.mp (sound.known frame older)
      rw [getElem?_append_left inside]
      exact sound.known frame older
    · simp
  · have step := Ledger.Step.handIn c.book
    simpa [TxFramer.book, dslFramerSendFrame] using step

theorem txFlush_spec (sound : c.Sound) :
    c.dslFramerTxFlush.Sound ∧ (∀ left, c.dslFramerTxFlush.Holds left) ∧
      Ledger.Steps c.book c.dslFramerTxFlush.book ∧ c.dslFramerTxFlush.book.pending = [] := by
  refine ⟨⟨by simp [dslFramerTxFlush, dslFramerTxInit], ?_, ?_⟩, fun left => ⟨rfl, rfl⟩, ?_, rfl⟩
  · intro frame taken mem
    refine sound.whole frame taken ?_
    simpa [dslFramerTxFlush] using mem
  · intro frame mem
    refine sound.known frame ?_
    simp only [frames, dslFramerTxFlush, dslFramerTxInit, toList_none, nil_append,
      map_append, List.map_map, comp_def, Completion.frame, List.map_id',
      mem_append] at mem ⊢
    tauto
  · refine .single ?_
    have step := Ledger.Step.giveAllBack (b := c.book)
      (show c.book.pending = c.pTxFrame.toList.map DslFrame.serial ++
          c.dlistTxWaiting.map DslFrame.serial by
        simp [TxFramer.book])
    simpa [TxFramer.book, dslFramerTxFlush, dslFramerTxInit, comp_def,
      Completion.entry] using step

end TxFramer

/-! ## What the transmitter has of the frames -/

namespace TxLink

structure Custody (link : TxLink) : Prop where
  sound : link.framer.Sound
  holds : link.framer.Holds
    (if link.hdlc.pTxData = [] then link.framer.txBufData else link.hdlc.pTxData)
  whole : link.hdlc.pTxData ≠ [] → link.framer.pTxFrame ≠ none →
    link.txDataLen = link.framer.txBufData.length

variable {link : TxLink}

theorem Custody.of_between (sound : link.framer.Sound)
    (holds : link.framer.Holds link.framer.txBufData) (empty : link.hdlc.pTxData = []) :
    link.Custody :=
  ⟨sound, by rwa [if_pos empty], fun more => absurd empty more⟩

theorem getData_spec (custody : link.Custody) (empty : link.hdlc.pTxData = []) :
    link.hdlcFramerTxGetData.Custody ∧
      link.framer.Moves link.hdlcFramerTxGetData.framer := by
  have holds := custody.holds
  rw [if_pos empty] at holds
  obtain ⟨sound', holds', moves, found⟩ := TxFramer.getPtr_spec custody.sound holds false
  rw [hdlcFramerTxGetData]
  split
  next buf startNewFrame framer got =>
    rw [got] at sound' holds' moves found
    have current : framer.txBufData = buf := found buf startNewFrame rfl
    have handed : (if startNewFrame = true
        then hdlcFramerTxFrameInit { link.hdlc with pTxData := buf }
        else { link.hdlc with pTxData := buf }).pTxData = buf := by
      split <;> rfl
    refine ⟨⟨sound', ?_, fun _ _ => ?_⟩, moves⟩
    · rw [handed, current, ite_self]
      exact current ▸ holds'
    · rw [current]
  next framer got =>
    rw [got] at sound' holds' moves
    exact ⟨.of_between sound' holds' empty, moves⟩

theorem holds_afterChunk {sent : List UInt8} {chunk : TxChunk} (custody : link.Custody)
    (started : link.hdlc.pTxData ≠ []) (split : link.hdlc.pTxData = sent ++ chunk.rest) :
    (link.afterChunk chunk).framer.Sound ∧ (link.afterChunk chunk).framer.Holds chunk.rest := by
  have holds := custody.holds
  rw [if_neg started] at holds
  have took : link.hdlc.pTxData.take (link.hdlc.pTxData.length - chunk.rest.length) = sent := by
    simp [split]
  refine ⟨⟨custody.sound.filled, custody.sound.whole, custody.sound.known⟩, ?_⟩
  rw [TxFramer.Holds] at holds
  simp only [afterChunk, TxFramer.Holds, took]
  cases current : link.framer.pTxFrame with
  | none =>
    rw [current] at holds
    exact holds
  | some frame =>
    rw [current] at holds
    obtain ⟨rest, buf, bytes⟩ := holds
    exact ⟨rest, buf, by rw [bytes, split, append_assoc, append_assoc]⟩

theorem link_flagPass (setup : UInt32) (frameState : FrameState) (link : TxLink) (room : Nat) :
    (flagPass setup frameState link room).link =
      if link.hdlc.pTxData = [] then link.hdlcFramerTxGetData else link := by
  rw [flagPass]
  generalize (if link.hdlc.pTxData = [] then link.hdlcFramerTxGetData else link) = link'
  split_ifs <;> rfl

theorem flagPass_custody {room : Nat} (custody : link.Custody) :
    (flagPass setup frameState link room).link.Custody ∧
      link.framer.Moves (flagPass setup frameState link room).link.framer := by
  rw [link_flagPass]
  split
  next empty => exact getData_spec custody empty
  next => exact ⟨custody, ⟨.refl, rfl⟩⟩

theorem dataPass_custody {room : Nat} {it : Iter} (custody : link.Custody)
    (pass : link.dataPass room = some it) :
    it.link.Custody ∧ link.framer.Moves it.link.framer := by
  rw [dataPass] at pass
  split at pass
  next => cases pass
  next started =>
    obtain ⟨sent, taken, -, -, -⟩ := hdlcByteTxData_spec link.hdlc.txCrc link.hdlc.pTxData
      (min link.hdlc.pTxData.length room) (Nat.min_le_left _ _)
    generalize hdlcByteTxData link.hdlc.txCrc link.hdlc.pTxData
      (min link.hdlc.pTxData.length room) = chunk at taken pass
    obtain ⟨sound', holds'⟩ := holds_afterChunk custody started taken
    dsimp only at pass
    split at pass
    next ended =>
      have drained : chunk.rest = [] := ended
      rw [drained] at holds'
      split at pass
      next => cases pass
      next framer done =>
        obtain ⟨sound'', holds'', moves⟩ := TxFramer.txDone_spec sound' holds'
          (fun busy => custody.whole started busy) done
        obtain rfl := some.inj pass
        exact ⟨.of_between sound'' holds'' ended, moves.steps, moves.submitted⟩
      next framer done =>
        obtain ⟨sound'', holds'', moves⟩ := TxFramer.txDone_spec sound' holds'
          (fun busy => custody.whole started busy) done
        obtain rfl := some.inj pass
        have between : { link.afterChunk chunk with framer := framer }.Custody :=
          .of_between sound'' holds'' ended
        obtain ⟨custody', moves'⟩ := getData_spec between ended
        exact ⟨custody', (moves.trans moves').steps, (moves.trans moves').submitted⟩
    next more =>
      obtain rfl := some.inj pass
      refine ⟨⟨sound', ?_, fun _ busy => custody.whole started busy⟩, ⟨.refl, rfl⟩⟩
      rw [if_neg more]
      exact holds'

theorem pTxData_innerPass {ctrl : TxCtrl} {room : Nat} {it : TxIter}
    (not_data : frameState = .data → ctrl.txCharPending = none → False)
    (not_start : frameState = .startFlag → ctrl.txCharPending = none → False)
    (not_end : frameState = .endFlag → ctrl.txCharPending = none → False)
    (pass : Hdlc.hdlcByteTxIter setup frameState ctrl room = some it) :
    it.ctrl.pTxData = ctrl.pTxData := by
  have fcs_byte (ctrl : TxCtrl) (b : UInt8) : (sendFcsByte ctrl b).1.pTxData = ctrl.pTxData := by
    rw [sendFcsByte]
    split <;> rfl
  unfold Hdlc.hdlcByteTxIter at pass
  split at pass
  next => split at pass <;> (obtain rfl := some.inj pass; rfl)
  next => obtain rfl := some.inj pass; rfl
  next => obtain rfl := some.inj pass; rfl
  next =>
    obtain rfl := some.inj pass
    exact fcs_byte _ _
  next =>
    obtain rfl := some.inj pass
    exact fcs_byte _ _
  next none_pending => exact (not_data rfl none_pending).elim
  next state _ _ not_address not_control not_fcs1 not_fcs2 _ none_pending =>
    cases state with
    | startFlag => exact (not_start rfl none_pending).elim
    | address => exact (not_address rfl).elim
    | control => exact (not_control rfl).elim
    | data => exact (not_data rfl none_pending).elim
    | fcs1 => exact (not_fcs1 rfl).elim
    | fcs2 => exact (not_fcs2 rfl).elim
    | endFlag => exact (not_end rfl none_pending).elim

theorem iter_custody {room : Nat} {it : Iter} (custody : link.Custody)
    (pass : hdlcByteTxIter setup frameState link room = some it) :
    it.link.Custody ∧ link.framer.Moves it.link.framer := by
  unfold hdlcByteTxIter at pass
  split at pass
  next => exact dataPass_custody custody pass
  next =>
    obtain rfl := some.inj pass
    exact flagPass_custody custody
  next =>
    obtain rfl := some.inj pass
    exact flagPass_custody custody
  next not_data not_start not_end =>
    obtain ⟨inner, inner_pass, rfl⟩ := map_eq_some_iff.mp pass
    have kept := pTxData_innerPass not_data not_start not_end inner_pass
    refine ⟨⟨custody.sound, ?_, ?_⟩, ⟨.refl, rfl⟩⟩
    · dsimp only
      rw [kept]
      exact custody.holds
    · dsimp only
      rw [kept]
      exact custody.whole

theorem loop_custody (frameState : FrameState) (link : TxLink) (room : Nat)
    {frameState' : FrameState} {link' : TxLink} {out : List UInt8} (custody : link.Custody)
    (loop : hdlcByteTxLoop setup frameState link room = some (frameState', link', out)) :
    link'.Custody ∧ link.framer.Moves link'.framer := by
  fun_induction hdlcByteTxLoop setup frameState link room generalizing out with
  | case1 frameState link =>
    cases loop
    exact ⟨custody, ⟨.refl, rfl⟩⟩
  | case2 frameState link room some_room failed => cases loop
  | case3 frameState link room some_room it pass exit =>
    cases loop
    exact iter_custody custody pass
  | case4 frameState link room some_room it pass more failed ih => cases loop
  | case5 frameState link room some_room it pass more _ _ _ rest ih =>
    cases loop
    obtain ⟨custody', moves⟩ := iter_custody custody pass
    obtain ⟨custody'', moves'⟩ := ih custody' rest
    exact ⟨custody'', moves.trans moves'⟩

theorem hdlcByteTx_custody {nBytes : Nat} {link' : TxLink} {out : List UInt8}
    (custody : link.Custody) (pull : hdlcByteTx setup link nBytes = some (link', out)) :
    link'.Custody ∧ link.framer.Moves link'.framer := by
  rw [hdlcByteTx] at pull
  split at pull
  next => cases pull
  next =>
    obtain ⟨⟨frameState, ended, out'⟩, loop, stored⟩ := map_eq_some_iff.mp pull
    obtain ⟨rfl, rfl⟩ := Prod.mk.inj stored
    obtain ⟨custody', moves⟩ := loop_custody _ _ _ custody loop
    exact ⟨⟨custody'.sound, custody'.holds, custody'.whole⟩, moves⟩

end TxLink

end EchoLife.Dsl
