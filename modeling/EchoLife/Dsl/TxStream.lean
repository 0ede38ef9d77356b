import EchoLife.Dsl.TxFramer

/-!
# The stream of the framed transmitter

The transmitter of `Hdlc.Transmitter` takes its data from a source that is given in advance, here it
takes them from the framer. `Feeds` relates the two. As long as no buffer is empty they do the
same (`hdlcByteTxLoop_simulates`), so that what was proved about the stream there holds here, too,
and a pull never leaves its buffers (`hdlcByteTx_emits`).
-/

namespace EchoLife.Dsl

open List Option Hdlc TxFramer

/-! ## The frames of the framer as a source -/

def view (f : TxFrame) : Bool × List (List UInt8) :=
  (f.startNewFrame, f.first.1 :: f.rest.map Subtype.val)

def behind (waiting : List DslFrame) : List (Bool × List (List UInt8)) :=
  waiting.map fun frame => (false, frame.buffers)

def queued : List DslFrame → List (Bool × List (List UInt8))
  | [] => []
  | frame :: waiting => (true, frame.buffers) :: behind waiting

variable {rest : List (List UInt8)} {setup : UInt32} {frameState : FrameState}

namespace TxFramer

variable {c : TxFramer}

theorem getPtr_more (more : c.txBufData ≠ []) (startNewFrame : Bool) :
    c.dslFramerTxGetPtr startNewFrame = (some (c.txBufData, startNewFrame), c) := by
  rw [dslFramerTxGetPtr, if_pos more]

theorem getTxFrame_waiting {frame : DslFrame} {first : List UInt8} {waiting : List DslFrame}
    (queue : c.dlistTxWaiting = frame :: waiting) (buffers : frame.buffers = first :: rest) :
    c.dslFramerGetTxFrame =
      { c with
        dlistTxWaiting := waiting
        pTxFrame := some frame
        pTxBuf := some rest
        txBufData := first
        taken := [] } := by
  rw [dslFramerGetTxFrame, queue, dropWhile_cons_of_neg (by simp [buffers])]
  simp [buffers]

theorem getTxFrame_nil (queue : c.dlistTxWaiting = []) :
    c.dslFramerGetTxFrame = { c with dlistTxWaiting := [], pTxFrame := none, pTxBuf := none } := by
  rw [dslFramerGetTxFrame, queue]
  rfl

theorem sendComplete_idle (frame : c.pTxFrame = none) : c.dslFramerSendComplete = c := by
  rw [dslFramerSendComplete, frame]

theorem getPtr_waiting {frame : DslFrame} {first : List UInt8} {waiting : List DslFrame}
    (idle : c.pTxFrame = none) (buf : c.pTxBuf = none) (data : c.txBufData = [])
    (queue : c.dlistTxWaiting = frame :: waiting) (buffers : frame.buffers = first :: rest)
    (filled : first ≠ []) (startNewFrame : Bool) :
    c.dslFramerTxGetPtr startNewFrame = (some (first, true), c.dslFramerGetTxFrame) := by
  have fetched := getTxFrame_waiting queue buffers
  have more : c.dslFramerGetTxFrame.txBufData ≠ [] := by
    rw [fetched]
    exact filled
  rw [dslFramerTxGetPtr, if_neg (by simp [data]), buf, sendComplete_idle idle]
  dsimp only
  split
  next => rw [getPtr_more more, fetched]
  next none_left => simp [fetched] at none_left

theorem getPtr_nil (idle : c.pTxFrame = none) (buf : c.pTxBuf = none) (data : c.txBufData = [])
    (queue : c.dlistTxWaiting = []) (startNewFrame : Bool) :
    c.dslFramerTxGetPtr startNewFrame = (none, c.dslFramerGetTxFrame) := by
  rw [dslFramerTxGetPtr, if_neg (by simp [data]), buf, sendComplete_idle idle]
  dsimp only
  split
  next frame fetched => simp [getTxFrame_nil queue] at fetched
  next => rfl

theorem txDone_next {buf : List UInt8} (next : c.pTxBuf = some (buf :: rest)) :
    c.dslFramerTxDone c.txBufData.length =
      some ({ c with pTxBuf := some rest, txBufData := buf }, false) := by
  simp [dslFramerTxDone, next]

theorem txDone_last {frame : DslFrame} (current : c.pTxFrame = some frame)
    (last : c.pTxBuf = some []) :
    c.dslFramerTxDone c.txBufData.length =
      some ({ c with
        txBufData := []
        completed := c.completed ++ [Completion.sent frame c.taken] }.dslFramerGetTxFrame,
        true) := by
  simp [dslFramerTxDone, last, current, dslFramerSendComplete]

end TxFramer

namespace TxLink

def withSource (link : TxLink) (source : TxSource) : TxCtrl := { link.hdlc with source := source }

inductive Feeds (link : TxLink) (source : TxSource) : Prop
  | idle (frame : link.framer.pTxFrame = none) (buf : link.framer.pTxBuf = none)
      (data : link.framer.txBufData = []) (taken : link.hdlc.pTxData = [])
      (rest : source.rest = [])
      (frames : source.frames.map view = queued link.framer.dlistTxWaiting)
  | fetched {current : DslFrame} {more : List (List UInt8)}
      (frame : link.framer.pTxFrame = some current) (buf : link.framer.pTxBuf = some more)
      (taken : link.hdlc.pTxData = []) (rest : source.rest = [])
      (frames : source.frames.map view =
        (false, link.framer.txBufData :: more) :: behind link.framer.dlistTxWaiting)
  | busy {current : DslFrame} (frame : link.framer.pTxFrame = some current)
      (buf : link.framer.pTxBuf = some (source.rest.map Subtype.val))
      (taken : link.hdlc.pTxData ≠ []) (len : link.txDataLen = link.framer.txBufData.length)
      (frames : source.frames.map view = behind link.framer.dlistTxWaiting)

variable {link : TxLink} {source : TxSource}

theorem view_eq_cons {frames : List TxFrame} {flag : Bool} {buffers : List (List UInt8)}
    {rest : List (Bool × List (List UInt8))} (eq : frames.map view = (flag, buffers) :: rest) :
    ∃ f more, frames = f :: more ∧ f.startNewFrame = flag ∧
      buffers = f.first.1 :: f.rest.map Subtype.val ∧ more.map view = rest := by
  obtain ⟨f, more, rfl, head, tail⟩ := map_eq_cons_iff.mp eq
  obtain ⟨flag_eq, buffers_eq⟩ := Prod.mk.inj head
  exact ⟨f, more, rfl, flag_eq, buffers_eq.symm, tail⟩

theorem getData_of_some {buf : List UInt8} {startNewFrame : Bool} {framer : TxFramer}
    (got : link.framer.dslFramerTxGetPtr false = (some (buf, startNewFrame), framer)) :
    link.hdlcFramerTxGetData =
      { hdlc := if startNewFrame then hdlcFramerTxFrameInit { link.hdlc with pTxData := buf }
          else { link.hdlc with pTxData := buf }
        txDataLen := buf.length
        framer := framer } := by
  rw [hdlcFramerTxGetData, got]

theorem getData_simulates (feeds : link.Feeds source) (taken : link.hdlc.pTxData = []) :
    ∃ source', Hdlc.hdlcFramerTxGetData (link.withSource source) =
        link.hdlcFramerTxGetData.withSource source' ∧ link.hdlcFramerTxGetData.Feeds source' := by
  obtain ⟨rest, frames⟩ := source
  cases feeds with
  | idle frame buf data _ rest_nil queue =>
    obtain rfl : rest = [] := rest_nil
    cases waiting : link.framer.dlistTxWaiting with
    | nil =>
      rw [waiting, queued, map_eq_nil_iff] at queue
      obtain rfl : frames = [] := queue
      have got := getPtr_nil frame buf data waiting false
      have data' : link.hdlcFramerTxGetData = { link with
          hdlc := hdlcFramerTxFrameInit link.hdlc
          framer := link.framer.dslFramerGetTxFrame } := by
        rw [hdlcFramerTxGetData, got]
      rw [data', getTxFrame_nil waiting]
      exact ⟨⟨[], []⟩, rfl, .idle rfl rfl data taken rfl rfl⟩
    | cons current more =>
      rw [waiting] at queue
      obtain ⟨f, behind, rfl, flag, buffers, tail⟩ := view_eq_cons queue
      have got := getPtr_waiting frame buf data waiting buffers f.first.2 false
      rw [getData_of_some got, getTxFrame_waiting waiting buffers]
      refine ⟨⟨f.rest, behind⟩, ?_, .busy rfl rfl f.first.2 rfl tail⟩
      simp [Hdlc.hdlcFramerTxGetData, withSource, TxSource.getPtr, flag, hdlcFramerTxFrameInit]
  | @fetched current more frame buf _ rest_nil queue =>
    obtain rfl : rest = [] := rest_nil
    obtain ⟨f, waiting, rfl, flag, buffers, tail⟩ := view_eq_cons queue
    obtain ⟨first, rest⟩ := cons.inj buffers
    have got := getPtr_more (c := link.framer) (first ▸ f.first.2) false
    rw [getData_of_some got]
    refine ⟨⟨f.rest, waiting⟩, ?_, .busy frame (rest ▸ buf) (first ▸ f.first.2) rfl tail⟩
    simp [Hdlc.hdlcFramerTxGetData, withSource, TxSource.getPtr, flag, first]
  | busy _ _ more => exact absurd taken more

theorem feeds_nextFrame {framer : TxFramer} (data : framer.txBufData = [])
    (taken : link.hdlc.pTxData = []) {frames : List TxFrame}
    (queue : frames.map view = behind framer.dlistTxWaiting) :
    { link with framer := framer.dslFramerGetTxFrame }.Feeds ⟨[], frames⟩ := by
  cases waiting : framer.dlistTxWaiting with
  | nil =>
    rw [waiting] at queue
    rw [getTxFrame_nil waiting]
    exact .idle rfl rfl data taken rfl queue
  | cons frame more =>
    rw [waiting] at queue
    obtain ⟨f, behind, rfl, flag, buffers, tail⟩ := view_eq_cons queue
    rw [getTxFrame_waiting waiting buffers]
    exact .fetched rfl rfl taken rfl (buffers ▸ queue)

theorem dataIter_eq {setup : UInt32} {ctrl : TxCtrl} {room : Nat} {chunk : TxChunk}
    (started : ctrl.pTxData ≠ []) (pending : ctrl.txCharPending = none)
    (taken : hdlcByteTxData ctrl.txCrc ctrl.pTxData (min ctrl.pTxData.length room) = chunk) :
    Hdlc.hdlcByteTxIter setup .data ctrl room =
      if chunk.rest = [] then
        if ctrl.source.endOfFrame then some ⟨.fcs1, ctrl.afterChunk chunk, chunk.out, false⟩
        else some ⟨.data, Hdlc.hdlcFramerTxGetData (ctrl.afterChunk chunk), chunk.out, false⟩
      else some ⟨.data, ctrl.afterChunk chunk, chunk.out, false⟩ := by
  unfold Hdlc.hdlcByteTxIter
  rw [pending, ← taken]
  exact if_neg started

theorem dataPass_eq {room : Nat} {chunk : TxChunk} (started : link.hdlc.pTxData ≠ [])
    (taken : hdlcByteTxData link.hdlc.txCrc link.hdlc.pTxData
      (min link.hdlc.pTxData.length room) = chunk) :
    link.dataPass room =
      if chunk.rest = [] then
        match (link.afterChunk chunk).framer.dslFramerTxDone link.txDataLen with
        | none => none
        | some (framer, true) =>
          some ⟨.fcs1, { link.afterChunk chunk with framer := framer }, chunk.out, false⟩
        | some (framer, false) =>
          some ⟨.data, { link.afterChunk chunk with framer := framer }.hdlcFramerTxGetData,
            chunk.out, false⟩
      else some ⟨.data, link.afterChunk chunk, chunk.out, false⟩ := by
  rw [dataPass, if_neg started, ← taken]
  rfl

theorem dataPass_simulates {setup : UInt32} {room : Nat} (feeds : link.Feeds source)
    (started : link.hdlc.pTxData ≠ []) (pending : link.hdlc.txCharPending = none) :
    ∃ it source', link.dataPass room = some it ∧
      Hdlc.hdlcByteTxIter setup .data (link.withSource source) room =
        some ⟨it.frameState, it.link.withSource source', it.out, it.exit⟩ ∧
      it.link.Feeds source' := by
  cases feeds with
  | idle _ _ _ taken | fetched _ _ taken => exact absurd taken started
  | @busy current frame buf _ len queue =>
    obtain ⟨rest, frames⟩ := source
    obtain ⟨chunk, took⟩ : ∃ chunk, hdlcByteTxData link.hdlc.txCrc link.hdlc.pTxData
      (min link.hdlc.pTxData.length room) = chunk := ⟨_, rfl⟩
    rw [dataPass_eq started took, @dataIter_eq setup (link.withSource ⟨rest, frames⟩) room chunk
      started pending took]
    split
    next ended =>
      cases rest with
      | nil =>
        rw [len, show link.framer.txBufData = (link.afterChunk chunk).framer.txBufData from rfl,
          txDone_last (c := (link.afterChunk chunk).framer) frame buf]
        exact ⟨_, ⟨[], frames⟩, rfl, rfl, feeds_nextFrame rfl ended queue⟩
      | cons b more =>
        rw [len, show link.framer.txBufData = (link.afterChunk chunk).framer.txBufData from rfl,
          txDone_next (c := (link.afterChunk chunk).framer) buf]
        refine ⟨_, ⟨more, frames⟩, rfl, ?_, ?_⟩
        · rw [getData_of_some (getPtr_more b.2 false)]
          rfl
        · rw [getData_of_some (getPtr_more b.2 false)]
          exact .busy frame rfl b.2 rfl queue
    next more =>
      exact ⟨_, ⟨rest, frames⟩, rfl, rfl, .busy frame buf more len queue⟩

theorem flagPass_simulates {room : Nat} (between : frameState = .startFlag ∨ frameState = .endFlag)
    (feeds : link.Feeds source) (pending : link.hdlc.txCharPending = none) :
    ∃ source', Hdlc.hdlcByteTxIter setup frameState (link.withSource source) room =
        some ⟨(flagPass setup frameState link room).frameState,
          (flagPass setup frameState link room).link.withSource source',
          (flagPass setup frameState link room).out, (flagPass setup frameState link room).exit⟩ ∧
      (flagPass setup frameState link room).link.Feeds source' := by
  obtain ⟨source', same, feeds'⟩ : ∃ source',
      (if (link.withSource source).pTxData = [] then
        Hdlc.hdlcFramerTxGetData (link.withSource source) else link.withSource source) =
        (if link.hdlc.pTxData = [] then link.hdlcFramerTxGetData else link).withSource source' ∧
      (if link.hdlc.pTxData = [] then link.hdlcFramerTxGetData else link).Feeds source' := by
    by_cases taken : link.hdlc.pTxData = []
    · rw [if_pos taken, if_pos (show (link.withSource source).pTxData = [] from taken)]
      exact getData_simulates feeds taken
    · rw [if_neg taken, if_neg (show (link.withSource source).pTxData ≠ [] from taken)]
      exact ⟨source, rfl, feeds⟩
  refine ⟨source', ?_, ?_⟩
  · have iter : Hdlc.hdlcByteTxIter setup frameState (link.withSource source) room =
        let ctrl := if (link.withSource source).pTxData = [] then
          Hdlc.hdlcFramerTxGetData (link.withSource source) else link.withSource source
        if ctrl.pTxData = [] then
          if setup &&& kHdlcTxIdleStop = 0 then
            some ⟨frameState, ctrl, replicate room hdlcByteFlag, true⟩
          else some ⟨.startFlag, ctrl, [hdlcByteFlag], true⟩
        else some ⟨.address, ctrl, [hdlcByteFlag], false⟩ := by
      have pending' : (link.withSource source).txCharPending = none := pending
      obtain rfl | rfl := between <;> (unfold Hdlc.hdlcByteTxIter; rw [pending'])
    rw [iter, same, flagPass]
    generalize (if link.hdlc.pTxData = [] then link.hdlcFramerTxGetData else link) = link'
    dsimp only [withSource]
    split_ifs <;> rfl
  · have kept : (flagPass setup frameState link room).link =
        if link.hdlc.pTxData = [] then link.hdlcFramerTxGetData else link := link_flagPass ..
    rw [kept]
    exact feeds'

theorem innerPass_source {ctrl : TxCtrl} {room : Nat}
    (not_data : frameState = .data → ctrl.txCharPending = none → False)
    (not_start : frameState = .startFlag → ctrl.txCharPending = none → False)
    (not_end : frameState = .endFlag → ctrl.txCharPending = none → False) (source : TxSource) :
    Hdlc.hdlcByteTxIter setup frameState { ctrl with source := source } room =
      (Hdlc.hdlcByteTxIter setup frameState ctrl room).map fun it =>
        { it with ctrl := { it.ctrl with source := source } } := by
  obtain ⟨state, crc, pending, data, old⟩ := ctrl
  have fcs_byte (crc : UInt32) (b : UInt8) :
      sendFcsByte ⟨state, crc, pending, data, source⟩ b =
        ({ (sendFcsByte ⟨state, crc, pending, data, old⟩ b).1 with source := source },
          (sendFcsByte ⟨state, crc, pending, data, old⟩ b).2) := by
    rw [sendFcsByte, sendFcsByte]
    split_ifs <;> rfl
  cases pending with
  | some b =>
    cases frameState with
    | address =>
      rw [Hdlc.hdlcByteTxIter, Hdlc.hdlcByteTxIter]
      split_ifs <;> rfl
    | startFlag | control | data | fcs1 | fcs2 | endFlag => rfl
  | none =>
    cases frameState with
    | startFlag => exact (not_start rfl rfl).elim
    | data => exact (not_data rfl rfl).elim
    | endFlag => exact (not_end rfl rfl).elim
    | address =>
      rw [Hdlc.hdlcByteTxIter, Hdlc.hdlcByteTxIter]
      split_ifs <;> rfl
    | control => rfl
    | fcs1 | fcs2 =>
      simp only [Hdlc.hdlcByteTxIter, fcs_byte, map_some]

theorem Feeds.of_same {link' : TxLink} (feeds : link.Feeds source)
    (framer : link'.framer = link.framer) (data : link'.hdlc.pTxData = link.hdlc.pTxData)
    (len : link'.txDataLen = link.txDataLen) : link'.Feeds source := by
  cases feeds with
  | idle frame buf empty taken rest frames =>
    refine .idle ?_ ?_ ?_ ?_ rest ?_ <;> simp only [framer, data] <;> assumption
  | fetched frame buf taken rest frames =>
    refine .fetched (framer ▸ frame) (framer ▸ buf) (data ▸ taken) rest (framer ▸ frames)
  | busy frame buf more length frames =>
    exact .busy (framer ▸ frame) (framer ▸ buf) (data ▸ more) (by rw [len, framer, length])
      (framer ▸ frames)

theorem iter_simulates {room : Nat} (feeds : link.Feeds source) {it : TxIter}
    (pass : Hdlc.hdlcByteTxIter setup frameState (link.withSource source) room = some it) :
    ∃ it' source', hdlcByteTxIter setup frameState link room = some it' ∧
      it = ⟨it'.frameState, it'.link.withSource source', it'.out, it'.exit⟩ ∧
      it'.link.Feeds source' := by
  unfold hdlcByteTxIter
  split
  next pending =>
    have started : link.hdlc.pTxData ≠ [] := by
      intro empty
      have pending' : (link.withSource source).txCharPending = none := pending
      unfold Hdlc.hdlcByteTxIter at pass
      rw [pending'] at pass
      simp [withSource, empty] at pass
    obtain ⟨it', source', here, there, feeds'⟩ :=
      @dataPass_simulates link source setup room feeds started pending
    exact ⟨it', source', here, some.inj (pass.symm.trans there), feeds'⟩
  next pending =>
    obtain ⟨source', there, feeds'⟩ := flagPass_simulates (.inl rfl) feeds pending
    exact ⟨_, source', rfl, some.inj (pass.symm.trans there), feeds'⟩
  next pending =>
    obtain ⟨source', there, feeds'⟩ := flagPass_simulates (.inr rfl) feeds pending
    exact ⟨_, source', rfl, some.inj (pass.symm.trans there), feeds'⟩
  next not_data not_start not_end =>
    rw [withSource, innerPass_source not_data not_start not_end] at pass
    obtain ⟨inner, inner_pass, rfl⟩ := map_eq_some_iff.mp pass
    have kept := pTxData_innerPass not_data not_start not_end inner_pass
    refine ⟨_, source, by rw [inner_pass, map_some], rfl, feeds.of_same rfl kept rfl⟩

theorem hdlcByteTxLoop_simulates {frameState' : FrameState} {ctrl ctrl' : TxCtrl} {room : Nat}
    {out : List UInt8} (same : ctrl = link.withSource source) (feeds : link.Feeds source)
    (loop : Hdlc.hdlcByteTxLoop setup frameState ctrl room = some (frameState', ctrl', out)) :
    ∃ link' source', hdlcByteTxLoop setup frameState link room = some (frameState', link', out) ∧
      ctrl' = link'.withSource source' ∧ link'.Feeds source' := by
  fun_induction Hdlc.hdlcByteTxLoop setup frameState ctrl room generalizing link source out with
  | case1 frameState ctrl =>
    cases loop
    exact ⟨link, source, by rw [hdlcByteTxLoop, dif_pos rfl], same, feeds⟩
  | case2 frameState ctrl room some_room failed => cases loop
  | case3 frameState ctrl room some_room it pass exit =>
    cases loop
    obtain ⟨it', source', here, rfl, feeds'⟩ := iter_simulates feeds (same ▸ pass)
    refine ⟨it'.link, source', ?_, rfl, feeds'⟩
    rw [hdlcByteTxLoop, dif_neg some_room]
    split
    next failed => cases here.symm.trans failed
    next it'' again =>
      cases here.symm.trans again
      exact if_pos exit
  | case4 frameState ctrl room some_room it pass more failed ih => cases loop
  | case5 frameState ctrl room some_room it pass more _ _ _ rest ih =>
    cases loop
    obtain ⟨it', source', here, rfl, feeds'⟩ := iter_simulates feeds (same ▸ pass)
    obtain ⟨link', source'', there, same', feeds''⟩ := ih rfl feeds' rest
    refine ⟨link', source'', ?_, same', feeds''⟩
    rw [hdlcByteTxLoop, dif_neg some_room]
    split
    next failed => cases here.symm.trans failed
    next it'' again =>
      cases here.symm.trans again
      rw [if_neg more, there]

def toSend (link : TxLink) (source : TxSource) : List UInt8 :=
  Hdlc.toSend link.hdlc.txFrameState (link.withSource source)

def Ready (link : TxLink) (source : TxSource) : Prop :=
  link.Feeds source ∧ Hdlc.Ready link.hdlc.txFrameState (link.withSource source)

theorem hdlcByteTx_emits (plain : setup &&& kHdlcSpecialAddrCtrl = 0) {nBytes : Nat}
    (some_bytes : 0 < nBytes) (ready : link.Ready source) :
    ∃ link' source' out, hdlcByteTx setup link nBytes = some (link', out) ∧
      link'.Ready source' ∧ Emits (link.toSend source) out (link'.toSend source') nBytes := by
  obtain ⟨feeds, ready⟩ := ready
  obtain ⟨state, ctrl, out, loop, ready', emits⟩ := hdlcByteTxLoop_spec plain
    link.hdlc.txFrameState (link.withSource source) nBytes ready
  obtain ⟨link', source', here, rfl, feeds'⟩ := hdlcByteTxLoop_simulates rfl feeds loop
  refine ⟨{ link' with hdlc := { link'.hdlc with txFrameState := state } }, source', out, ?_,
    ⟨feeds'.of_same rfl rfl rfl, ready_store ready'⟩, ?_⟩
  · rw [hdlcByteTx, if_neg some_bytes.ne', here]
    rfl
  · rw [← toSend_store state state] at emits
    exact emits

theorem ready_init : init.Ready ⟨[], []⟩ :=
  ⟨.idle rfl rfl rfl rfl rfl rfl, rfl, rfl⟩

theorem ready_reset (link : TxLink) : link.reset.Ready ⟨[], []⟩ :=
  ⟨.idle rfl rfl rfl rfl rfl rfl, rfl, rfl⟩

def hdlcFrame (payload : List UInt8) : List UInt8 :=
  hdlcByteFlag :: byteCode.stuff (payload ++ fcs payload)

theorem encode_append (frames : List TxFrame) (f : TxFrame) :
    encode (frames ++ [f]) = encode frames ++ hdlcFrame f.payload := by
  simp [encode, hdlcFrame, TxFrame.body]
  rfl

theorem toSend_append (state : FrameState) (ctrl : TxCtrl) (f : TxFrame) :
    Hdlc.toSend state { ctrl with source := ⟨ctrl.source.rest, ctrl.source.frames ++ [f]⟩ } =
      Hdlc.toSend state ctrl ++ hdlcFrame f.payload := by
  cases state <;> simp [Hdlc.toSend, TxCtrl.left, encode_append]

theorem Feeds.sendFrame (feeds : link.Feeds source) (first : Buffer) (rest : List Buffer) :
    ∃ flag, (link.sendFrame (first.1 :: rest.map Subtype.val)).Feeds
      ⟨source.rest, source.frames ++ [⟨flag, first, rest⟩]⟩ := by
  cases feeds with
  | idle frame buf data taken rest frames =>
    refine ⟨link.framer.dlistTxWaiting.isEmpty, .idle frame buf data taken rest ?_⟩
    rw [map_append, frames, TxLink.sendFrame, dslFramerSendFrame]
    cases link.framer.dlistTxWaiting with
    | nil => rfl
    | cons head waiting => simp [queued, behind, view]
  | fetched frame buf taken rest frames =>
    refine ⟨false, .fetched frame buf taken rest ?_⟩
    rw [map_append, frames]
    simp [TxLink.sendFrame, dslFramerSendFrame, behind, view]
  | busy frame buf taken len frames =>
    refine ⟨false, .busy frame buf taken len ?_⟩
    rw [map_append, frames]
    simp [TxLink.sendFrame, dslFramerSendFrame, behind, view]

theorem ready_sendFrame {buffers : List (List UInt8)} (filled : buffers ≠ [])
    (bytes : ∀ buf ∈ buffers, buf ≠ []) (ready : link.Ready source) :
    ∃ source', (link.sendFrame buffers).Ready source' ∧
      (link.sendFrame buffers).toSend source' =
        link.toSend source ++ hdlcFrame buffers.flatten := by
  lift buffers to List Buffer using bytes
  cases buffers with
  | nil => exact absurd rfl filled
  | cons first rest =>
    obtain ⟨flag, feeds⟩ := ready.1.sendFrame first rest
    refine ⟨_, ⟨feeds, ?_⟩, ?_⟩
    · have before := ready.2
      rw [TxLink.sendFrame]
      cases state : link.hdlc.txFrameState <;> (rw [state] at before; exact before)
    · exact toSend_append link.hdlc.txFrameState (link.withSource source) ⟨flag, first, rest⟩

end TxLink

end EchoLife.Dsl
