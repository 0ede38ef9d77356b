import EchoLife.Hdlc.Framer

/-!
# HDLC transmitter

`hdlcByteTx` fills a block of any size with the next bytes of the frames that wait. `toSend` is
what a transmitter in the middle of its work has still to send, and every iteration takes bytes from
the front of it (`hdlcByteTxIter_spec`), so that whatever the block sizes are the stream is the
encoding of the frames, followed by idle flags (`txCalls_spec`).
-/

namespace EchoLife.Hdlc

open List FlagFraming TableCrc

/-! ## Frames that wait -/

abbrev Buffer : Type := { b : List UInt8 // b ≠ [] }

/-- A frame reaches the transmitter buffer by buffer. `startNewFrame` is the flag
`kDslFramerStartNewFrame` of the first one. -/
structure TxFrame where
  startNewFrame : Bool
  first : Buffer
  rest : List Buffer

def TxFrame.payload (f : TxFrame) : List UInt8 :=
  f.first.1 ++ f.rest.flatMap Subtype.val

def TxFrame.body (f : TxFrame) : List UInt8 :=
  f.payload ++ fcs f.payload

structure TxSource where
  rest : List Buffer
  frames : List TxFrame

def TxSource.getPtr : TxSource → Option (Buffer × Bool × TxSource)
  | ⟨b :: rest, frames⟩ => some (b, false, ⟨rest, frames⟩)
  | ⟨[], f :: frames⟩ => some (f.first, f.startNewFrame, ⟨f.rest, frames⟩)
  | ⟨[], []⟩ => none

def TxSource.endOfFrame (source : TxSource) : Bool :=
  source.rest.isEmpty

def encode (frames : List TxFrame) : List UInt8 :=
  (frames.map TxFrame.body).flatMap fun b => byteCode.flag :: byteCode.stuff b

/-! ## The transmitter -/

def hdlcAddr : UInt8 := 0xFF

def hdlcCtrl : UInt8 := 0x3

/-- Transmitting side of a framer; `pTxData` holds the bytes from the read pointer to the end of
the buffer. -/
structure TxCtrl where
  txFrameState : FrameState
  txCrc : UInt32
  txCharPending : Option UInt8
  pTxData : List UInt8
  source : TxSource

def hdlcFramerTxFrameInit (ctrl : TxCtrl) : TxCtrl :=
  { ctrl with
    txFrameState := .startFlag
    txCrc := hdlc16CrcInit
    txCharPending := none }

def hdlcByteTxReset (source : TxSource) : TxCtrl where
  txFrameState := .startFlag
  txCrc := hdlc16CrcInit
  txCharPending := none
  pTxData := []
  source := source

def hdlcFramerTxGetData (ctrl : TxCtrl) : TxCtrl :=
  match ctrl.source.getPtr with
  | some (b, startNewFrame, source) =>
    let ctrl := { ctrl with pTxData := b.1, source := source }
    if startNewFrame then hdlcFramerTxFrameInit ctrl else ctrl
  | none => hdlcFramerTxFrameInit ctrl

/-- What `HdlcByteTxData` leaves: the bytes written, the checksum, the second byte of an escape
sequence that did not fit and the rest of the data. -/
structure TxChunk where
  out : List UInt8
  crc : UInt32
  pending : Option UInt8
  rest : List UInt8
  deriving DecidableEq, Repr

def hdlcByteTxData : UInt32 → List UInt8 → Nat → TxChunk
  | crc, data, 0 => ⟨[], crc, none, data⟩
  | crc, [], _ + 1 => ⟨[], crc, none, []⟩
  | crc, b :: data, n + 1 =>
    let crc := hdlc16UpdateCrc crc b
    if b = hdlcByteFlag ∨ b = hdlcByteEsc then
      match n with
      | 0 => ⟨[hdlcByteEsc], crc, some (b ^^^ 0x20), data⟩
      | n + 1 =>
        let chunk := hdlcByteTxData crc data n
        { chunk with out := hdlcByteEsc :: (b ^^^ 0x20) :: chunk.out }
    else
      let chunk := hdlcByteTxData crc data n
      { chunk with out := b :: chunk.out }

def TxCtrl.afterChunk (ctrl : TxCtrl) (chunk : TxChunk) : TxCtrl :=
  { ctrl with
    txCrc := chunk.crc
    txCharPending := chunk.pending
    pTxData := chunk.rest }

def sendFcsByte (ctrl : TxCtrl) (b : UInt8) : TxCtrl × UInt8 :=
  if b = hdlcByteFlag ∨ b = hdlcByteEsc then
    ({ ctrl with txCharPending := some (b ^^^ 0x20) }, hdlcByteEsc)
  else (ctrl, b)

/-- What one pass of the loop of `HdlcByteTx` gives: the state, the bytes written and whether the
block is closed. -/
structure TxIter where
  frameState : FrameState
  ctrl : TxCtrl
  out : List UInt8
  exit : Bool

/-- One pass of the loop of `HdlcByteTx` with `room` bytes left in the block. `none` stands for
a pass that would read in front of an empty buffer. -/
def hdlcByteTxIter (setup : UInt32) (frameState : FrameState) (ctrl : TxCtrl) (room : Nat) :
    Option TxIter :=
  match frameState, ctrl.txCharPending with
  | .address, _ =>
    if setup &&& kHdlcSpecialAddrCtrl = 0 then
      some ⟨.data, { ctrl with txCrc := hdlc16CrcInit }, [], false⟩
    else
      some ⟨.control, { ctrl with txCrc := hdlc16UpdateCrc hdlc16CrcInit hdlcAddr },
        [hdlcAddr], false⟩
  | .control, _ =>
    some ⟨.data, { ctrl with txCrc := hdlc16UpdateCrc ctrl.txCrc hdlcCtrl }, [hdlcCtrl], false⟩
  | _, some pending =>
    some ⟨frameState, { ctrl with txCharPending := none }, [pending], false⟩
  | .fcs1, none =>
    let ctrl := { ctrl with txCrc := hdlc16CrcFinal ctrl.txCrc }
    let (ctrl, b) := sendFcsByte ctrl (ctrl.txCrc &&& 0xFF).toUInt8
    some ⟨.fcs2, ctrl, [b], false⟩
  | .fcs2, none =>
    let (ctrl, b) := sendFcsByte ctrl (ctrl.txCrc >>> 8).toUInt8
    some ⟨.endFlag, ctrl, [b], false⟩
  | .data, none =>
    if ctrl.pTxData = [] then none
    else
      let chunk := hdlcByteTxData ctrl.txCrc ctrl.pTxData (min ctrl.pTxData.length room)
      let ctrl := ctrl.afterChunk chunk
      if ctrl.pTxData = [] then
        if ctrl.source.endOfFrame then some ⟨.fcs1, ctrl, chunk.out, false⟩
        else some ⟨.data, hdlcFramerTxGetData ctrl, chunk.out, false⟩
      else some ⟨.data, ctrl, chunk.out, false⟩
  | _, none =>
    let ctrl := if ctrl.pTxData = [] then hdlcFramerTxGetData ctrl else ctrl
    if ctrl.pTxData = [] then
      if setup &&& kHdlcTxIdleStop = 0 then
        some ⟨frameState, ctrl, replicate room hdlcByteFlag, true⟩
      else some ⟨.startFlag, ctrl, [hdlcByteFlag], true⟩
    else some ⟨.address, ctrl, [hdlcByteFlag], false⟩

/-! ## Bytes of a buffer -/

/-- **What `hdlcByteTxData` does to the data it takes**: it fills the block, and what it wrote with
the pending byte is the escaped form of what it took. -/
theorem hdlcByteTxData_spec (crc : UInt32) (data : List UInt8) (n : Nat) (fits : n ≤ data.length) :
    ∃ sent, data = sent ++ (hdlcByteTxData crc data n).rest ∧
      (hdlcByteTxData crc data n).crc = sent.foldl hdlc16UpdateCrc crc ∧
      (hdlcByteTxData crc data n).out ++ (hdlcByteTxData crc data n).pending.toList =
        byteCode.stuff sent ∧
      (hdlcByteTxData crc data n).out.length = n := by
  fun_induction hdlcByteTxData crc data n with
  | case1 crc data => exact ⟨[], by simp⟩
  | case2 crc n => simp at fits
  | case3 crc b data crc' reserved =>
    refine ⟨[b], by simp, by simp [crc'], ?_, by simp⟩
    simp [Code.escape, byteCode, reserved]
  | case4 crc b data crc' reserved n chunk ih =>
    obtain ⟨sent, split, register, stuffed, filled⟩ := ih (by simp at fits; omega)
    refine ⟨b :: sent, by rw [cons_append, ← split], register, ?_, by simp [chunk, filled]⟩
    simp [chunk, Code.escape, byteCode, reserved] at stuffed ⊢
    exact stuffed
  | case5 crc b data n crc' plain chunk ih =>
    obtain ⟨sent, split, register, stuffed, filled⟩ := ih (by simp at fits; omega)
    refine ⟨b :: sent, by rw [cons_append, ← split], register, ?_, by simp [chunk, filled]⟩
    simp [chunk, Code.escape, byteCode, plain] at stuffed ⊢
    exact stuffed

/-! ## The loop -/

variable {setup : UInt32} {frameState : FrameState}

theorem hdlcByteTxIter_progress {ctrl : TxCtrl} {room : Nat} {it : TxIter} (some_room : room ≠ 0)
    (pass : hdlcByteTxIter setup frameState ctrl room = some it) :
    0 < it.out.length ∨ (frameState = .address ∧ it.frameState = .data) := by
  unfold hdlcByteTxIter at pass
  split at pass
  all_goals try (simp only [Option.some.injEq] at pass; subst pass; simp)
  · split at pass <;> (simp only [Option.some.injEq] at pass; subst pass; simp)
  · split at pass
    · simp at pass
    case _ started =>
      have written := (hdlcByteTxData_spec ctrl.txCrc ctrl.pTxData
        (min ctrl.pTxData.length room) (Nat.min_le_left _ _)).choose_spec.2.2.2
      have waiting : 0 < ctrl.pTxData.length := length_pos_iff.mpr started
      left
      simp only at pass
      split at pass
      · split at pass <;> (simp only [Option.some.injEq] at pass; subst pass; simp [written]; omega)
      · simp only [Option.some.injEq] at pass; subst pass; simp [written]; omega
  · grind

def hdlcByteTxLoop (setup : UInt32) (frameState : FrameState) (ctrl : TxCtrl) (room : Nat) :
    Option (FrameState × TxCtrl × List UInt8) :=
  if _some_room : room = 0 then some (frameState, ctrl, [])
  else
    match _pass : hdlcByteTxIter setup frameState ctrl room with
    | none => none
    | some it =>
      if it.exit then some (it.frameState, it.ctrl, it.out)
      else
        match hdlcByteTxLoop setup it.frameState it.ctrl (room - it.out.length) with
        | none => none
        | some (frameState, ctrl, out) => some (frameState, ctrl, it.out ++ out)
termination_by 2 * room + if frameState = .address then 1 else 0
decreasing_by
  rcases hdlcByteTxIter_progress _some_room _pass with written | ⟨rfl, next⟩
  · split <;> split <;> omega
  · simp [next]

def hdlcByteTx (setup : UInt32) (ctrl : TxCtrl) (nBytes : Nat) : Option (TxCtrl × List UInt8) :=
  if nBytes = 0 then none
  else
    (hdlcByteTxLoop setup ctrl.txFrameState ctrl nBytes).map fun (frameState, ctrl, out) =>
      ({ ctrl with txFrameState := frameState }, out)

def txCalls (setup : UInt32) (ctrl : TxCtrl) : List Nat → Option (TxCtrl × List UInt8)
  | [] => some (ctrl, [])
  | n :: sizes => do
    let (ctrl, out) ← hdlcByteTx setup ctrl n
    let (ctrl, more) ← txCalls setup ctrl sizes
    return (ctrl, out ++ more)

/-! ## What is still to be sent -/

def TxCtrl.left (ctrl : TxCtrl) : List UInt8 :=
  ctrl.pTxData ++ ctrl.source.rest.flatMap Subtype.val

def toSend : FrameState → TxCtrl → List UInt8
  | .address, ctrl => byteCode.stuff (ctrl.left ++ fcs ctrl.left) ++ encode ctrl.source.frames
  | .data, ctrl =>
    ctrl.txCharPending.toList ++
      byteCode.stuff (ctrl.left ++
        lsbBytes (hdlc16CrcFinal (ctrl.left.foldl hdlc16UpdateCrc ctrl.txCrc))) ++
      encode ctrl.source.frames
  | .fcs1, ctrl =>
    ctrl.txCharPending.toList ++ byteCode.stuff (lsbBytes (hdlc16CrcFinal ctrl.txCrc)) ++
      encode ctrl.source.frames
  | .fcs2, ctrl =>
    ctrl.txCharPending.toList ++ byteCode.stuff [(ctrl.txCrc >>> 8).toUInt8] ++
      encode ctrl.source.frames
  | _, ctrl => ctrl.txCharPending.toList ++ encode ctrl.source.frames

def Ready : FrameState → TxCtrl → Prop
  | .address, ctrl => ctrl.pTxData ≠ [] ∧ ctrl.txCharPending = none
  | .data, ctrl => ctrl.pTxData ≠ []
  | .control, _ => False
  | _, ctrl => ctrl.pTxData = [] ∧ ctrl.source.rest = []

theorem ready_store {state stored : FrameState} {ctrl : TxCtrl} (ready : Ready state ctrl) :
    Ready state { ctrl with txFrameState := stored } := by
  cases state <;> exact ready

theorem toSend_store (state stored : FrameState) (ctrl : TxCtrl) :
    toSend state { ctrl with txFrameState := stored } = toSend state ctrl := by
  cases state <;> rfl

@[simp]
theorem encode_nil : encode [] = [] := rfl

theorem encode_cons (f : TxFrame) (frames : List TxFrame) :
    encode (f :: frames) = byteCode.flag :: byteCode.stuff f.body ++ encode frames := rfl

structure Passes (frameState : FrameState) (ctrl : TxCtrl) (room : Nat) (it : TxIter) : Prop where
  ready : Ready it.frameState it.ctrl
  fits : it.out.length ≤ room
  sent : it.exit = false → toSend frameState ctrl = it.out ++ toSend it.frameState it.ctrl
  idle : it.exit = true → toSend frameState ctrl = [] ∧ toSend it.frameState it.ctrl = [] ∧
    ∃ flags, it.out = replicate (flags + 1) hdlcByteFlag

section Pass

variable {setup : UInt32} {ctrl : TxCtrl} {room : Nat}

open TxCtrl

theorem pass_pending {b : UInt8} (some_room : 0 < room) (pending : ctrl.txCharPending = some b)
    (ready : Ready frameState ctrl) :
    ∃ it, hdlcByteTxIter setup frameState ctrl room = some it ∧
      Passes frameState ctrl room it := by
  refine ⟨⟨frameState, { ctrl with txCharPending := none }, [b], false⟩, ?_, ?_⟩
  · cases frameState with
    | address => simp [ready.2] at pending
    | control => exact ready.elim
    | startFlag | data | fcs1 | fcs2 | endFlag => simp [hdlcByteTxIter, pending]
  · refine ⟨?_, some_room, fun _ => ?_, by simp⟩
    · cases frameState with
      | address => simp [ready.2] at pending
      | control => exact ready.elim
      | startFlag | data | fcs1 | fcs2 | endFlag => exact ready
    · cases frameState with
      | address => simp [ready.2] at pending
      | control => exact ready.elim
      | startFlag | data | fcs1 | fcs2 | endFlag => simp [toSend, pending, left]

theorem sendFcsByte_spec (pending : ctrl.txCharPending = none) (b : UInt8) :
    ∃ first rest, sendFcsByte ctrl b = ({ ctrl with txCharPending := rest }, first) ∧
      byteCode.escape b = first :: rest.toList := by
  by_cases reserved : b = hdlcByteFlag ∨ b = hdlcByteEsc
  · exact ⟨hdlcByteEsc, some (b ^^^ 0x20), by simp [sendFcsByte, Code.escape, byteCode, reserved]⟩
  · refine ⟨b, none, ?_⟩
    simp [sendFcsByte, Code.escape, byteCode, reserved, ← pending]

theorem pass_fcs1 (some_room : 0 < room) (pending : ctrl.txCharPending = none)
    (ready : Ready .fcs1 ctrl) :
    ∃ it, hdlcByteTxIter setup .fcs1 ctrl room = some it ∧ Passes .fcs1 ctrl room it := by
  obtain ⟨state, crc, _, data, source⟩ := ctrl
  subst pending
  obtain ⟨first, rest, byte, escaped⟩ := sendFcsByte_spec
    (show (mk state (hdlc16CrcFinal crc) none data source).txCharPending = none from rfl)
    (hdlc16CrcFinal crc &&& 0xFF).toUInt8
  refine ⟨⟨.fcs2, ⟨state, hdlc16CrcFinal crc, rest, data, source⟩, [first], false⟩, ?_,
    ready, some_room, fun _ => ?_, nofun⟩
  · simp only [hdlcByteTxIter, byte]
  · simp only [toSend, lsbBytes, Code.stuff_cons, escaped, Option.toList_none, nil_append,
      cons_append, append_assoc]

theorem pass_fcs2 (some_room : 0 < room) (pending : ctrl.txCharPending = none)
    (ready : Ready .fcs2 ctrl) :
    ∃ it, hdlcByteTxIter setup .fcs2 ctrl room = some it ∧ Passes .fcs2 ctrl room it := by
  obtain ⟨first, rest, byte, escaped⟩ := sendFcsByte_spec pending (ctrl.txCrc >>> 8).toUInt8
  refine ⟨⟨.endFlag, { ctrl with txCharPending := rest }, [first], false⟩, ?_,
    ready, some_room, fun _ => ?_, nofun⟩
  · simp only [hdlcByteTxIter, pending, byte]
  · simp [toSend, pending, escaped]

theorem pass_address (plain : setup &&& kHdlcSpecialAddrCtrl = 0) (ready : Ready .address ctrl) :
    ∃ it, hdlcByteTxIter setup .address ctrl room = some it ∧ Passes .address ctrl room it := by
  refine ⟨⟨.data, { ctrl with txCrc := hdlc16CrcInit }, [], false⟩, ?_, ready.1, Nat.zero_le _,
    fun _ => ?_, nofun⟩
  · simp [hdlcByteTxIter, plain]
  · simp [toSend, ready.2, left, fcs, crc16]

theorem pass_data (pending : ctrl.txCharPending = none) (ready : Ready .data ctrl) :
    ∃ it, hdlcByteTxIter setup .data ctrl room = some it ∧ Passes .data ctrl room it := by
  obtain ⟨sent, split, register, stuffed, filled⟩ := hdlcByteTxData_spec ctrl.txCrc ctrl.pTxData
    (min ctrl.pTxData.length room) (Nat.min_le_left _ _)
  generalize chunk_eq : hdlcByteTxData ctrl.txCrc ctrl.pTxData (min ctrl.pTxData.length room) =
    chunk at *
  have fits : chunk.out.length ≤ room := filled ▸ Nat.min_le_right _ _
  have started : ctrl.pTxData ≠ [] := ready
  by_cases ended : chunk.rest = []
  · have whole : ctrl.pTxData = sent := by rw [split, ended, append_nil]
    cases rest : ctrl.source.rest with
    | nil =>
      refine ⟨⟨.fcs1, ctrl.afterChunk chunk, chunk.out, false⟩, ?_, ⟨ended, rest⟩, fits,
        fun _ => ?_, nofun⟩
      · simp [hdlcByteTxIter, pending, started, chunk_eq, afterChunk, ended,
          TxSource.endOfFrame, rest]
      · simp [toSend, pending, left, afterChunk, rest, whole, register, ← stuffed]
    | cons b more =>
      have next : ctrl.source = ⟨b :: more, ctrl.source.frames⟩ := by rw [← rest]
      refine ⟨⟨.data, hdlcFramerTxGetData (ctrl.afterChunk chunk), chunk.out, false⟩, ?_, ?_,
        fits,
        fun _ => ?_, nofun⟩
      · simp [hdlcByteTxIter, pending, started, chunk_eq, afterChunk, ended,
          TxSource.endOfFrame, rest]
      · rw [hdlcFramerTxGetData, afterChunk, next]
        exact b.2
      · rw [hdlcFramerTxGetData, afterChunk, next]
        simp [toSend, pending, left, rest, whole, register, ← stuffed, TxSource.getPtr]
  · refine ⟨⟨.data, ctrl.afterChunk chunk, chunk.out, false⟩, ?_, ended, fits, fun _ => ?_, nofun⟩
    · simp [hdlcByteTxIter, pending, started, chunk_eq, afterChunk, ended]
    · simp [toSend, pending, left, afterChunk, split, register, ← stuffed]

theorem pass_flag (between : frameState = .startFlag ∨ frameState = .endFlag) (some_room : 0 < room)
    (pending : ctrl.txCharPending = none) (ready : Ready frameState ctrl) :
    ∃ it, hdlcByteTxIter setup frameState ctrl room = some it ∧
      Passes frameState ctrl room it := by
  obtain ⟨empty, none_left⟩ : ctrl.pTxData = [] ∧ ctrl.source.rest = [] := by
    rcases between with rfl | rfl <;> exact ready
  have left : toSend frameState ctrl = encode ctrl.source.frames := by
    rcases between with rfl | rfl <;> simp [toSend, pending]
  cases frames : ctrl.source.frames with
  | nil =>
    have source : ctrl.source = ⟨[], []⟩ := by rw [← none_left, ← frames]
    have fetched : hdlcFramerTxGetData ctrl = hdlcFramerTxFrameInit ctrl := by
      simp [hdlcFramerTxGetData, source, TxSource.getPtr]
    have idle_left : ∀ state, state = .startFlag ∨ state = .endFlag →
        toSend state (hdlcFramerTxFrameInit ctrl) = [] := by
      rintro state (rfl | rfl) <;> simp [toSend, hdlcFramerTxFrameInit, frames]
    have idle_ready : ∀ state, state = .startFlag ∨ state = .endFlag →
        Ready state (hdlcFramerTxFrameInit ctrl) := by
      rintro state (rfl | rfl) <;> exact ⟨empty, none_left⟩
    have sent_all : toSend frameState ctrl = [] := by rw [left, frames, encode_nil]
    by_cases idle_stop : setup &&& kHdlcTxIdleStop = 0
    · refine ⟨⟨frameState, hdlcFramerTxFrameInit ctrl, replicate room hdlcByteFlag, true⟩,
        ?_, idle_ready _ between, by simp, nofun,
        fun _ => ⟨sent_all, idle_left _ between, room - 1, ?_⟩⟩
      · rcases between with rfl | rfl <;>
          simp [hdlcByteTxIter, pending, empty, fetched, idle_stop, hdlcFramerTxFrameInit]
      · rw [Nat.sub_add_cancel some_room]
    · refine ⟨⟨.startFlag, hdlcFramerTxFrameInit ctrl, [hdlcByteFlag], true⟩, ?_,
        idle_ready _ (Or.inl rfl), some_room, nofun,
        fun _ => ⟨sent_all, idle_left _ (Or.inl rfl), 0, rfl⟩⟩
      rcases between with rfl | rfl <;>
        simp [hdlcByteTxIter, pending, empty, fetched, idle_stop, hdlcFramerTxFrameInit]
  | cons f frames' =>
    have source : ctrl.source = ⟨[], f :: frames'⟩ := by rw [← none_left, ← frames]
    -- The start flag of the first buffer only repeats what the address state does.
    obtain ⟨state, crc, fetched⟩ : ∃ state crc, hdlcFramerTxGetData ctrl =
        ⟨state, crc, none, f.first.1, ⟨f.rest, frames'⟩⟩ := by
      by_cases start : f.startNewFrame = true
      · exact ⟨_, _, by simp [hdlcFramerTxGetData, source, TxSource.getPtr, start,
          hdlcFramerTxFrameInit]; exact ⟨rfl, rfl⟩⟩
      · exact ⟨_, _, by simp [hdlcFramerTxGetData, source, TxSource.getPtr, start, pending];
                        exact ⟨rfl, rfl⟩⟩
    refine ⟨⟨.address, hdlcFramerTxGetData ctrl, [hdlcByteFlag], false⟩, ?_, ?_, some_room,
      fun _ => ?_, nofun⟩
    · rcases between with rfl | rfl <;>
        simp [hdlcByteTxIter, pending, empty, fetched, f.first.2]
    · rw [fetched]
      exact ⟨f.first.2, rfl⟩
    · rw [left, frames, encode_cons, fetched]
      rfl

/-- **A pass of the loop in a ready transmitter** writes the next bytes of what is to be sent, or
flags when everything is sent. -/
theorem hdlcByteTxIter_spec (plain : setup &&& kHdlcSpecialAddrCtrl = 0) (some_room : 0 < room)
    (ready : Ready frameState ctrl) :
    ∃ it, hdlcByteTxIter setup frameState ctrl room = some it ∧
      Passes frameState ctrl room it := by
  cases pending : ctrl.txCharPending with
  | some b => exact pass_pending some_room pending ready
  | none =>
    cases frameState with
    | startFlag => exact pass_flag (Or.inl rfl) some_room pending ready
    | address => exact pass_address plain ready
    | control => exact ready.elim
    | data => exact pass_data pending ready
    | fcs1 => exact pass_fcs1 some_room pending ready
    | fcs2 => exact pass_fcs2 some_room pending ready
    | endFlag => exact pass_flag (Or.inr rfl) some_room pending ready

end Pass

/-! ## Whole calls -/

/-- A piece `out` of a stream, between what was to be sent before and after it: a front part of
it, or all of it and idle flags. -/
def Emits (before out after : List UInt8) (size : Nat) : Prop :=
  ∃ idle, out ++ after = before ++ replicate idle hdlcByteFlag ∧
    (0 < idle → after = []) ∧ (idle = 0 → out.length = size)

theorem Emits.append {before out middle more after : List UInt8} {m n : Nat}
    (first : Emits before out middle m) (second : Emits middle more after n) :
    Emits before (out ++ more) after (m + n) := by
  obtain ⟨i, out_eq, done, full⟩ := first
  obtain ⟨j, more_eq, done', full'⟩ := second
  refine ⟨i + j, ?_, ?_, ?_⟩
  · rcases Nat.eq_zero_or_pos i with rfl | some_idle
    · rw [append_assoc, more_eq, ← append_assoc, out_eq]
      simp
    · have empty := done some_idle
      subst empty
      rw [append_assoc, more_eq, nil_append, replicate_add, ← append_assoc,
        ← out_eq, append_nil]
  · intro some_idle
    rcases Nat.eq_zero_or_pos j with rfl | some_idle'
    · have empty := done (by omega)
      subst empty
      exact (append_eq_nil_iff.mp more_eq).2
    · exact done' some_idle'
  · grind

theorem hdlcByteTxLoop_spec (plain : setup &&& kHdlcSpecialAddrCtrl = 0) (frameState : FrameState)
    (ctrl : TxCtrl) (room : Nat) (ready : Ready frameState ctrl) :
    ∃ frameState' ctrl' out, hdlcByteTxLoop setup frameState ctrl room =
        some (frameState', ctrl', out) ∧
      Ready frameState' ctrl' ∧
      Emits (toSend frameState ctrl) out (toSend frameState' ctrl') room := by
  fun_induction hdlcByteTxLoop setup frameState ctrl room with
  | case1 frameState ctrl => exact ⟨_, _, _, rfl, ready, 0, by simp⟩
  | case2 frameState ctrl room some_room failed =>
    obtain ⟨it, pass, _⟩ := hdlcByteTxIter_spec plain (Nat.pos_of_ne_zero some_room) ready
    simp [pass] at failed
  | case3 frameState ctrl room some_room it pass exit =>
    obtain ⟨_, pass', passes⟩ := hdlcByteTxIter_spec plain (Nat.pos_of_ne_zero some_room) ready
    cases pass.symm.trans pass'
    obtain ⟨sent_all, idle, flags, out⟩ := passes.idle exit
    refine ⟨_, _, _, rfl, passes.ready, flags + 1, ?_, fun _ => idle, nofun⟩
    rw [out, sent_all, idle, append_nil, nil_append]
  | case4 frameState ctrl room some_room it pass more failed ih =>
    obtain ⟨_, pass', passes⟩ := hdlcByteTxIter_spec plain (Nat.pos_of_ne_zero some_room) ready
    cases pass.symm.trans pass'
    obtain ⟨_, _, _, loop, _⟩ := ih passes.ready
    simp [loop] at failed
  | case5 frameState ctrl room some_room it pass more _ _ _ loop ih =>
    obtain ⟨_, pass', passes⟩ := hdlcByteTxIter_spec plain (Nat.pos_of_ne_zero some_room) ready
    cases pass.symm.trans pass'
    obtain ⟨_, _, _, loop', ready', emits⟩ := ih passes.ready
    cases loop.symm.trans loop'
    have first : Emits (toSend frameState ctrl) it.out (toSend it.frameState it.ctrl)
        it.out.length := ⟨0, by simp [passes.sent (by simpa using more)]⟩
    have whole := first.append emits
    rw [Nat.add_sub_cancel' passes.fits] at whole
    exact ⟨_, _, _, rfl, ready', whole⟩

/-- **The stream of any sequence of calls** is the front of what was to be sent, or all of it and
idle flags; no call fails. -/
theorem txCalls_spec (plain : setup &&& kHdlcSpecialAddrCtrl = 0) (ctrl : TxCtrl) (sizes : List Nat)
    (positive : ∀ n ∈ sizes, 0 < n) (ready : Ready ctrl.txFrameState ctrl) :
    ∃ ctrl' stream, txCalls setup ctrl sizes = some (ctrl', stream) ∧
      Emits (toSend ctrl.txFrameState ctrl) stream (toSend ctrl'.txFrameState ctrl') sizes.sum := by
  induction sizes generalizing ctrl with
  | nil => exact ⟨ctrl, [], rfl, 0, by simp⟩
  | cons n sizes ih =>
    obtain ⟨state, ctrl', out, loop, ready', emits⟩ :=
      hdlcByteTxLoop_spec plain ctrl.txFrameState ctrl n ready
    obtain ⟨final, more, calls, emits'⟩ := ih { ctrl' with txFrameState := state }
      (fun m mem => positive m (mem_cons_of_mem _ mem)) (ready_store ready')
    have call : hdlcByteTx setup ctrl n = some ({ ctrl' with txFrameState := state }, out) := by
      simp [hdlcByteTx, loop, (positive n (mem_cons_self ..)).ne']
    refine ⟨final, out ++ more, by simp [txCalls, call, calls], ?_⟩
    rw [toSend_store] at emits'
    exact emits.append emits'

theorem toSend_reset (frames : List TxFrame) :
    toSend .startFlag (hdlcByteTxReset ⟨[], frames⟩) = encode frames := rfl

end EchoLife.Hdlc
