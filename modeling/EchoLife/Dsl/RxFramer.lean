import EchoLife.Hdlc.Receiver
import Mathlib.Data.List.ModifyLast

/-!
# The framer behind the receiver

The receiver fills the buffers of the framer, and a full buffer goes into the frame at once, so that
the two bytes of the check sequence may already be part of it. `dslFramerRxDone` cuts them off the
last buffer, but not off the length that the frame keeps: it is right unless the last buffer got
less than two bytes (`rxFrames_consistent_iff`).
-/

namespace EchoLife.Dsl

open List Option Hdlc FlagFraming

/-! ## The framer -/

def kDslFramerStartNewFrame : UInt32 := 0x1

def kDslFramerExtraByteMask : UInt32 := 0x7 <<< kDslFramerExtraByteShift

structure RxFrame where
  totalLength : Nat
  buffers : List (List UInt8)
  deriving DecidableEq, Repr

namespace RxFrame

def dslFrameInit : RxFrame := ⟨0, []⟩

def dslFrameEnqueBufferAtBack (f : RxFrame) (b : List UInt8) : RxFrame :=
  ⟨f.totalLength + b.length, f.buffers ++ [b]⟩

def cutLastBuffer (f : RxFrame) (n : Nat) : RxFrame :=
  { f with buffers := f.buffers.modifyLast fun b => b.take (b.length - n) }

end RxFrame

/-- The data of `dslFramerControl` for receiving. `pRxBuf` is the current buffer up to
`pRxBufData`, and `room` what is left up to `pRxBufDataEnd`; `indicated` records the frames that
were given to the upper layer. -/
structure RxFramer where
  nRxBufSize : Nat
  pRxFrame : Option RxFrame
  pRxBuf : Option (List UInt8)
  room : Nat
  rxFrameLen : Nat
  dslFrameCntRxTotal : Nat
  dslByteCntRxTotal : Nat
  indicated : List RxFrame

namespace RxFramer

variable (c : RxFramer)

def dslFramerRxInit : RxFramer :=
  { c with pRxFrame := none, pRxBuf := none, room := 0, rxFrameLen := 0 }

def dslFramerRxFlushFrame : RxFramer := c.dslFramerRxInit

/-- `DslFramerRxGetPtr`, which always finds a frame and a buffer here. Its first test, for
`kDslFramerAbortFrame & kDslFramerEndOfFrame`, never holds. -/
def dslFramerRxGetPtr (startNewFrame : Bool) : RxFramer :=
  let c := if startNewFrame then
      { c.dslFramerRxFlushFrame with pRxFrame := some .dslFrameInit }
    else c
  if c.room = 0 then { c with pRxBuf := some [], room := c.nRxBufSize } else c

def dslFramerIndicateReceive (frame : RxFrame) : RxFramer :=
  { c with
    dslFrameCntRxTotal := c.dslFrameCntRxTotal + 1
    dslByteCntRxTotal := c.dslByteCntRxTotal + c.rxFrameLen
    indicated := c.indicated ++ [frame]
    pRxFrame := none
    rxFrameLen := 0 }

def extraBytes (bufFlags : UInt32) : Nat :=
  ((bufFlags &&& kDslFramerExtraByteMask) >>> kDslFramerExtraByteShift).toNat

def bufferDone (frame : RxFrame) (desc : BufDesc) : RxFramer × RxFrame × UInt32 :=
  let buf := c.pRxBuf.getD [] ++ desc.bytes
  let c := { c with
    pRxBuf := some buf
    room := c.room - desc.bytes.length
    rxFrameLen := c.rxFrameLen + desc.bytes.length }
  if c.room = 0 then
    if desc.bufFlags &&& kDslFramerExtraByteMask ≠ 0 then
      let n := extraBytes desc.bufFlags
      ({ c with rxFrameLen := c.rxFrameLen - n, pRxBuf := none },
        frame.dslFrameEnqueBufferAtBack (buf.take (c.nRxBufSize - n)),
        desc.bufFlags &&& ~~~kDslFramerExtraByteMask)
    else
      ({ c with pRxBuf := none }, frame.dslFrameEnqueBufferAtBack (buf.take c.nRxBufSize),
        desc.bufFlags)
  else (c, frame, desc.bufFlags)

def frameDone (frame : RxFrame) (bufFlags : UInt32) : RxFramer :=
  let n := extraBytes bufFlags
  if c.rxFrameLen ≤ n then c.dslFramerRxFlushFrame
  else
    let c := { c with rxFrameLen := c.rxFrameLen - n }
    match c.pRxBuf with
    | some buf =>
      let l := c.nRxBufSize - c.room
      let c := { c with pRxBuf := none }
      if n < l then
        c.dslFramerIndicateReceive (frame.dslFrameEnqueBufferAtBack (buf.take (l - n)))
      else if 0 < n - l then c.dslFramerIndicateReceive (frame.cutLastBuffer (n - l))
      else c.dslFramerIndicateReceive frame
    | none =>
      if 0 < n then c.dslFramerIndicateReceive (frame.cutLastBuffer n)
      else c.dslFramerIndicateReceive frame

def dslFramerRxDone (desc : BufDesc) : RxFramer :=
  if desc.bufFlags &&& kDslFramerAbortFrame ≠ 0 then c.dslFramerRxFlushFrame
  else
    match c.pRxFrame with
    | none => c
    | some frame =>
      let (c, frame, bufFlags) := c.bufferDone frame desc
      if bufFlags &&& (kDslFramerStartNewFrame ||| kDslFramerEndOfFrame) ≠ 0 then
        c.frameDone frame bufFlags
      else { c with pRxFrame := some frame }

def deliver (desc : BufDesc) : RxFramer :=
  (c.dslFramerRxGetPtr c.pRxFrame.isNone).dslFramerRxDone desc

def receive (handed : List BufDesc) : RxFramer := handed.foldl deliver c

end RxFramer

def rxFramerInit (nRxBufSize : Nat) : RxFramer where
  nRxBufSize := nRxBufSize
  pRxFrame := none
  pRxBuf := none
  room := 0
  rxFrameLen := 0
  dslFrameCntRxTotal := 0
  dslByteCntRxTotal := 0
  indicated := []

/-! ## The sizes of the buffers -/

theorem stored_lt_of_eof (crc : UInt32) (src : List UInt8) (n : Nat)
    (eof : (hdlcByteRxData crc src n).eof = true) :
    (hdlcByteRxData crc src n).stored.length < n := by
  fun_induction hdlcByteRxData crc src n with
  | case1 | case2 | case5 => cases eof
  | case3 => exact Nat.succ_pos _
  | case4 crc n c src b chunk no_flag ih | case6 crc b src n no_flag no_esc chunk ih =>
    have shorter : chunk.stored.length < n := ih eof
    simp only [length_cons]
    omega

def Fits (size : Nat) (desc : BufDesc) : Prop :=
  desc.bufFlags = 0 ∧ desc.bytes.length = size ∨
    (desc.bufFlags = 18 ∨ desc.bufFlags = 20) ∧ desc.bytes.length < size

def Sized (size : Nat) : FrameState → RxCtrl → Prop
  | .data, ctrl => ctrl.filled.length + ctrl.room = size ∧ (ctrl.rxEscChar = true → 0 < ctrl.room)
  | .control, _ => False
  | _, ctrl => ctrl.room = 0

section Sizes

variable {size : Nat} {setup : UInt32} {ctrl : RxCtrl}

theorem handle_sized (some_size : 0 < size) {chunk : RxChunk} {src : List UInt8} {n : Nat}
    (filled : ctrl.filled.length + ctrl.room = size) (within : n ≤ ctrl.room)
    (reads : chunk.Reads ctrl.rxCrc src n) (eof : chunk.eof = true → chunk.stored.length < n) :
    (∀ desc ∈ (hdlcByteRxHandle (fun _ => size) ctrl chunk).handed, Fits size desc) ∧
      Sized size (hdlcByteRxHandle (fun _ => size) ctrl chunk).frameState
        (hdlcByteRxHandle (fun _ => size) ctrl chunk).ctrl := by
  have stored := reads.stored_le
  rw [hdlcByteRxHandle]
  split
  next ended =>
    have shorter := eof ended
    refine ⟨?_, rfl⟩
    intro desc mem
    rw [mem_singleton.mp mem]
    refine .inr ⟨?_, ?_⟩
    · dsimp only
      split
      · exact .inl (by decide)
      · exact .inr (by decide)
    · simp only [RxCtrl.afterChunk, length_append]
      omega
  next going_on =>
    split
    next full =>
      simp only [RxCtrl.afterChunk] at full
      refine ⟨?_, ?_⟩
      · intro desc mem
        rw [mem_singleton.mp mem]
        refine .inl ⟨rfl, ?_⟩
        simp only [RxCtrl.afterChunk, length_append]
        omega
      · simp only [hdlcFramerRxGetData, some_size.ne', if_false, Sized]
        exact ⟨Nat.zero_add _, fun _ => some_size⟩
    next more =>
      refine ⟨forall_mem_nil _, ?_, ?_⟩
      · simp only [RxCtrl.afterChunk, length_append]
        omega
      · intro esc
        exact Nat.pos_of_ne_zero more

theorem iter_sized (plain : setup &&& kHdlcSpecialAddrCtrl = 0) (some_size : 0 < size)
    {frameState : FrameState} (sized : Sized size frameState ctrl) (b : UInt8) (src : List UInt8) :
    (∀ desc ∈ (hdlcByteRxIter (fun _ => size) setup frameState ctrl b src).handed,
        Fits size desc) ∧
      Sized size (hdlcByteRxIter (fun _ => size) setup frameState ctrl b src).frameState
        (hdlcByteRxIter (fun _ => size) setup frameState ctrl b src).ctrl := by
  cases frameState with
  | startFlag =>
    refine ⟨forall_mem_nil _, ?_⟩
    simp only [hdlcByteRxIter]
    split <;> exact sized
  | fcs1 | fcs2 | endFlag => exact ⟨forall_mem_nil _, sized⟩
  | control => exact sized.elim
  | address =>
    have no_room : ctrl.room = 0 := sized
    simp only [hdlcByteRxIter, plain, if_true, hdlcByteStartData, no_room, hdlcFramerRxGetData,
      some_size.ne', if_false]
    exact ⟨forall_mem_nil _, Nat.zero_add _, by simp⟩
  | data =>
    obtain ⟨filled, some_room⟩ := sized
    rw [hdlcByteRxIter]
    split
    next escaped =>
      have room := some_room escaped
      refine ⟨forall_mem_nil _, ?_, by simp⟩
      simp only [length_append, length_singleton]
      omega
    next =>
      exact handle_sized some_size filled (Nat.min_le_left _ _)
        (hdlcByteRxData_reads _ _ _ (Nat.min_le_right _ _)) (stored_lt_of_eof _ _ _)

theorem loop_sized (plain : setup &&& kHdlcSpecialAddrCtrl = 0) (some_size : 0 < size)
    (frameState : FrameState) (ctrl : RxCtrl) (src : List UInt8)
    (sized : Sized size frameState ctrl) :
    (∀ desc ∈ (hdlcByteRxLoop (fun _ => size) setup frameState ctrl src).2.2, Fits size desc) ∧
      Sized size (hdlcByteRxLoop (fun _ => size) setup frameState ctrl src).1
        (hdlcByteRxLoop (fun _ => size) setup frameState ctrl src).2.1 := by
  fun_induction hdlcByteRxLoop (fun _ => size) setup frameState ctrl src with
  | case1 => exact ⟨forall_mem_nil _, sized⟩
  | case2 frameState ctrl b src it last ih =>
    obtain ⟨handed, sized'⟩ := iter_sized plain some_size sized b src
    obtain ⟨more, sized''⟩ := ih sized'
    refine ⟨?_, sized''⟩
    intro desc mem
    obtain mem | mem := mem_append.mp mem
    · exact handed desc mem
    · exact more desc mem

theorem rxCalls_sized (plain : setup &&& kHdlcSpecialAddrCtrl = 0) (some_size : 0 < size)
    {ctrl' : RxCtrl} {blocks : List (List UInt8)} {handed : List BufDesc}
    (sized : Sized size ctrl.rxFrameState ctrl)
    (calls : rxCalls (fun _ => size) setup ctrl blocks = some (ctrl', handed)) :
    ∀ desc ∈ handed, Fits size desc := by
  induction blocks generalizing ctrl handed with
  | nil =>
    cases calls
    exact nofun
  | cons src blocks ih =>
    obtain ⟨⟨between, first⟩, call, calls⟩ := bind_eq_some_iff.mp calls
    obtain ⟨⟨last, more⟩, rest, done⟩ := bind_eq_some_iff.mp calls
    obtain ⟨rfl, rfl⟩ := Prod.mk.inj (some.inj done)
    rw [hdlcByteRx] at call
    split at call
    next => cases call
    next =>
      obtain ⟨rfl, rfl⟩ := Prod.mk.inj (some.inj call)
      obtain ⟨fits, sized'⟩ := loop_sized plain some_size _ _ src sized
      have stored : ∀ state ctrl, Sized size state ctrl → ∀ stored,
          Sized size state { ctrl with rxFrameState := stored } := by
        intro state ctrl sized stored
        cases state <;> exact sized
      have later := ih (stored _ _ sized' _) rest
      intro desc mem
      obtain mem | mem := mem_append.mp mem
      · exact fits desc mem
      · exact later desc mem

end Sizes

/-! ## What the framer makes of the buffers -/

def Between (size : Nat) (c : RxFramer) (opened : List UInt8) : Prop :=
  c.nRxBufSize = size ∧ (c.pRxFrame = none ∧ opened = [] ∨
    ∃ buffers, c.pRxFrame = some ⟨opened.length, buffers⟩ ∧ buffers.flatten = opened ∧
      (∀ b ∈ buffers, b.length = size) ∧ c.room = 0 ∧ c.rxFrameLen = opened.length)

namespace RxFramer

variable {size : Nat} {c : RxFramer} {opened : List UInt8} {desc : BufDesc}

theorem getPtr_between (between : Between size c opened) :
    ∃ buffers, buffers.flatten = opened ∧ (∀ b ∈ buffers, b.length = size) ∧
      c.dslFramerRxGetPtr c.pRxFrame.isNone =
        { c with
          pRxFrame := some ⟨opened.length, buffers⟩
          pRxBuf := some []
          room := size
          rxFrameLen := opened.length } := by
  obtain ⟨rfl, ⟨closed, rfl⟩ | ⟨buffers, frame, flat, sizes, room, len⟩⟩ := between
  · refine ⟨[], rfl, nofun, ?_⟩
    simp [dslFramerRxGetPtr, closed, dslFramerRxFlushFrame, dslFramerRxInit, RxFrame.dslFrameInit]
  · refine ⟨buffers, flat, sizes, ?_⟩
    simp [dslFramerRxGetPtr, frame, room, len]

theorem deliver_full (between : Between size c opened)
    (flags : desc.bufFlags = 0) (full : desc.bytes.length = size) :
    Between size (c.deliver desc) (opened ++ desc.bytes) ∧
      (c.deliver desc).indicated = c.indicated := by
  obtain ⟨buffers, flat, sizes, got⟩ := getPtr_between between
  have whole : desc.bytes.take c.nRxBufSize = desc.bytes := by
    rw [between.1, ← full, take_length]
  have delivered : c.deliver desc = { c with
      pRxFrame := some ⟨opened.length + desc.bytes.length, buffers ++ [desc.bytes]⟩
      pRxBuf := none
      room := 0
      rxFrameLen := opened.length + desc.bytes.length } := by
    rw [deliver, got]
    simp [dslFramerRxDone, bufferDone, flags, full, RxFrame.dslFrameEnqueBufferAtBack, whole]
  rw [delivered]
  refine ⟨⟨between.1, .inr ⟨buffers ++ [desc.bytes], ?_, ?_, ?_, rfl, ?_⟩⟩, rfl⟩
  · rw [length_append]
  · simp [flat]
  · grind
  · rw [length_append]

theorem deliver_abort (between : Between size c opened) (flags : desc.bufFlags = 20) :
    Between size (c.deliver desc) [] ∧ (c.deliver desc).indicated = c.indicated := by
  obtain ⟨buffers, flat, sizes, got⟩ := getPtr_between between
  have aborts : desc.bufFlags &&& kDslFramerAbortFrame ≠ 0 := by
    rw [flags]
    decide
  rw [deliver, got, dslFramerRxDone, if_pos aborts]
  exact ⟨⟨between.1, .inl ⟨rfl, rfl⟩⟩, rfl⟩

def endFrame (frame : RxFrame) (bytes : List UInt8) : RxFrame :=
  if 2 < bytes.length then frame.dslFrameEnqueBufferAtBack (bytes.take (bytes.length - 2))
  else if 0 < 2 - bytes.length then frame.cutLastBuffer (2 - bytes.length)
  else frame

theorem deliver_end (between : Between size c opened) (flags : desc.bufFlags = 18)
    (short : desc.bytes.length < size) :
    Between size (c.deliver desc) [] ∧
      ∃ buffers, buffers.flatten = opened ∧ (∀ b ∈ buffers, b.length = size) ∧
        (c.deliver desc).indicated = c.indicated ++
          if 2 < (opened ++ desc.bytes).length
          then [endFrame ⟨opened.length, buffers⟩ desc.bytes] else [] := by
  obtain ⟨buffers, flat, sizes, got⟩ := getPtr_between between
  have not_full : size - desc.bytes.length ≠ 0 := Nat.sub_ne_zero_of_lt short
  have last : size - (size - desc.bytes.length) = desc.bytes.length :=
    Nat.sub_sub_self (Nat.le_of_lt short)
  have two : extraBytes 18 = 2 := by decide
  have no_abort : (18 : UInt32) &&& kDslFramerAbortFrame = 0 := by decide
  have ends : (18 : UInt32) &&& (kDslFramerStartNewFrame ||| kDslFramerEndOfFrame) ≠ 0 := by decide
  have size_eq : c.nRxBufSize = size := between.1
  rw [deliver, got]
  simp only [dslFramerRxDone, bufferDone, flags, no_abort, ne_eq, not_true_eq_false, if_false,
    getD_some, nil_append, not_full, ends, not_false_eq_true, if_true, frameDone, two,
    size_eq, last, length_append]
  by_cases long : 2 < opened.length + desc.bytes.length
  · rw [if_neg (Nat.not_le.mpr long)]
    refine ⟨?_, buffers, flat, sizes, ?_⟩
    · split_ifs <;> exact ⟨rfl, .inl ⟨rfl, rfl⟩⟩
    · rw [if_pos long, endFrame]
      split_ifs <;> rfl
  · rw [if_pos (Nat.le_of_not_lt long)]
    refine ⟨⟨rfl, .inl ⟨rfl, rfl⟩⟩, buffers, flat, sizes, ?_⟩
    rw [if_neg long, append_nil]
    rfl

end RxFramer

/-! ## Lengths -/

def payload (body : List UInt8) : List UInt8 := body.take (body.length - 2)

structure Consistent (data : List UInt8) (frame : RxFrame) : Prop where
  total : frame.totalLength = (frame.buffers.map List.length).sum
  length : frame.totalLength = data.length
  bytes : frame.buffers.flatten = data

section EndFrame

variable {size : Nat} {buffers : List (List UInt8)} {bytes : List UInt8}

theorem flatten_cutLastBuffer {last : List UInt8} {front : List (List UInt8)} (total n : Nat)
    (short : n ≤ last.length) :
    (RxFrame.cutLastBuffer ⟨total, front ++ [last]⟩ n).buffers.flatten =
      (front ++ [last]).flatten.take ((front ++ [last]).flatten.length - n) := by
  rw [RxFrame.cutLastBuffer, modifyLast_concat]
  rw [flatten_append, flatten_append, flatten_singleton, flatten_singleton,
    length_append, Nat.add_sub_assoc short, take_length_add_append]

theorem flatten_endFrame (size_two : 2 ≤ size) (sizes : ∀ b ∈ buffers, b.length = size)
    (long : 2 < (buffers.flatten ++ bytes).length) :
    (RxFramer.endFrame ⟨buffers.flatten.length, buffers⟩ bytes).buffers.flatten =
      payload (buffers.flatten ++ bytes) := by
  rw [length_append] at long
  rw [RxFramer.endFrame, payload, length_append]
  split
  next behind =>
    have length : buffers.flatten.length + bytes.length - 2 =
        buffers.flatten.length + (bytes.length - 2) := by
      omega
    rw [length, take_length_add_append, RxFrame.dslFrameEnqueBufferAtBack,
      flatten_append, flatten_singleton]
  next within =>
    rw [take_append_of_le_length (by omega)]
    split
    next straddles =>
      obtain rfl | ⟨front, last, split⟩ := eq_nil_or_concat buffers
      · rw [flatten_nil, length_nil] at long
        omega
      obtain rfl := split.trans concat_eq_append
      have whole := sizes last (by simp)
      rw [flatten_cutLastBuffer _ _ (by omega)]
      congr 1
      omega
    next =>
      rw [take_of_length_le (by omega)]

theorem totalLength_endFrame (sizes : ∀ b ∈ buffers, b.length = size)
    (short : bytes.length < size) (long : 2 < (buffers.flatten ++ bytes).length) :
    (RxFramer.endFrame ⟨buffers.flatten.length, buffers⟩ bytes).totalLength =
        (payload (buffers.flatten ++ bytes)).length ↔
      2 ≤ (buffers.flatten ++ bytes).length % size := by
  have multiple : buffers.flatten.length = buffers.length * size := by
    rw [length_flatten, eq_replicate_of_mem (l := buffers.map List.length) (a := size)]
    · simp
    · simpa using sizes
  have last : (buffers.flatten ++ bytes).length % size = bytes.length := by
    rw [length_append, multiple, Nat.mul_add_mod', Nat.mod_eq_of_lt short]
  rw [last, payload, length_take, length_append]
  rw [length_append] at long
  rw [RxFramer.endFrame]
  split
  next behind =>
    simp only [RxFrame.dslFrameEnqueBufferAtBack, length_take]
    omega
  next within =>
    split
    next straddles =>
      simp only [RxFrame.cutLastBuffer]
      omega
    next =>
      dsimp only
      omega

end EndFrame

def Delivers (size : Nat) (body : List UInt8) (frame : RxFrame) : Prop :=
  frame.buffers.flatten = payload body ∧
    (Consistent (payload body) frame ↔ 2 ≤ ((payload body).length + 2) % size)

theorem delivers_endFrame {size : Nat} {buffers : List (List UInt8)} {bytes : List UInt8}
    (size_two : 2 ≤ size) (sizes : ∀ b ∈ buffers, b.length = size) (short : bytes.length < size)
    (long : 2 < (buffers.flatten ++ bytes).length) :
    Delivers size (buffers.flatten ++ bytes)
      (RxFramer.endFrame ⟨buffers.flatten.length, buffers⟩ bytes) := by
  have flat := flatten_endFrame size_two sizes long
  have total := totalLength_endFrame sizes short long
  have length : (payload (buffers.flatten ++ bytes)).length + 2 =
      (buffers.flatten ++ bytes).length := by
    rw [payload, length_take, Nat.min_eq_left (Nat.sub_le _ _)]
    omega
  refine ⟨flat, ?_⟩
  rw [length, ← total]
  refine ⟨Consistent.length, fun right => ⟨?_, right, flat⟩⟩
  rw [right, ← flat, length_flatten]

def accepted (bodies : List (List UInt8)) : List (List UInt8) :=
  bodies.filter fun body => hdlc16GoodCrc = crc16 body ∧ 2 < body.length

def goodEnds (ends : List BufDesc) : List (List UInt8) :=
  (ends.filter fun d => d.bufFlags = 18 ∧ 2 < d.bytes.length).map BufDesc.bytes

theorem goodEnds_reported (bodies : List (List UInt8)) :
    goodEnds (bodies.map reported) = accepted bodies := by
  have ends : kDslFramerEndOfFrame ||| (2 <<< kDslFramerExtraByteShift) = 18 := by decide
  have aborts : kDslFramerAbortFrame ||| (2 <<< kDslFramerExtraByteShift) ≠ 18 := by decide
  have flags (body : List UInt8) :
      ((reported body).bufFlags = 18 ↔ hdlc16GoodCrc = crc16 body) := by
    rw [reported]
    split
    next good => exact ⟨fun _ => good, fun _ => ends⟩
    next bad => exact ⟨fun same => absurd same aborts, fun good => absurd good bad⟩
  induction bodies with
  | nil => rfl
  | cons body bodies ih =>
    rw [goodEnds, accepted] at ih ⊢
    rw [map_cons, filter_cons, filter_cons]
    simp only [flags, decide_eq_true_eq]
    have bytes : (reported body).bytes = body := rfl
    rw [bytes]
    split
    · rw [map_cons, ih, bytes]
    · exact ih

theorem receive_delivers {size : Nat} (size_two : 2 ≤ size) {c : RxFramer} {opened : List UInt8}
    (between : Between size c opened) {handed : List BufDesc}
    (fits : ∀ desc ∈ handed, Fits size desc) :
    ∃ frames, (c.receive handed).indicated = c.indicated ++ frames ∧
      List.Forall₂ (Delivers size) (goodEnds (joinBuffers opened handed).2) frames := by
  induction handed generalizing c opened with
  | nil => exact ⟨[], (append_nil _).symm, .nil⟩
  | cons desc handed ih =>
    have later := fun d mem => fits d (mem_cons_of_mem desc mem)
    obtain ⟨flags, full⟩ | ⟨flags | flags, short⟩ := fits desc (mem_cons_self ..)
    · obtain ⟨between', indicated⟩ := RxFramer.deliver_full between flags full
      obtain ⟨frames, log, delivers⟩ := ih between' later
      refine ⟨frames, log.trans (by rw [indicated]), ?_⟩
      rw [joinBuffers, if_pos flags]
      exact delivers
    · obtain ⟨between', buffers, flat, sizes, indicated⟩ :=
        RxFramer.deliver_end between flags short
      obtain ⟨frames, log, delivers⟩ := ih between' later
      rw [joinBuffers, if_neg (by rw [flags]; decide), goodEnds]
      by_cases long : 2 < (opened ++ desc.bytes).length
      · rw [if_pos long] at indicated
        subst flat
        refine ⟨_ :: frames, log.trans (by rw [indicated, append_assoc]; rfl), ?_⟩
        rw [filter_cons_of_pos (by simpa [flags] using long), map_cons]
        exact .cons (delivers_endFrame size_two sizes short long) delivers
      · rw [if_neg long, append_nil] at indicated
        refine ⟨frames, log.trans (by rw [indicated]), ?_⟩
        rw [filter_cons_of_neg (by simpa [flags] using long)]
        exact delivers
    · obtain ⟨between', indicated⟩ := RxFramer.deliver_abort between flags
      obtain ⟨frames, log, delivers⟩ := ih between' later
      refine ⟨frames, log.trans (by rw [indicated]), ?_⟩
      rw [joinBuffers, if_neg (by rw [flags]; decide), goodEnds,
        filter_cons_of_neg (by simp [flags])]
      exact delivers

/-- **The lengths of received frames.** For every stream and however it is cut, a frame is indicated
for each body with a good check sequence and a payload, its buffers hold the payload, and its length
is right exactly if the last buffer got at least two bytes. -/
theorem rxFrames_consistent_iff {setup : UInt32} (plain : setup &&& kHdlcSpecialAddrCtrl = 0)
    {nRxBufSize : Nat} (size_two : 2 ≤ nRxBufSize) (blocks : List (List UInt8))
    (nonempty : ∀ src ∈ blocks, src ≠ []) :
    ∃ ctrl handed, rxCalls (fun _ => nRxBufSize) setup hdlcByteRxReset blocks =
        some (ctrl, handed) ∧
      List.Forall₂ (fun body frame => frame.buffers.flatten = payload body ∧
          (Consistent (payload body) frame ↔ 2 ≤ ((payload body).length + 2) % nRxBufSize))
        (accepted (byteCode.run .hunt blocks.flatten).2)
        ((rxFramerInit nRxBufSize).receive handed).indicated := by
  have some_size : 0 < nRxBufSize := Nat.lt_of_lt_of_le Nat.two_pos size_two
  obtain ⟨ctrl, handed, calls, ends⟩ := frameEnds_rxCalls plain (fun _ => some_size)
    (show hdlcByteRxReset.rxFrameState = .startFlag from rfl) rfl blocks nonempty
  have sized : Sized nRxBufSize hdlcByteRxReset.rxFrameState hdlcByteRxReset := rfl
  have fits := rxCalls_sized plain some_size sized calls
  have start : Between nRxBufSize (rxFramerInit nRxBufSize) [] := ⟨rfl, .inl ⟨rfl, rfl⟩⟩
  obtain ⟨frames, log, delivers⟩ := receive_delivers size_two start fits
  refine ⟨ctrl, handed, calls, ?_⟩
  rw [log, ← goodEnds_reported, ← ends]
  exact delivers

def oneFrame : List UInt8 := [0x7E, 1, 2, 3, 0x3B, 0x9D, 0x7E]

theorem rxFrames_consistent_iff_oneFrame :
    accepted (byteCode.run .hunt [oneFrame].flatten).2 = [[1, 2, 3, 0x3B, 0x9D]] ∧
    ∃ ctrl handed, rxCalls (fun _ => 8) 0x50000 hdlcByteRxReset [oneFrame] = some (ctrl, handed) ∧
      List.Forall₂ (fun body frame => frame.buffers.flatten = payload body ∧
          (Consistent (payload body) frame ↔ 2 ≤ ((payload body).length + 2) % 8))
        (accepted (byteCode.run .hunt [oneFrame].flatten).2)
        ((rxFramerInit 8).receive handed).indicated :=
  ⟨by decide +kernel,
    rxFrames_consistent_iff (by decide) (by decide) [oneFrame] (by simp [oneFrame])⟩

/-- With buffers of four bytes the check sequence lies in two buffers: the frame that is indicated
has three bytes, and says that it has four. -/
theorem rxFrame_length_wrong :
    (rxCalls (fun _ => 4) 0x50000 hdlcByteRxReset [oneFrame]).map
      (fun received => ((rxFramerInit 4).receive received.2).indicated) =
        some [⟨4, [[1, 2, 3]]⟩] ∧
    ¬ Consistent [1, 2, 3] ⟨4, [[1, 2, 3]]⟩ :=
  ⟨by decide +kernel, fun consistent => absurd consistent.length (by decide)⟩

end EchoLife.Dsl
