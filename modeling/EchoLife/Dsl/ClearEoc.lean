import EchoLife.Dsl.TxStream

/-!
# Clear EOC messages

G.997 sends its HDLC stream to the PHY in chunks. The next chunk follows when the PHY reports that
the last one was sent, or does not answer for five seconds. A chunk is taken out of the transmitter
before it is known whether the command is accepted. When no command fails and no answer is late,
the accepted chunks are the front of the stream (`clearEoc_in_order`); a chunk that is refused is
missing (`clearEoc_loses_chunk`).
-/

namespace EchoLife.Dsl

open List Option Hdlc TxLink

/-! ## The messages -/

structure EocMsg where
  msgType : UInt32
  data : List UInt8
  deriving DecidableEq

/-- The state for sending. `outstanding` holds the commands that the PHY has not answered, and
`accepted` the bytes that it reported as sent; both only record what happens. -/
structure G997 where
  link : TxLink
  timeMs : UInt32
  timeCmdOut : UInt32
  txMsgNum : UInt8
  txIdle : Bool
  txMsgLen : Nat
  txMsgBufs : Nat
  txMsgBufNum : Nat
  outstanding : List EocMsg
  accepted : List UInt8

def kG997MsgBufSize : Nat := 64

def kDslClearEocMsgNumMask : UInt32 := 0x00FF0000

def kDslClearEocMsgExtraSendComplete : UInt32 := 0x02000000

def g997HdlcSetup : UInt32 := 0x00050000

namespace G997

variable (g : G997)

def g997SetTxBuffer (adsl2 : Bool) (len : Nat) : G997 :=
  if len = 0 then g
  else if adsl2 then { g with txMsgLen := len / 2, txMsgBufs := 2, txMsgBufNum := 0 }
  else { g with txMsgLen := len, txMsgBufs := 1, txMsgBufNum := 0 }

def g997Init (adsl2 : Bool) : G997 :=
  { link := TxLink.init, timeMs := 0, timeCmdOut := 0, txMsgNum := 0, txIdle := true, txMsgLen := 0,
    txMsgBufs := 0, txMsgBufNum := 0, outstanding := [],
    accepted := [] : G997 }.g997SetTxBuffer adsl2 kG997MsgBufSize

def g997Reset : G997 :=
  { g with link := g.link.reset, txIdle := true, timeCmdOut := 0, txMsgNum := 0 }

def g997IncBufNum : G997 :=
  let bufNum := g.txMsgBufNum + 1
  { g with txMsgBufNum := if bufNum = g.txMsgBufs then 0 else bufNum }

def g997EocSend (written : Bool) : Option G997 :=
  (hdlcByteTx g997HdlcSetup g.link g.txMsgLen).map fun (link, data) =>
    let g := { g with link := link, txIdle := false }
    if 0 < data.length then
      let g := g.g997IncBufNum
      let cmd : EocMsg := ⟨(g.txMsgNum.toUInt32 <<< (16 : UInt32)) ||| .ofNat data.length, data⟩
      if written then
        { g with
          timeCmdOut := if g.timeMs = 0 then 0xFFFFFFFF else g.timeMs
          outstanding := g.outstanding ++ [cmd] }
      else { g with txIdle := true }
    else { g with txIdle := true }

def linkIdle : Bool :=
  g.link.hdlc.pTxData = [] ∧ g.link.hdlc.txFrameState = .startFlag ∧
    g.link.framer.txBufData = [] ∧ g.link.framer.dlistTxWaiting = []

def g997ClearEocSendComplete (msgType : UInt32) (frameAccepted written : Bool) : Option G997 :=
  let n := (msgType &&& kDslClearEocMsgNumMask) >>> 16
  let g := { g with
    txMsgNum := if frameAccepted then n.toUInt8 + 1 else n.toUInt8
    timeCmdOut := 0 }
  if g.linkIdle then some { g with txIdle := true } else g.g997EocSend written

def cmdExpired (timeMs : UInt32) : Bool :=
  g.timeCmdOut ≠ 0 ∧ g.timeMs + timeMs - g.timeCmdOut > 5000

def g997Timer (timeMs : UInt32) (linkActive written : Bool) : Option G997 :=
  let expired := g.cmdExpired timeMs
  let g := { g with
    timeMs := g.timeMs + timeMs
    txIdle := if linkActive then g.txIdle else true }
  if expired then g.g997ClearEocSendComplete (g.txMsgNum.toUInt32 <<< 16) true written
  else some g

def g997SendFrame (buffers : List (List UInt8)) (written : Bool) : Option G997 :=
  let g := { g with link := g.link.sendFrame buffers }
  if g.txIdle then g.g997EocSend written else some g

end G997

inductive DslStatus where
  | escapeToG994p1
  | clearEocSendComplete (msgType : UInt32) (frameAccepted : Bool)
  | clearEocSendComplete2 (msgType : UInt32) (frameAccepted : Bool)
  | illegalCommand

namespace G997

def g997StatusSnooper (g : G997) (status : DslStatus) (written : Bool) : Option G997 :=
  match status with
  | .escapeToG994p1 => some g.g997Reset
  | .clearEocSendComplete msgType frameAccepted =>
    if msgType &&& kDslClearEocMsgExtraSendComplete ≠ 0 then some g
    else g.g997ClearEocSendComplete msgType frameAccepted written
  | .clearEocSendComplete2 msgType frameAccepted =>
    g.g997ClearEocSendComplete msgType frameAccepted written
  | .illegalCommand => g.g997ClearEocSendComplete (g.txMsgNum.toUInt32 <<< 16) false written

def answered (g : G997) (frameAccepted : Bool) : G997 :=
  match g.outstanding with
  | [] => g
  | cmd :: rest =>
    { g with
      outstanding := rest
      accepted := if frameAccepted then g.accepted ++ cmd.data else g.accepted }

end G997

def DslStatus.answer : DslStatus → Option Bool
  | .escapeToG994p1 => none
  | .clearEocSendComplete msgType frameAccepted =>
    if msgType &&& kDslClearEocMsgExtraSendComplete ≠ 0 then none else some frameAccepted
  | .clearEocSendComplete2 _ frameAccepted => some frameAccepted
  | .illegalCommand => some false

/-! ## Runs -/

inductive EocEvent where
  | sendFrame (buffers : List (List UInt8)) (written : Bool)
  | status (status : DslStatus) (written : Bool)
  | timer (timeMs : UInt32) (linkActive written : Bool)

def eocStep (g : G997) : EocEvent → Option G997
  | .sendFrame buffers written => g.g997SendFrame buffers written
  | .status status written =>
    match status.answer with
    | some frameAccepted => (g.answered frameAccepted).g997StatusSnooper status written
    | none => g.g997StatusSnooper status written
  | .timer timeMs linkActive written => g.g997Timer timeMs linkActive written

def eocRun (g : G997) (events : List EocEvent) : Option G997 :=
  events.foldlM eocStep g

def eocPayloads (events : List EocEvent) : List (List UInt8) :=
  events.filterMap fun
    | .sendFrame buffers _ => some buffers.flatten
    | _ => none

inductive HdlcStream : List (List UInt8) → List UInt8 → Prop
  | nil : HdlcStream [] []
  | idle {payloads : List (List UInt8)} {stream : List UInt8}
      (before : HdlcStream payloads stream) :
      HdlcStream payloads (stream ++ [hdlcByteFlag])
  | frame {payloads : List (List UInt8)} {stream : List UInt8}
      (before : HdlcStream payloads stream) (payload : List UInt8) :
      HdlcStream (payloads ++ [payload]) (stream ++ hdlcFrame payload)

theorem HdlcStream.flags {payloads : List (List UInt8)} {stream : List UInt8}
    (before : HdlcStream payloads stream) (k : Nat) :
    HdlcStream payloads (stream ++ replicate k hdlcByteFlag) := by
  induction k with
  | zero => simpa using before
  | succ k ih =>
    rw [replicate_succ', ← append_assoc]
    exact ih.idle

theorem HdlcStream.head {payloads : List (List UInt8)} {stream : List UInt8}
    (before : HdlcStream payloads stream) : stream = [] ∨ stream.head? = some hdlcByteFlag := by
  induction before with
  | nil => exact .inl rfl
  | @idle _ stream _ ih | @frame _ stream _ payload ih =>
    refine .inr ?_
    obtain rfl | head := ih
    · rfl
    · rw [head?_append, head, some_or]

def G997.taken (g : G997) : List UInt8 := g.accepted ++ g.outstanding.flatMap EocMsg.data

structure Steady (payloads : List (List UInt8)) (g : G997) : Prop where
  some_len : 0 < g.txMsgLen
  stream : ∃ source, g.link.Ready source ∧ HdlcStream payloads (g.taken ++ g.link.toSend source)
  one : g.outstanding.length ≤ 1
  idle : g.txIdle = g.outstanding.isEmpty
  quiet : g.outstanding = [] → g.timeCmdOut = 0 ∧ g.linkIdle

def EocEvent.Smooth (g : G997) : EocEvent → Prop
  | .sendFrame buffers written => (buffers ≠ [] ∧ ∀ buf ∈ buffers, buf ≠ []) ∧ written = true
  | .status report written =>
    report ≠ .escapeToG994p1 ∧ written = true ∧
      (report.answer = some false → g.outstanding = [])
  | .timer timeMs linkActive written =>
    linkActive = true ∧ written = true ∧ (g.outstanding ≠ [] → g.cmdExpired timeMs = false)

section Step

theorem setup_plain : g997HdlcSetup &&& kHdlcSpecialAddrCtrl = 0 := by decide

variable {payloads : List (List UInt8)} {g g' : G997}

open G997

theorem eocSend_eq {link : TxLink} {data : List UInt8}
    (pulled : hdlcByteTx g997HdlcSetup g.link g.txMsgLen = some (link, data))
    (some_data : 0 < data.length) :
    ∃ bufNum cmdOut msgType, g.g997EocSend true = some { g with
      link := link
      timeCmdOut := cmdOut
      txIdle := false
      txMsgBufNum := bufNum
      outstanding := g.outstanding ++ [⟨msgType, data⟩] } := by
  rw [g997EocSend, pulled, map_some]
  dsimp only
  rw [if_pos some_data, if_pos rfl]
  exact ⟨_, _, _, rfl⟩

theorem eocSend_steady (some_len : 0 < g.txMsgLen) (none_out : g.outstanding = [])
    (stream : ∃ source, g.link.Ready source ∧
      HdlcStream payloads (g.taken ++ g.link.toSend source)) :
    ∃ g', g.g997EocSend true = some g' ∧ Steady payloads g' := by
  obtain ⟨source, ready, before⟩ := stream
  obtain ⟨link, source', data, pulled, ready', idle, emitted, done, filled⟩ :=
    hdlcByteTx_emits setup_plain some_len ready
  have some_data : 0 < data.length := by grind
  obtain ⟨bufNum, cmdOut, msgType, sent⟩ := eocSend_eq pulled some_data
  refine ⟨_, sent, some_len, ⟨source', ready', ?_⟩, by simp [none_out], by simp, by simp⟩
  have continued := before.flags idle
  rw [append_assoc, ← emitted] at continued
  simpa [taken, none_out] using continued

theorem sendComplete_steady (some_len : 0 < g.txMsgLen) (none_out : g.outstanding = [])
    (stream : ∃ source, g.link.Ready source ∧
      HdlcStream payloads (g.taken ++ g.link.toSend source)) (msgType : UInt32)
    (frameAccepted : Bool) :
    ∃ g', g.g997ClearEocSendComplete msgType frameAccepted true = some g' ∧
      Steady payloads g' := by
  rw [g997ClearEocSendComplete]
  generalize (if frameAccepted then _ else _) = txMsgNum
  split
  next quiet =>
    exact ⟨_, rfl, some_len, stream, by simp [none_out], by simp [none_out], fun _ => ⟨rfl, quiet⟩⟩
  next => exact eocSend_steady some_len none_out stream

theorem answered_steady (steady : Steady payloads g) {frameAccepted : Bool}
    (no_refusal : frameAccepted = false → g.outstanding = []) :
    0 < (g.answered frameAccepted).txMsgLen ∧ (g.answered frameAccepted).outstanding = [] ∧
      ∃ source, (g.answered frameAccepted).link.Ready source ∧
        HdlcStream payloads ((g.answered frameAccepted).taken ++
          (g.answered frameAccepted).link.toSend source) := by
  obtain ⟨some_len, stream, one, -, -⟩ := steady
  cases out : g.outstanding with
  | nil =>
    have same : g.answered frameAccepted = g := by
      rw [answered, out]
    rw [same]
    exact ⟨some_len, out, stream⟩
  | cons cmd rest =>
    obtain rfl : rest = [] := by simpa [out] using one
    obtain rfl : frameAccepted = true := by grind
    have moved : g.answered true =
        { g with outstanding := [], accepted := g.accepted ++ cmd.data } := by
      rw [answered, out]
      rfl
    rw [moved]
    refine ⟨some_len, rfl, ?_⟩
    simpa [taken, out] using stream

theorem eocStep_steady (steady : Steady payloads g) {event : EocEvent} (smooth : event.Smooth g) :
    ∃ g', eocStep g event = some g' ∧ Steady (payloads ++ eocPayloads [event]) g' := by
  cases event with
  | sendFrame buffers written =>
    obtain ⟨⟨filled, bytes⟩, rfl⟩ := smooth
    obtain ⟨source, ready, before⟩ := steady.stream
    obtain ⟨source', ready', appended⟩ := ready_sendFrame filled bytes ready
    have stream : HdlcStream (payloads ++ [buffers.flatten])
        (g.taken ++ (g.link.sendFrame buffers).toSend source') := by
      rw [appended, ← append_assoc]
      exact before.frame _
    rw [eocStep, g997SendFrame]
    split
    next idle =>
      have none_out : g.outstanding = [] := by
        simpa using steady.idle.symm.trans idle
      exact eocSend_steady steady.some_len none_out ⟨source', ready', stream⟩
    next busy =>
      refine ⟨_, rfl, steady.some_len, ⟨source', ready', stream⟩, steady.one, steady.idle, ?_⟩
      intro none_out
      exact absurd (steady.idle.trans (by rw [none_out]; rfl)) busy
  | status report written =>
    obtain ⟨no_retrain, rfl, no_refusal⟩ := smooth
    have none_sent : eocPayloads [.status report true] = [] := rfl
    rw [none_sent, append_nil, eocStep]
    cases report with
    | escapeToG994p1 => exact absurd rfl no_retrain
    | clearEocSendComplete msgType frameAccepted =>
      by_cases extra : msgType &&& kDslClearEocMsgExtraSendComplete ≠ 0
      · refine ⟨g, ?_, steady⟩
        simp [DslStatus.answer, g997StatusSnooper, extra]
      · have answer : (DslStatus.clearEocSendComplete msgType frameAccepted).answer =
            some frameAccepted := if_neg extra
        obtain ⟨some_len, none_out, stream⟩ := answered_steady steady
          fun refused : frameAccepted = false => no_refusal (refused ▸ answer)
        rw [answer]
        dsimp only [g997StatusSnooper]
        rw [if_neg extra]
        exact sendComplete_steady some_len none_out stream msgType frameAccepted
    | clearEocSendComplete2 msgType frameAccepted =>
      obtain ⟨some_len, none_out, stream⟩ := answered_steady steady
        fun refused : frameAccepted = false => no_refusal (refused ▸ rfl)
      exact sendComplete_steady some_len none_out stream msgType frameAccepted
    | illegalCommand =>
      obtain ⟨some_len, none_out, stream⟩ := answered_steady steady fun _ => no_refusal rfl
      exact sendComplete_steady some_len none_out stream _ false
  | timer timeMs linkActive written =>
    obtain ⟨rfl, rfl, in_time⟩ := smooth
    have none_sent : eocPayloads [.timer timeMs true true] = [] := rfl
    have not_expired : g.cmdExpired timeMs = false := by
      by_cases none_out : g.outstanding = []
      · simp [cmdExpired, (steady.quiet none_out).1]
      · exact in_time none_out
    rw [none_sent, append_nil, eocStep, g997Timer, not_expired]
    exact ⟨_, rfl, steady.some_len, steady.stream, steady.one, steady.idle, steady.quiet⟩

end Step

def SmoothRun (g : G997) : List EocEvent → Prop
  | [] => True
  | event :: events => event.Smooth g ∧ ∀ g', eocStep g event = some g' → SmoothRun g' events

theorem eocRun_steady {payloads : List (List UInt8)} {g : G997} (steady : Steady payloads g)
    {events : List EocEvent} (smooth : SmoothRun g events) :
    ∃ g', eocRun g events = some g' ∧ Steady (payloads ++ eocPayloads events) g' := by
  induction events generalizing payloads g with
  | nil => exact ⟨g, rfl, by simpa [eocPayloads] using steady⟩
  | cons event events ih =>
    obtain ⟨between, step, steady'⟩ := eocStep_steady steady smooth.1
    obtain ⟨g', run, steady''⟩ := ih steady' (smooth.2 between step)
    refine ⟨g', ?_, ?_⟩
    · rw [eocRun, foldlM_cons, step]
      exact run
    · rw [append_assoc, eocPayloads, eocPayloads, ← filterMap_append] at steady''
      exact steady''

def g997Start (adsl2 : Bool) (len : Nat) : G997 :=
  (G997.g997Init adsl2).g997SetTxBuffer adsl2 len

theorem steady_start {adsl2 : Bool} {len : Nat} (some_len : 0 < (g997Start adsl2 len).txMsgLen) :
    Steady [] (g997Start adsl2 len) := by
  have kept (g : G997) (adsl2 : Bool) (len : Nat) : ∃ msgLen bufs num,
      g.g997SetTxBuffer adsl2 len = { g with
        txMsgLen := msgLen
        txMsgBufs := bufs
        txMsgBufNum := num } := by
    rw [G997.g997SetTxBuffer]
    split_ifs <;> exact ⟨_, _, _, rfl⟩
  obtain ⟨_, _, _, start⟩ := kept (G997.g997Init adsl2) adsl2 len
  obtain ⟨_, _, _, init⟩ := kept _ adsl2 kG997MsgBufSize
  rw [g997Start, start, G997.g997Init, init] at some_len ⊢
  exact ⟨some_len, ⟨⟨[], []⟩, ready_init, .nil⟩, Nat.zero_le _, rfl, fun _ => ⟨rfl, rfl⟩⟩

/-- **When every command is written and answered in time**, the bytes that the PHY accepted are the
front of a stream of the frames, and one chunk is out at most. -/
theorem clearEoc_in_order (adsl2 : Bool) (len : Nat)
    (some_len : 0 < (g997Start adsl2 len).txMsgLen) (events : List EocEvent)
    (smooth : SmoothRun (g997Start adsl2 len) events) :
    ∃ g, eocRun (g997Start adsl2 len) events = some g ∧
      (∃ stream, HdlcStream (eocPayloads events) stream ∧ g.accepted <+: stream) ∧
      g.outstanding.length ≤ 1 := by
  obtain ⟨g, run, steady⟩ := eocRun_steady (steady_start some_len) smooth
  obtain ⟨source, -, stream⟩ := steady.stream
  refine ⟨g, run, ⟨_, stream, ?_⟩, steady.one⟩
  rw [G997.taken, append_assoc]
  exact prefix_append _ _

def answeredRun : List EocEvent :=
  [.sendFrame [[1, 2], [3]] true, .status (.clearEocSendComplete2 0 true) true]

theorem clearEoc_in_order_answeredRun :
    (∃ g, eocRun (g997Start true 64) answeredRun = some g ∧
      (∃ stream, HdlcStream [[1, 2, 3]] stream ∧ g.accepted <+: stream) ∧
      g.outstanding.length ≤ 1) ∧
    (eocRun (g997Start true 64) answeredRun).map (·.accepted) =
      some [0x7E, 1, 2, 3, 0x3B, 0x9D, 0x7E] := by
  refine ⟨clearEoc_in_order true 64 (by decide) answeredRun ?_, by decide +kernel⟩
  exact ⟨⟨⟨by simp, by simp⟩, rfl⟩, fun _ _ => ⟨⟨nofun, rfl, nofun⟩, fun _ _ => trivial⟩⟩

def refusedRun : List EocEvent :=
  [.sendFrame [replicate 64 1] true, .status (.clearEocSendComplete2 0 false) true,
    .status (.clearEocSendComplete2 0 true) true]

/-- The PHY accepts the end of the frame after it refused the front, and a timeout leaves two chunks
out. -/
theorem clearEoc_loses_chunk :
    (∃ g, eocRun (g997Start false 64) refusedRun = some g ∧
      ¬ ∃ stream, HdlcStream (eocPayloads refusedRun) stream ∧ g.accepted <+: stream) ∧
    (eocRun (g997Start false 64) [.sendFrame [replicate 64 1] true, .timer 5001 true true]).map
      (·.outstanding.length) = some 2 := by
  refine ⟨?_, by decide +kernel⟩
  have refused : (eocRun (g997Start false 64) refusedRun).map (·.accepted.head?) =
      some (some 1) := by
    decide +kernel
  obtain ⟨g, run, head⟩ := map_eq_some_iff.mp refused
  refine ⟨g, run, ?_⟩
  rintro ⟨stream, made, rest, front⟩
  have one : stream.head? = some 1 := by
    rw [← front, head?_append, head, some_or]
  obtain rfl | flag := made.head
  · cases one
  · exact absurd (one.symm.trans flag) (by decide)

end EchoLife.Dsl
