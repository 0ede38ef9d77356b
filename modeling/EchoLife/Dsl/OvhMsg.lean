import Mathlib

/-!
# Overhead messages

On an ADSL2 line the modem sends commands, and Clear EOC frames inside commands, as overhead
messages. A message of more than 1024 bytes goes out in segments, one when the segment before it is
acknowledged. A command is sent again when no response arrives within a second, three times at
most.

The functions of `G992p3OvhMsg.c` drop the prefix `G992p3OvhMsg`. `sent` records what the lower
layer is handed, and `sendCompleteFrame` is called when it is done with a frame.
-/

namespace EchoLife.Dsl

open Function

/-! ## State -/

inductive FrameId where
  | txCmdFrame
  | clearEoc (n : Nat)
  deriving DecidableEq, Repr

structure OvhFrame where
  first : List UInt8
  others : List (List UInt8)
  busy : Bool
  nextSegPending : Bool
  setCmdTime : Bool
  setSegTime : Bool
  cmdAckPending : Bool
  clearEoc : Bool
  pollCmd : Bool

def OvhFrame.length (frame : OvhFrame) : Nat := frame.first.length + frame.others.flatten.length

def OvhFrame.new (first : List UInt8) (others : List (List UInt8)) : OvhFrame where
  first := first
  others := others
  busy := false
  nextSegPending := false
  setCmdTime := false
  setSegTime := false
  cmdAckPending := false
  clearEoc := false
  pollCmd := false

structure Transmission where
  frame : FrameId
  first : List UInt8
  others : List (List UInt8)
  deriving DecidableEq, Repr

/-- `g992p3SegFrameCtlStruct`. The list `segFrBufCur` starts with the buffer that is cut, and
`segFrBuf` is given by its place in it. -/
structure SegFrameCtl where
  segFrame : Option FrameId
  segFrBufCur : List (List UInt8)
  segFrBufStart : Nat
  segFrBufLen : Nat
  timeSegOut : UInt32
  tryCnt : Nat
  segTotal : Nat
  segId : Nat

structure PollCmd where
  cmd : List UInt8
  tmPeriod : UInt32
  tmLastSent : UInt32
  active : Bool
  once : Bool
  stayActive : Bool

/-- The variables for sending. The last three fields record what happens: what the lower layer was
handed, the frames taken into `txClEocFrameCB`, and those given back, each with its busy bit. -/
structure OvhMsg where
  frames : FrameId → OvhFrame
  txSegFrameCtl : SegFrameCtl
  txClEocFrameCB : List FrameId
  lastTxCmdFrame : FrameId
  waitingAck : Bool
  l3WaitingAck : Bool
  l0WaitingAck : Bool
  clearEocWorkaround : Bool
  pollingRateAdjusted : Bool
  txL0Rq : Bool
  txL3Rq : Bool
  timeMs : UInt32
  timeCmdOut : UInt32
  cmdTryCnt : Nat
  cmdNum : Option Nat
  pollCmd : List PollCmd
  txCmdMsgNum : List UInt8
  sent : List Transmission
  accepted : List FrameId
  completed : List (FrameId × Bool)

def kG992p3OvhSegMsgMaxLen : Nat := 1000

def kG992p3CtrlField : Nat := 1

def kG992p3CmdCode : Nat := 2

def kG992p3CmdSubCode : Nat := 3

def kG992p3PriorityMask : UInt8 := 0x03

def kG992p3PriorityNormal : UInt8 := 0x01

def kG992p3PriorityLow : UInt8 := 0x02

def kG992p3CmdRspMask : UInt8 := 0x02

def kG992p3Cmd : UInt8 := 0

def kG992p3OvhMsgCmdInventory : UInt8 := 0x43

def kG992p3OvhMsgCmdCntRead : UInt8 := 0x05

def kG992p3OvhMsgCmdPower : UInt8 := 0x07

def kG992p3OvhMsgCmdClearEOC : UInt8 := 0x08

def kG992p3OvhMsgCmdClearEOCAck : UInt8 := 0x80

def kG992p3OvhMsgCmdPMDRead : UInt8 := 0x81

def kG992p3OvhMsgCmdPMDSingleRead : UInt8 := 0x01

def kG992p3OvhMsgCmdPMDReadNACK : UInt8 := 0x80

def kG992p3OvhMsgCmdPMDSingleRdRsp : UInt8 := 0x81

def clEocFrameRoom : Nat := 15

def codeOf (msg : List UInt8) : UInt8 := msg.getD kG992p3CmdCode 0

def subCodeOf (msg : List UInt8) : UInt8 := msg.getD kG992p3CmdSubCode 0

namespace PollCmd

variable (pCmd : PollCmd)

def answered : PollCmd :=
  if ¬ pCmd.once ∧ ¬ pCmd.stayActive then { pCmd with stayActive := true } else pCmd

def readOnce : PollCmd :=
  if pCmd.once then { pCmd with active := false } else pCmd

def pmdRead (subCode : UInt8) : PollCmd :=
  if codeOf pCmd.cmd ≠ kG992p3OvhMsgCmdPMDRead ∨
      subCodeOf pCmd.cmd ≠ kG992p3OvhMsgCmdPMDSingleRead then
    pCmd
  else if subCode = kG992p3OvhMsgCmdPMDReadNACK ∧ ¬ pCmd.stayActive then
    { pCmd with active := false }
  else if subCode ≠ kG992p3OvhMsgCmdPMDSingleRdRsp then pCmd
  else pCmd.readOnce.answered

end PollCmd

namespace OvhMsg

variable (s : OvhMsg)

def setFrame (f : FrameId) (change : OvhFrame → OvhFrame) : OvhMsg :=
  { s with frames := update s.frames f (change (s.frames f)) }

@[simp] theorem frames_setFrame_self (f : FrameId) (change : OvhFrame → OvhFrame) :
    (s.setFrame f change).frames f = change (s.frames f) :=
  update_self ..

theorem frames_setFrame_of_ne {f g : FrameId} (ne : g ≠ f) (change : OvhFrame → OvhFrame) :
    (s.setFrame f change).frames g = s.frames g :=
  update_of_ne ne ..

@[simp] theorem txSegFrameCtl_setFrame (f : FrameId) (change : OvhFrame → OvhFrame) :
    (s.setFrame f change).txSegFrameCtl = s.txSegFrameCtl := rfl

@[simp] theorem sent_setFrame (f : FrameId) (change : OvhFrame → OvhFrame) :
    (s.setFrame f change).sent = s.sent := rfl

def lastFrame : OvhFrame := s.frames s.lastTxCmdFrame

/-! ## Segments -/

def xmtSendFrame (f : FrameId) : Option OvhMsg :=
  if (s.frames f).busy then none
  else some { s.setFrame f ({ · with busy := true }) with
    sent := s.sent ++ [⟨f, (s.frames f).first, (s.frames f).others⟩] }

def xmtSendCurrSeg (f : FrameId) : OvhMsg × Bool :=
  match s.xmtSendFrame f with
  | some s' =>
    ({ s'.setFrame f ({ · with setSegTime := true }) with
      txSegFrameCtl := { s'.txSegFrameCtl with
        tryCnt := s'.txSegFrameCtl.tryCnt + 1, timeSegOut := s'.timeMs } }, true)
  | none =>
    ({ s with txSegFrameCtl := { s.txSegFrameCtl with timeSegOut := s.timeMs - 800 } }, false)

end OvhMsg

def markSegment (first : List UInt8) (segId segTotal : Nat) : List UInt8 :=
  first.modify kG992p3CtrlField fun ctrl =>
    (ctrl &&& 0x3) |||
      (if segId = 0 ∨ segId = segTotal - 1 then (0x80 : UInt8) else 0) |||
        (UInt8.ofNat segId <<< (3 : UInt8))

namespace SegFrameCtl

variable (ctl : SegFrameCtl)

def buffer : List UInt8 := ctl.segFrBufCur.headD []

def segFrBuf : List UInt8 := (ctl.buffer.drop ctl.segFrBufStart).take ctl.segFrBufLen

def frontWhole : Bool :=
  ctl.segFrBufLen = 0 ∧ ctl.buffer.length < kG992p3OvhSegMsgMaxLen - 10

/-- The next `segFrBuf`, when `frLen` bytes of the segment are taken already. There is none when
the last buffer is used up. -/
def advance (frLen : Nat) : Option SegFrameCtl :=
  let next := ctl.segFrBufStart + ctl.segFrBufLen
  let len := ctl.buffer.length - next
  if 0 < len then
    some { ctl with segFrBufStart := next, segFrBufLen := min len (kG992p3OvhSegMsgMaxLen - frLen) }
  else
    match ctl.segFrBufCur.tail with
    | [] => none
    | following :: more =>
      some { ctl with
        segFrBufCur := following :: more
        segFrBufStart := 0
        segFrBufLen := min following.length (kG992p3OvhSegMsgMaxLen - frLen) }

def nextSeg : List (List UInt8) × Option SegFrameCtl :=
  if ctl.frontWhole then
    let next := { ctl with segFrBufCur := ctl.segFrBufCur.tail, segFrBufStart := 0 }
    ([ctl.buffer], next.advance ctl.buffer.length)
  else ([], ctl.advance 0)

end SegFrameCtl

namespace OvhMsg

variable (s : OvhMsg)

def endSeg : OvhMsg := { s with txSegFrameCtl := { s.txSegFrameCtl with segFrame := none } }

def sendSegment (f : FrameId) (segId : Nat) : OvhMsg :=
  let (s, isSent) := s.xmtSendCurrSeg f
  if isSent ∧ segId = 0 then
    if (s.frames f).cmdAckPending then
      ({ s.setFrame f ({ · with cmdAckPending := false }) with waitingAck := true }).endSeg
    else s.endSeg
  else s

def xmtSendNextSeg (f : FrameId) : OvhMsg :=
  if (s.frames f).busy then s
  else
    let s := s.setFrame f ({ · with nextSegPending := false })
    let ctl := s.txSegFrameCtl
    if ctl.segId = 0 then s.endSeg
    else
      let segId := ctl.segId - 1
      let first := markSegment (s.frames f).first segId ctl.segTotal
      match ctl.nextSeg with
      | (front, none) =>
        { s.setFrame f ({ · with first := first, others := front }) with
          txSegFrameCtl := { ctl with segId := segId, segFrBufCur := [], segFrame := none } }
      | (front, some next) =>
        { s.setFrame f ({ · with first := first, others := front ++ [next.segFrBuf] }) with
          txSegFrameCtl := { next with segId := segId, tryCnt := 0 } }.sendSegment f segId

def xmtSendSegFrame (f : FrameId) : OvhMsg :=
  let frame := s.frames f
  let most := frame.first.length + kG992p3OvhSegMsgMaxLen
  let segTotal := (frame.length + (most - 1)) / most % 256
  if 8 < segTotal then { s with txSegFrameCtl := { s.txSegFrameCtl with segTotal := segTotal } }
  else
    { s with txSegFrameCtl := { s.txSegFrameCtl with
        segTotal := segTotal
        segId := segTotal
        segFrBufCur := frame.others
        segFrBufStart := 0
        segFrBufLen := 0
        segFrame := some f } }.xmtSendNextSeg f

def xmtSendLongFrame (f : FrameId) : OvhMsg :=
  if (s.frames f).length ≤ 1024 then (s.xmtSendFrame f).getD s
  else if s.txSegFrameCtl.segFrame.isSome then s
  else s.xmtSendSegFrame f

/-! ## Commands -/

def xmtTransferCmd (f : FrameId) : OvhMsg :=
  { (s.xmtSendLongFrame f).setFrame f ({ · with setCmdTime := true }) with timeCmdOut := s.timeMs }

def cmdNumIndex (addr : UInt8) : Nat :=
  if s.clearEocWorkaround then 0 else (addr &&& kG992p3PriorityMask).toNat

def getCmdNum (addr : UInt8) (newCmd : Bool) : UInt8 × OvhMsg :=
  let n := s.cmdNumIndex addr
  let nums := if newCmd then s.txCmdMsgNum.modify n (· ^^^ 1) else s.txCmdMsgNum
  (nums.getD n 0, { s with txCmdMsgNum := nums })

def renumber (f : FrameId) : OvhMsg :=
  let (num, s) := s.getCmdNum ((s.frames f).first.headD 0) true
  s.setFrame f fun frame =>
    { frame with first := frame.first.set kG992p3CtrlField (kG992p3Cmd ||| num) }

def xmtResendCmd : OvhMsg :=
  if (s.frames .txCmdFrame).busy then s
  else
    let s := if s.clearEocWorkaround then s.renumber s.lastTxCmdFrame else s
    { s with cmdTryCnt := s.cmdTryCnt + 1 }.xmtTransferCmd s.lastTxCmdFrame

def completeClearEocFrame (f : FrameId) : OvhMsg :=
  { s.setFrame f ({ · with clearEoc := false }) with
    completed := s.completed ++ [(f, (s.frames f).busy)]
    lastTxCmdFrame := .txCmdFrame }

def completeLast : OvhMsg :=
  if s.lastFrame.clearEoc then s.completeClearEocFrame s.lastTxCmdFrame else s

def cmdBuffers (buf data1 : List UInt8) : List UInt8 × List (List UInt8) :=
  let more := if data1 = [] then [] else [data1]
  if buf.length + data1.length ≤ 1024 then (buf, more) else (buf.take 4, buf.drop 4 :: more)

/-- What `xmtSendCmd` does first: only a command that waits for a response takes the place of the
last one. -/
def takeCmd (newCmd waitRsp : Bool) : OvhMsg :=
  if waitRsp then
    { { s with waitingAck := true }.completeLast with
      lastTxCmdFrame := .txCmdFrame
      cmdTryCnt := if newCmd then 1 else s.cmdTryCnt }
  else { s with waitingAck := false }

def newCmd (data0 data1 : List UInt8) (newCmd waitRsp : Bool) : OvhMsg :=
  let s := s.takeCmd newCmd waitRsp
  let s := s.setFrame s.lastTxCmdFrame ({ · with pollCmd := false })
  let (num, s) := s.getCmdNum (data0.headD 0) newCmd
  let buf := data0.set kG992p3CtrlField (kG992p3Cmd ||| num)
  let isLong := 1024 < data0.length + data1.length
  { s.setFrame .txCmdFrame fun frame =>
      { frame with
        first := (cmdBuffers buf data1).1
        others := (cmdBuffers buf data1).2
        cmdAckPending := if isLong ∧ waitRsp then false else frame.cmdAckPending } with
    waitingAck := if isLong then false else s.waitingAck }

def xmtSendCmd (data0 data1 : List UInt8) (newCmd waitRsp : Bool) : Option OvhMsg :=
  if (s.frames .txCmdFrame).busy then none
  else some ((s.newCmd data0 data1 newCmd waitRsp).xmtTransferCmd .txCmdFrame)

/-! ## Clear EOC frames -/

/-- The state in which `sendClearEocCmd` calls `xmtTransferCmd`. All four bytes of the header are
written. -/
def clearEocCmd (f : FrameId) : OvhMsg :=
  let (num, s) := s.getCmdNum kG992p3PriorityNormal true
  { s.setFrame f fun frame =>
      { frame with
        first :=
          [kG992p3PriorityNormal, kG992p3Cmd ||| num, kG992p3OvhMsgCmdClearEOC, 1] ++
            frame.first.drop 4
        clearEoc := true } with
    waitingAck := true
    lastTxCmdFrame := f
    cmdTryCnt := 1 }

def sendClearEocCmd (f : FrameId) : OvhMsg := (s.clearEocCmd f).xmtTransferCmd f

def sendClearEocFrame (data : List UInt8) : OvhMsg :=
  if s.txClEocFrameCB.length < clEocFrameRoom then
    let f := .clearEoc s.accepted.length
    { s.setFrame f fun _ => OvhFrame.new (List.replicate 4 0) [data] with
      txClEocFrameCB := s.txClEocFrameCB ++ [f]
      accepted := s.accepted ++ [f] }
  else s

/-! ## Polling -/

def pollDue (cmd : Nat) : Bool :=
  match s.pollCmd[cmd]? with
  | some pCmd => pCmd.active ∧ s.timeMs - pCmd.tmLastSent > pCmd.tmPeriod
  | none => false

def nextPollCmd : Option Nat :=
  let start := match s.cmdNum with
    | none => 0
    | some cmd => if cmd + 1 < s.pollCmd.length then cmd + 1 else 0
  ((List.range s.pollCmd.length).rotate start).find? s.pollDue

def setPollCmd (cmd : Nat) (change : PollCmd → PollCmd) : OvhMsg :=
  { s with pollCmd := s.pollCmd.modify cmd change }

def setLastPollCmd (change : PollCmd → PollCmd) : OvhMsg :=
  match s.cmdNum with
  | none => s
  | some cmd => s.setPollCmd cmd change

def poll : OvhMsg :=
  let cmd := s.nextPollCmd
  let s := { s with cmdNum := cmd }
  match cmd with
  | none => s
  | some n =>
    match s.pollCmd[n]? with
    | none => s
    | some pCmd =>
      match s.xmtSendCmd pCmd.cmd [] true true with
      | none => s
      | some s =>
        (s.setFrame s.lastTxCmdFrame ({ · with pollCmd := true })).setPollCmd n
          ({ · with tmLastSent := s.timeMs })

/-! ## The timer -/

def segTimer (f : FrameId) : OvhMsg :=
  if (s.frames f).nextSegPending then s.xmtSendNextSeg f
  else if s.timeMs - s.txSegFrameCtl.timeSegOut > 1000 then
    if 3 ≤ s.txSegFrameCtl.tryCnt then s.endSeg else (s.xmtSendCurrSeg f).1
  else s

def givesWay : Bool :=
  s.clearEocWorkaround ∧ ¬ s.lastFrame.clearEoc ∧ s.txClEocFrameCB ≠ []

def giveUp : OvhMsg :=
  let s := { s with cmdTryCnt := 0, waitingAck := false }.completeLast
  let s := { s with l3WaitingAck := false, l0WaitingAck := false }
  if s.lastFrame.pollCmd then
    s.setLastPollCmd fun pCmd => if pCmd.stayActive then pCmd else { pCmd with active := false }
  else s

def ackTimer : OvhMsg :=
  let timeCmdOut := if s.givesWay then 0 else s.timeCmdOut
  let cmdTryCnt := if s.givesWay then 3 else s.cmdTryCnt
  if s.timeMs - timeCmdOut > 1000 then
    if 3 ≤ cmdTryCnt then s.giveUp else s.xmtResendCmd
  else { s with timeCmdOut := timeCmdOut, cmdTryCnt := cmdTryCnt }

def timer (timeMs : UInt32) (linkActive : Bool) : OvhMsg :=
  let s := { s with timeMs := s.timeMs + timeMs }
  if ¬ linkActive then s
  else
    match s.txSegFrameCtl.segFrame with
    | some f => s.segTimer f
    | none =>
      if s.waitingAck then s.ackTimer
      else
        match s.lastFrame.clearEoc, s.txClEocFrameCB with
        | false, f :: waiting => { s with txClEocFrameCB := waiting }.sendClearEocCmd f
        | _, _ => if s.timeMs - s.timeCmdOut > 200 then s.poll else s

/-! ## What arrives -/

def sendCompleteFrame (f : FrameId) : OvhMsg :=
  let isSeg := (s.frames f).setSegTime
  let isCmd := (s.frames f).setCmdTime
  { s.setFrame f fun frame =>
      { frame with busy := false, setSegTime := false, setCmdTime := isCmd && isSeg } with
    txSegFrameCtl := { s.txSegFrameCtl with
      timeSegOut := if isSeg then s.timeMs else s.txSegFrameCtl.timeSegOut }
    timeCmdOut := if isCmd then s.timeMs else s.timeCmdOut }

def rspEffect (msg : List UInt8) : OvhMsg :=
  if codeOf msg = kG992p3OvhMsgCmdCntRead then s.setLastPollCmd PollCmd.answered
  else if codeOf msg = kG992p3OvhMsgCmdInventory then s.setLastPollCmd PollCmd.readOnce
  else if codeOf msg = kG992p3OvhMsgCmdPMDRead then s.setLastPollCmd (·.pmdRead (subCodeOf msg))
  else if codeOf msg = kG992p3OvhMsgCmdPower then
    { s with l3WaitingAck := false, l0WaitingAck := false }
  else s

def rcvProcessRsp (msg : List UInt8) : OvhMsg :=
  let s := s.rspEffect msg
  if ¬ s.lastFrame.clearEoc ∧ ¬ s.l0WaitingAck ∧ ¬ s.l3WaitingAck then
    { s with waitingAck := false }
  else if s.lastFrame.clearEoc ∧ codeOf msg = kG992p3OvhMsgCmdClearEOC then
    { s with waitingAck := false }.completeLast
  else s

def rcvProcessSegAck (msg : List UInt8) : OvhMsg :=
  match s.txSegFrameCtl.segFrame with
  | none => s
  | some f =>
    if s.txSegFrameCtl.segId = (msg.getD (kG992p3CmdSubCode + 1) 0).toNat then
      if (s.frames f).busy then s.setFrame f ({ · with nextSegPending := true })
      else s.xmtSendNextSeg f
    else s

def slowPolling (pollCmd : List PollCmd) : List PollCmd :=
  let pollCmd := [0, 1, 2, 3, 8].foldl
    (fun pollCmd cmd => pollCmd.modify cmd ({ · with active := false })) pollCmd
  [(4, 15000), (5, 20000), (6, 60000), (7, 60000)].foldl
    (fun pollCmd (cmd, period) => pollCmd.modify cmd ({ · with tmPeriod := period })) pollCmd

def pollCmdRateChange : OvhMsg :=
  if s.pollingRateAdjusted then s
  else { s with pollCmd := slowPolling s.pollCmd, pollingRateAdjusted := true }

def rcvProcessCmd (msg : List UInt8) : OvhMsg :=
  if codeOf msg = kG992p3OvhMsgCmdClearEOC ∧ subCodeOf msg = kG992p3OvhMsgCmdClearEOCAck then
    { s with clearEocWorkaround := true }.pollCmdRateChange.rcvProcessRsp msg
  else s

def indicateRcvFrame (msg : List UInt8) : OvhMsg :=
  if msg.length < 4 then s
  else if codeOf msg = 0xF0 ∨ codeOf msg = 0xF1 ∨ codeOf msg = 0xF2 then s.rcvProcessSegAck msg
  else if msg.getD kG992p3CtrlField 0 &&& kG992p3CmdRspMask = kG992p3Cmd then s.rcvProcessCmd msg
  else s.rcvProcessRsp msg

/-! ## Power states -/

def setL3 : OvhMsg := if s.l3WaitingAck then s else { s with txL3Rq := true }

def setL0 (powerState : Nat) : OvhMsg :=
  if s.l0WaitingAck ∨ powerState = 0 then s else { s with txL0Rq := true }

def l3RequestCmd : List UInt8 := [kG992p3PriorityNormal, 0, kG992p3OvhMsgCmdPower, 1, 3]

def l0RequestCmd : List UInt8 := [kG992p3PriorityNormal, 0, kG992p3OvhMsgCmdPower, 1, 0]

def requestL3 : OvhMsg :=
  if s.txL3Rq ∧ ¬ s.lastFrame.clearEoc then
    match s.xmtSendCmd l3RequestCmd [] true true with
    | some s => { s with txL3Rq := false, l3WaitingAck := true }
    | none => s
  else s

def requestL0 : OvhMsg :=
  if s.txL0Rq ∧ ¬ s.lastFrame.clearEoc then
    match s.xmtSendCmd l0RequestCmd [] true true with
    | some s => { s with txL0Rq := false, l0WaitingAck := true }
    | none => s
  else s

def statusSnooper (powerState : Nat) : OvhMsg :=
  let s := s.requestL3
  if powerState = 0 then { s with l0WaitingAck := false } else s.requestL0

end OvhMsg

/-! ## Start and runs -/

def initPollCmd (cmd : List UInt8) (period : UInt32) (once : Bool) : PollCmd where
  cmd := cmd
  tmPeriod := period
  tmLastSent := 0 - period
  active := true
  once := once
  stayActive := false

def pmdReadCmd (parameter : UInt8) : List UInt8 :=
  [kG992p3PriorityLow, 0, kG992p3OvhMsgCmdPMDRead, kG992p3OvhMsgCmdPMDSingleRead, parameter]

/-- The ten poll commands: `snrfReadCmd`, `qlnReadCmd`, `hlogReadCmd`, `attnReadCmd`,
`mgntCntReadCmd`, `snrmReadCmd`, `maxRateReadCmd`, `xmtPowerReadCmd`, `satnReadCmd` and
`VendorIdCmd`. -/
def pollCmds : List PollCmd :=
  [initPollCmd (pmdReadCmd 0x04) 10000 false,
    initPollCmd (pmdReadCmd 0x03) 10000 true,
    initPollCmd (pmdReadCmd 0x01) 10000 true,
    initPollCmd (pmdReadCmd 0x21) 5000 true,
    initPollCmd [kG992p3PriorityNormal, 0, kG992p3OvhMsgCmdCntRead, 0x01] 1000 false,
    initPollCmd (pmdReadCmd 0x23) 3000 false,
    initPollCmd (pmdReadCmd 0x24) 8000 false,
    initPollCmd (pmdReadCmd 0x25) 5000 false,
    initPollCmd (pmdReadCmd 0x22) 10000 false,
    initPollCmd [kG992p3PriorityNormal, 0, kG992p3OvhMsgCmdInventory, 0x01] 10000 true]

def ovhMsgInit : OvhMsg where
  frames _ := OvhFrame.new [] []
  txSegFrameCtl := ⟨none, [], 0, 0, 0, 0, 0, 0⟩
  txClEocFrameCB := []
  lastTxCmdFrame := .txCmdFrame
  waitingAck := false
  l3WaitingAck := false
  l0WaitingAck := false
  clearEocWorkaround := false
  pollingRateAdjusted := false
  txL0Rq := false
  txL3Rq := false
  timeMs := 0
  timeCmdOut := 0
  cmdTryCnt := 0
  cmdNum := none
  pollCmd := pollCmds
  txCmdMsgNum := List.replicate 4 1
  sent := []
  accepted := []
  completed := []

inductive OvhEvent where
  | sendClearEocFrame (data : List UInt8)
  | timer (timeMs : UInt32) (linkActive : Bool)
  | indicateRcvFrame (msg : List UInt8)
  | sendCompleteFrame (f : FrameId)
  | setL3
  | setL0 (powerState : Nat)
  | statusSnooper (powerState : Nat)

def ovhStep (s : OvhMsg) : OvhEvent → OvhMsg
  | .sendClearEocFrame data => s.sendClearEocFrame data
  | .timer timeMs linkActive => s.timer timeMs linkActive
  | .indicateRcvFrame msg => s.indicateRcvFrame msg
  | .sendCompleteFrame f => s.sendCompleteFrame f
  | .setL3 => s.setL3
  | .setL0 powerState => s.setL0 powerState
  | .statusSnooper powerState => s.statusSnooper powerState

def ovhRun (s : OvhMsg) (events : List OvhEvent) : OvhMsg := events.foldl ovhStep s

/-! ## What a response and the timer do to a command that waits -/

theorem OvhMsg.setLastPollCmd_eq (s : OvhMsg) (change : PollCmd → PollCmd) :
    ∃ pollCmd, s.setLastPollCmd change = { s with pollCmd := pollCmd } := by
  rw [setLastPollCmd]
  split
  · exact ⟨s.pollCmd, rfl⟩
  · exact ⟨_, rfl⟩

theorem OvhMsg.rspEffect_eq (s : OvhMsg) (msg : List UInt8) :
    ∃ pollCmd l3WaitingAck l0WaitingAck, s.rspEffect msg = { s with
      pollCmd := pollCmd, l3WaitingAck := l3WaitingAck, l0WaitingAck := l0WaitingAck } := by
  have polls (change : PollCmd → PollCmd) :
      ∃ pollCmd l3WaitingAck l0WaitingAck, s.setLastPollCmd change = { s with
        pollCmd := pollCmd, l3WaitingAck := l3WaitingAck, l0WaitingAck := l0WaitingAck } := by
    obtain ⟨pollCmd, eq⟩ := s.setLastPollCmd_eq change
    exact ⟨pollCmd, s.l3WaitingAck, s.l0WaitingAck, eq⟩
  rw [rspEffect]
  split
  · exact polls _
  · split
    · exact polls _
    · split
      · exact polls _
      · split
        · exact ⟨s.pollCmd, false, false, rfl⟩
        · exact ⟨s.pollCmd, s.l3WaitingAck, s.l0WaitingAck, rfl⟩

theorem OvhMsg.ackTimer_cases (s : OvhMsg) :
    (s.ackTimer = s.giveUp ∧
        (s.lastFrame.clearEoc = true → 3 ≤ s.cmdTryCnt ∧ s.timeMs - s.timeCmdOut > 1000)) ∨
      s.ackTimer = s.xmtResendCmd ∨
      ∃ timeCmdOut cmdTryCnt,
        s.ackTimer = { s with timeCmdOut := timeCmdOut, cmdTryCnt := cmdTryCnt } := by
  rw [ackTimer]
  by_cases way : s.givesWay
  · have other : s.lastFrame.clearEoc = false := by
      simp only [givesWay, decide_eq_true_eq] at way
      simpa using way.2.1
    rw [if_pos way, if_pos way]
    split
    · exact .inl ⟨rfl, by simp [other]⟩
    · exact .inr (.inr ⟨_, _, rfl⟩)
  · grind

/-! ## What sending leaves alone -/

/-- From `s` to `s'` the frame `f` is handed to the lower layer, or nothing is. The other frames,
the queue and the records of it stay as they are. -/
structure Transmits (f : FrameId) (s s' : OvhMsg) : Prop where
  others : ∀ g, g ≠ f → s'.frames g = s.frames g
  clearEoc : (s'.frames f).clearEoc = (s.frames f).clearEoc
  lastTxCmdFrame : s'.lastTxCmdFrame = s.lastTxCmdFrame
  txClEocFrameCB : s'.txClEocFrameCB = s.txClEocFrameCB
  accepted : s'.accepted = s.accepted
  completed : s'.completed = s.completed
  waitingAck : s.waitingAck = true → s'.waitingAck = true

namespace Transmits

variable {f : FrameId} {s s' s'' : OvhMsg}

theorem refl (s : OvhMsg) : Transmits f s s :=
  ⟨fun _ _ => rfl, rfl, rfl, rfl, rfl, rfl, id⟩

theorem trans (first : Transmits f s s') (second : Transmits f s' s'') : Transmits f s s'' where
  others g ne := (second.others g ne).trans (first.others g ne)
  clearEoc := second.clearEoc.trans first.clearEoc
  lastTxCmdFrame := second.lastTxCmdFrame.trans first.lastTxCmdFrame
  txClEocFrameCB := second.txClEocFrameCB.trans first.txClEocFrameCB
  accepted := second.accepted.trans first.accepted
  completed := second.completed.trans first.completed
  waitingAck := second.waitingAck ∘ first.waitingAck

theorem setFrame {change : OvhFrame → OvhFrame}
    (same : (change (s.frames f)).clearEoc = (s.frames f).clearEoc) :
    Transmits f s (s.setFrame f change) :=
  ⟨fun _ ne => update_of_ne ne .., by rw [s.frames_setFrame_self, same],
    rfl, rfl, rfl, rfl, id⟩

theorem xmtSendFrame (taken : s.xmtSendFrame f = some s') : Transmits f s s' := by
  rw [OvhMsg.xmtSendFrame] at taken
  split at taken
  · cases taken
  · obtain rfl := Option.some.inj taken
    obtain ⟨others, clearEoc, -⟩ :=
      @setFrame f s ({ · with busy := true }) rfl
    exact ⟨others, clearEoc, rfl, rfl, rfl, rfl, id⟩

theorem xmtSendCurrSeg : Transmits f s (s.xmtSendCurrSeg f).1 := by
  rw [OvhMsg.xmtSendCurrSeg]
  split
  next s' taken =>
    obtain ⟨others, clearEoc, -⟩ := @setFrame f s' ({ · with setSegTime := true }) rfl
    exact (xmtSendFrame taken).trans ⟨others, clearEoc, rfl, rfl, rfl, rfl, id⟩
  · exact ⟨fun _ _ => rfl, rfl, rfl, rfl, rfl, rfl, id⟩

theorem sendSegment (segId : Nat) : Transmits f s (s.sendSegment f segId) := by
  have current := @xmtSendCurrSeg f s
  rw [OvhMsg.sendSegment]
  generalize s.xmtSendCurrSeg f = result at current ⊢
  dsimp only
  split
  · split
    · obtain ⟨others, clearEoc, -⟩ := @setFrame f result.1 ({ · with cmdAckPending := false }) rfl
      exact current.trans ⟨others, clearEoc, rfl, rfl, rfl, rfl, fun _ => rfl⟩
    · exact current.trans ⟨fun _ _ => rfl, rfl, rfl, rfl, rfl, rfl, id⟩
  · exact current

theorem xmtSendNextSeg : Transmits f s (s.xmtSendNextSeg f) := by
  rw [OvhMsg.xmtSendNextSeg]
  split
  · exact refl s
  · have pending := @setFrame f s ({ · with nextSegPending := false }) rfl
    generalize s.setFrame f ({ · with nextSegPending := false }) = s' at pending ⊢
    dsimp only
    split
    · exact pending.trans ⟨fun _ _ => rfl, rfl, rfl, rfl, rfl, rfl, id⟩
    · split
      next front _ =>
        obtain ⟨others, clearEoc, -⟩ := @setFrame f s'
          ({ · with
            first := markSegment (s'.frames f).first (s'.txSegFrameCtl.segId - 1)
              s'.txSegFrameCtl.segTotal
            others := front }) rfl
        exact pending.trans ⟨others, clearEoc, rfl, rfl, rfl, rfl, id⟩
      next front next _ =>
        obtain ⟨others, clearEoc, -⟩ := @setFrame f s'
          ({ · with
            first := markSegment (s'.frames f).first (s'.txSegFrameCtl.segId - 1)
              s'.txSegFrameCtl.segTotal
            others := front ++ [next.segFrBuf] }) rfl
        refine pending.trans (trans ?_ (sendSegment _))
        exact ⟨others, clearEoc, rfl, rfl, rfl, rfl, id⟩

theorem xmtSendLongFrame : Transmits f s (s.xmtSendLongFrame f) := by
  rw [OvhMsg.xmtSendLongFrame]
  split
  · cases taken : s.xmtSendFrame f with
    | none => exact refl s
    | some s' => exact xmtSendFrame taken
  · split
    · exact refl s
    · rw [OvhMsg.xmtSendSegFrame]
      split
      · exact ⟨fun _ _ => rfl, rfl, rfl, rfl, rfl, rfl, id⟩
      · refine trans ?_ xmtSendNextSeg
        exact ⟨fun _ _ => rfl, rfl, rfl, rfl, rfl, rfl, id⟩

theorem xmtTransferCmd : Transmits f s (s.xmtTransferCmd f) := by
  obtain ⟨others, clearEoc, -⟩ :=
    @setFrame f (s.xmtSendLongFrame f) ({ · with setCmdTime := true }) rfl
  exact xmtSendLongFrame.trans ⟨others, clearEoc, rfl, rfl, rfl, rfl, id⟩

theorem renumber : Transmits f s (s.renumber f) := by
  rw [OvhMsg.renumber]
  refine trans ?_ (setFrame rfl)
  exact ⟨fun _ _ => rfl, rfl, rfl, rfl, rfl, rfl, id⟩

theorem xmtResendCmd : Transmits s.lastTxCmdFrame s s.xmtResendCmd := by
  rw [OvhMsg.xmtResendCmd]
  split
  · exact refl s
  · dsimp only
    split
    · refine trans (trans renumber ?_) xmtTransferCmd
      exact ⟨fun _ _ => rfl, rfl, rfl, rfl, rfl, rfl, id⟩
    · refine trans ?_ xmtTransferCmd
      exact ⟨fun _ _ => rfl, rfl, rfl, rfl, rfl, rfl, id⟩

theorem segTimer : Transmits f s (s.segTimer f) := by
  rw [OvhMsg.segTimer]
  split
  · exact xmtSendNextSeg
  · split
    · split
      · exact ⟨fun _ _ => rfl, rfl, rfl, rfl, rfl, rfl, id⟩
      · exact xmtSendCurrSeg
    · exact refl s

theorem rcvProcessSegAck (going : s.txSegFrameCtl.segFrame = some f) (msg : List UInt8) :
    Transmits f s (s.rcvProcessSegAck msg) := by
  simp only [OvhMsg.rcvProcessSegAck, going]
  split
  · split
    · exact setFrame rfl
    · exact xmtSendNextSeg
  · exact refl s

theorem sendCompleteFrame : Transmits f s (s.sendCompleteFrame f) := by
  obtain ⟨others, clearEoc, -⟩ := @setFrame f s
    (fun frame => { frame with
      busy := false
      setSegTime := false
      setCmdTime := (s.frames f).setCmdTime && (s.frames f).setSegTime }) rfl
  exact ⟨others, clearEoc, rfl, rfl, rfl, rfl, id⟩

end Transmits

end EchoLife.Dsl
