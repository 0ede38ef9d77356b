import EchoLife.Lib.Ring

/-!
# The transmit queue of the ATM processor

`ATM_TX_BDQ` is a ring of DMA descriptors. `add` writes one for each buffer of a packet and moves
the head index; the hardware reads up to the head; `reclaim` frees the packets that it has passed.
The hardware goes on while the software is in one of its loops: `hw` says how many descriptors it
passes before each turn.
-/

namespace EchoLife.Atm

/-! ## The source -/

def maxTxQueueSize : Nat := 256

def ctAal0Packet : UInt32 := 2
def ctAal0CellCrc : UInt32 := 3
def ctAal5 : UInt32 := 7
def ctTransparent : UInt32 := 0x10

def bdFlagEop : UInt32 := 0x80000000
def bdCtShift : UInt32 := 27
def bdFlagsShift : UInt32 := 27
def bdAddrMask : UInt32 := 0x07ffffff
def bdTxPortIdShift : UInt8 := 4

def noncacheToPhys (x : UInt32) : UInt32 := x &&& 0x1fffffff

def bdSetAddr (field addr : UInt32) : UInt32 := (field &&& ~~~bdAddrMask) ||| noncacheToPhys addr

structure AtmBuffer where
  pDataBuf : UInt32
  ulDataLen : UInt32
  ulReserved : UInt32
deriving DecidableEq, Repr

structure AtmVccDataParms where
  ucCircuitType : UInt8
  ucFlags : UInt8
  ucUuData8 : UInt8
  pAtmBuffer : List AtmBuffer
  chained : pAtmBuffer ≠ []
deriving DecidableEq

structure AtmDmaBd where
  ulCtBufPtr : UInt32
  ulFlagsNextRxBd : UInt32
  ucUui8 : UInt8
  ucRxPortIdVcid : UInt8
  usLength : UInt16
  ucTxPortIdGfc : UInt8
deriving DecidableEq, Repr

structure AtmTxBdInfo where
  pDataParms : Option AtmVccDataParms
  usLastIdx : Nat
  ucFirstIdx : Nat
  ucNumBds : Nat
deriving DecidableEq

structure TxPacket where
  dataParms : AtmVccDataParms
  ucVcid : UInt8
deriving DecidableEq

inductive BcmatmStatus where
  | success
  | resourceError
deriving DecidableEq, Repr

structure AtmTxBdq where
  usLength : Nat
  ucPortId : UInt8
  usHeadIdx : Nat
  ulCurrBdIdx : Nat
  ulTxPending : Bool
  pStart : Nat → AtmDmaBd
  pTxBdInfo : Nat → AtmTxBdInfo
  pucHeadIdx : Nat
  pucTailIdx : Nat
  accepted : List TxPacket
  /-- The packets that were freed, with the number of descriptors the hardware had passed then. -/
  freed : List (AtmVccDataParms × Nat)
  /-- The descriptors that the hardware passed, as it read them. -/
  sent : List AtmDmaBd

def txBd (portId ucVcid : UInt8) (dp : AtmVccDataParms) (buf : AtmBuffer) (isLast : Bool) :
    AtmDmaBd :=
  let ulCt := dp.ucCircuitType.toUInt32
  let ulFlags := dp.ucFlags.toUInt32 <<< bdFlagsShift
  let ulFlags := if isLast ∧ ulCt = ctAal5 then ulFlags ||| bdFlagEop else ulFlags
  let ucPortId := portId <<< bdTxPortIdShift
  if buf.ulReserved = 0 then
    { ulCtBufPtr := bdSetAddr (ulCt <<< bdCtShift) buf.pDataBuf
      ulFlagsNextRxBd := ulFlags
      ucUui8 := dp.ucUuData8
      ucRxPortIdVcid := ucVcid
      usLength := buf.ulDataLen.toUInt16
      ucTxPortIdGfc := ucPortId }
  else
    -- a transparent cell, with a header of four bytes, or an OAM cell, with none
    let ulAtmHdrSize := if ulCt = ctTransparent then 4 else 0
    let ct := if ulCt = ctTransparent then ctAal0CellCrc else ctAal0Packet
    { ulCtBufPtr := bdSetAddr (ct <<< bdCtShift) (buf.pDataBuf + ulAtmHdrSize)
      ulFlagsNextRxBd := ulFlags ||| bdFlagEop
      ucUui8 := 0
      ucRxPortIdVcid := 0
      usLength := (buf.ulDataLen - ulAtmHdrSize).toUInt16
      ucTxPortIdGfc := (ucPortId.toUInt32 ||| buf.ulReserved).toUInt8 }

namespace AtmTxBdq

def create (ulLength : Nat) (ucPortId : UInt8) : AtmTxBdq where
  usLength := (if ulLength < 2 ∨ ulLength > maxTxQueueSize then 64 else ulLength) - 1
  ucPortId := ucPortId
  usHeadIdx := 0
  ulCurrBdIdx := 0
  ulTxPending := false
  pStart _ := ⟨0, 0, 0, 0, 0, 0⟩
  pTxBdInfo _ := ⟨none, 0, 0, 0⟩
  pucHeadIdx := 0
  pucTailIdx := 0
  accepted := []
  freed := []
  sent := []

def hwStep (q : AtmTxBdq) : AtmTxBdq :=
  if q.pucTailIdx = q.pucHeadIdx then q
  else { q with
    pucTailIdx := Ring.next q.usLength q.pucTailIdx
    sent := q.sent ++ [q.pStart q.pucTailIdx] }

def progress : Nat → AtmTxBdq → AtmTxBdq
  | 0, q => q
  | n + 1, q => progress n q.hwStep

def addBuffer (slot : Nat) (packet : TxPacket) (buf : AtmBuffer) (isLast : Bool)
    (q : AtmTxBdq) : AtmTxBdq :=
  let pTxInfo := q.pTxBdInfo slot
  { q with
    pTxBdInfo := Function.update q.pTxBdInfo slot
      { pTxInfo with
        ucNumBds := (pTxInfo.ucNumBds + 1) % 256
        usLastIdx := if isLast then q.usHeadIdx else pTxInfo.usLastIdx }
    pStart := Function.update q.pStart q.usHeadIdx
      (txBd q.ucPortId packet.ucVcid packet.dataParms buf isLast)
    usHeadIdx := Ring.next q.usLength q.usHeadIdx }

def addBuffers (slot : Nat) (packet : TxPacket) (hw : Nat → Nat) :
    List AtmBuffer → AtmTxBdq → AtmTxBdq × BcmatmStatus
  | [], q => (q, .success)
  | buf :: rest, q =>
    let q := progress (hw rest.length) q
    if (q.usHeadIdx + 1) % q.usLength = q.ulCurrBdIdx % 2 ^ 16 then (q, .resourceError)
    else addBuffers slot packet hw rest (q.addBuffer slot packet buf rest.isEmpty)

def openInfo (packet : TxPacket) (q : AtmTxBdq) : AtmTxBdq :=
  { q with
    pTxBdInfo := Function.update q.pTxBdInfo q.usHeadIdx
      { q.pTxBdInfo q.usHeadIdx with
        pDataParms := some packet.dataParms
        ucNumBds := 0
        ucFirstIdx := q.usHeadIdx % 256 } }

def addLocked (hw : Nat → Nat) (packet : TxPacket) (q : AtmTxBdq) : AtmTxBdq × BcmatmStatus :=
  let slot := q.usHeadIdx
  match addBuffers slot packet hw packet.dataParms.pAtmBuffer (q.openInfo packet) with
  | (q, .success) =>
    ({ q with
      ulTxPending := true
      pucHeadIdx := q.usHeadIdx % 256
      accepted := q.accepted ++ [packet] }, .success)
  | (q, .resourceError) =>
    ({ q with
      ulTxPending := true
      pTxBdInfo := Function.update q.pTxBdInfo slot { q.pTxBdInfo slot with pDataParms := none }
      usHeadIdx := q.pucHeadIdx }, .resourceError)

def free (dp : AtmVccDataParms) (q : AtmTxBdq) : AtmTxBdq :=
  let pTbi := q.pTxBdInfo q.ulCurrBdIdx
  { q with
    freed := q.freed ++ [(dp, q.sent.length)]
    pTxBdInfo := Function.update q.pTxBdInfo q.ulCurrBdIdx { pTbi with pDataParms := none }
    ulCurrBdIdx := Ring.next q.usLength pTbi.usLastIdx }

/-- The loop of `Reclaim`. The tail index is read again in each turn; `hw` says how far the
hardware went before. -/
def reclaimLoop (hw : Nat → Nat) : Nat → AtmTxBdq → AtmTxBdq
  | 0, q => q
  | fuel + 1, q =>
    let q := progress (hw fuel) q
    let pTbi := q.pTxBdInfo q.ulCurrBdIdx
    match pTbi.pDataParms with
    | none => q
    | some pDp =>
      if (pTbi.ucNumBds : Int) - 1 < Ring.filled q.usLength q.pucTailIdx pTbi.ucFirstIdx then
        reclaimLoop hw fuel (q.free pDp)
      else q

def reclaim (hw : Nat → Nat) (q : AtmTxBdq) : AtmTxBdq :=
  let q := reclaimLoop hw q.usLength q
  { q with ulTxPending := (q.pTxBdInfo q.ulCurrBdIdx).pDataParms.isSome }

def reclaimFirst (hw : Nat → Nat) (q : AtmTxBdq) : AtmTxBdq :=
  if q.ulTxPending then q.reclaim hw else q

def add (hwReclaim hw : Nat → Nat) (packet : TxPacket) (q : AtmTxBdq) : AtmTxBdq × BcmatmStatus :=
  addLocked hw packet (q.reclaimFirst hwReclaim)

end AtmTxBdq

/-- What happens to a queue. `Add` takes the mutex twice, so that another thread may have its turn
after its `Reclaim`: its second part is an event as well. -/
inductive TxEvent where
  | add (hwReclaim hw : Nat → Nat) (packet : TxPacket)
  | addLocked (hw : Nat → Nat) (packet : TxPacket)
  | reclaim (hw : Nat → Nat)
  | progress (n : Nat)

def AtmTxBdq.step (q : AtmTxBdq) : TxEvent → AtmTxBdq
  | .add hwReclaim hw packet => (q.add hwReclaim hw packet).1
  | .addLocked hw packet => (q.addLocked hw packet).1
  | .reclaim hw => q.reclaim hw
  | .progress n => q.progress n

def AtmTxBdq.run (events : List TxEvent) (q : AtmTxBdq) : AtmTxBdq := events.foldl AtmTxBdq.step q

/-! ## The descriptors of the packets -/

def chainBds (portId : UInt8) (packet : TxPacket) : List AtmBuffer → List AtmDmaBd
  | [] => []
  | buf :: rest =>
    txBd portId packet.ucVcid packet.dataParms buf rest.isEmpty :: chainBds portId packet rest

def stream (portId : UInt8) (packets : List TxPacket) : List AtmDmaBd :=
  packets.flatMap fun packet => chainBds portId packet packet.dataParms.pAtmBuffer

def bdCount (packets : List TxPacket) : Nat :=
  (packets.map fun packet => packet.dataParms.pAtmBuffer.length).sum

end EchoLife.Atm
