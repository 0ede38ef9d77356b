import EchoLife.Aal5.Cell

/-!
# AAL5 segmentation

`atmAal5TxCell` cuts the packets that wait on a channel into cells. A packet is a chain of buffers
that is read through a window of at most 65535 bytes; padding and the trailer follow in the same
cell if eight bytes are left and in one more cell otherwise.

`Sending` relates the state in the middle of a packet to the bytes sent and still to come. The
cells of a packet are the 48-byte segments of its protocol data unit `pdu` (`txCells_packet`), also
when others come in between the calls (`BetweenPackets.txPacket_eq`).
-/

namespace EchoLife.Aal5

open List TableCrc

/-! ## The sender -/

def atmAal5Pad : UInt8 := 0

def atmAal5MaxDataLen : Nat := 0xFFFF

def maxTxPriorities : Nat := 4

structure VcParams where
  vpivci : UInt32
  clp : UInt32
  uui : UInt8
  cpi : UInt8
  deriving Repr, DecidableEq

abbrev Packet : Type := List (List UInt8)

structure TxState where
  dlistTxWaiting : List (List Packet)
  /-- Highest priority that waits, as of the last packet that was queued or taken. -/
  currHighSubPri : Nat
  pTxPacket : Option Packet
  /-- The chain of buffers from the current one on; empty for a null pointer. -/
  pTxCellBuffer : List (List UInt8)
  /-- Bytes of the current buffer from the read pointer on. -/
  pTxCellData : List UInt8
  /-- Distance from the read pointer to `pTxCellDataEnd`. -/
  dataLeft : Nat
  txCrc : UInt32
  txLength : Nat
  bTxPadNext : Bool
  txFrameList : Nat
  txBufferList : Nat
  /-- The packets that were handed back to their senders. -/
  completed : List Packet
  deriving Repr, DecidableEq

def atmAal5VcInit : TxState where
  dlistTxWaiting := replicate maxTxPriorities []
  currHighSubPri := 0
  pTxPacket := none
  pTxCellBuffer := []
  pTxCellData := []
  dataLeft := 0
  txCrc := aal5CrcInit
  txLength := 0
  bTxPadNext := false
  txFrameList := 0
  txBufferList := 0
  completed := []

def TxState.vcInit (s : TxState) : TxState :=
  { atmAal5VcInit with
    currHighSubPri := s.currHighSubPri
    txFrameList := s.txFrameList
    txBufferList := s.txBufferList
    completed := s.completed }

def TxState.enqueue (s : TxState) (priority : Nat) (packet : Packet) : TxState :=
  { s with
    dlistTxWaiting := s.dlistTxWaiting.modify priority (· ++ [packet])
    currHighSubPri := if priority > s.currHighSubPri then priority else s.currHighSubPri }

def takeHighest : List (List Packet) → Option (Packet × List (List Packet))
  | [] => none
  | queue :: higher =>
    match takeHighest higher with
    | some (packet, higher') => some (packet, queue :: higher')
    | none =>
      match queue with
      | [] => none
      | packet :: queue' => some (packet, queue' :: higher)

def highestWaiting : List (List Packet) → Option Nat
  | [] => none
  | queue :: higher =>
    match highestWaiting higher with
    | some priority => some (priority + 1)
    | none => if queue.isEmpty then none else some 0

def atmAal5TxNextSDU (s : TxState) : TxState :=
  match takeHighest s.dlistTxWaiting with
  | none => { s with pTxPacket := none, pTxCellBuffer := [], currHighSubPri := 0 }
  | some (packet, waiting) =>
    { s with
      dlistTxWaiting := waiting
      currHighSubPri := (highestWaiting s.dlistTxWaiting).getD 0
      pTxPacket := some packet
      pTxCellBuffer := packet }

def atmLayerSendComplete (s : TxState) (packet : Packet) : TxState :=
  { s with
    txFrameList := s.txFrameList + 1
    txBufferList := s.txBufferList + packet.length
    completed := s.completed ++ [packet] }

def atmAal5VcTxFlush (s : TxState) : TxState :=
  TxState.vcInit ((s.dlistTxWaiting.flatten ++ s.pTxPacket.toList).foldl atmLayerSendComplete s)

def VcParams.hdr (vc : VcParams) (pti : UInt32) : UInt32 :=
  atmAal5MakeCellHeader vc.vpivci atmHdrCfgNone pti vc.clp

def trailerHead (vc : VcParams) (room txLength : Nat) : List UInt8 :=
  replicate (room - 8) atmAal5Pad ++
    [vc.uui, vc.cpi, UInt8.ofNat (txLength >>> 8), UInt8.ofNat (txLength &&& 0xFF)]

def atmAal5TxCompletePDU (vc : VcParams) (s : TxState) (data : List UInt8) : Cell × TxState :=
  let room := atmCellDataSize - data.length
  if room < 8 then
    let pad := replicate room atmAal5Pad
    (⟨vc.hdr atmHdrPtiNoCongSDU0, data ++ pad⟩,
      { s with txCrc := aal5Crc s.txCrc pad, bTxPadNext := true })
  else
    let head := trailerHead vc room s.txLength
    let crc := aal5CrcFinal (aal5Crc s.txCrc head)
    (⟨vc.hdr atmHdrPtiNoCongSDU1, data ++ head ++ msbBytes crc⟩,
      { s with txLength := 0, txCrc := aal5CrcInit })

def TxState.openBuffer (s : TxState) (buffer : List UInt8) : TxState :=
  let txLength := s.txLength + buffer.length
  { s with
    pTxCellData := buffer
    dataLeft :=
      if txLength > atmAal5MaxDataLen then buffer.length - (txLength - atmAal5MaxDataLen)
      else buffer.length
    txLength := if txLength > atmAal5MaxDataLen then atmAal5MaxDataLen else txLength }

theorem openBuffer_of_fits {s : TxState} {buffer : List UInt8}
    (fits : s.txLength + buffer.length ≤ atmAal5MaxDataLen) :
    s.openBuffer buffer = { s with
      pTxCellData := buffer
      dataLeft := buffer.length
      txLength := s.txLength + buffer.length } := by
  simp only [TxState.openBuffer, gt_iff_lt, not_lt.mpr fits, if_false]

def TxState.reopenBuffer (s : TxState) : TxState :=
  let rest := s.pTxCellData.length
  { s with
    dataLeft := if rest > atmAal5MaxDataLen then atmAal5MaxDataLen else rest
    txLength := if rest > atmAal5MaxDataLen then atmAal5MaxDataLen else rest }

def TxState.waitingCount (s : TxState) : Nat :=
  (s.dlistTxWaiting.map List.length).sum

theorem takeHighest_count {waiting rest : List (List Packet)} {packet : Packet}
    (h : takeHighest waiting = some (packet, rest)) :
    (waiting.map List.length).sum = (rest.map List.length).sum + 1 := by
  induction waiting generalizing rest with
  | nil => cases h
  | cons queue higher ih =>
    unfold takeHighest at h
    split at h
    · rename_i packet' higher' found
      cases h
      simp only [map_cons, sum_cons, ih found]
      omega
    · grind

variable {rest : List (List UInt8)} {s' : TxState} {arrivals : List (List (Nat × Packet))}
  {calls : Nat} {d r : List UInt8}

theorem nextSDU_waitingCount {s : TxState} {buffer : List UInt8}
    (h : (atmAal5TxNextSDU s).pTxCellBuffer = buffer :: rest) :
    (atmAal5TxNextSDU s).waitingCount < s.waitingCount := by
  unfold atmAal5TxNextSDU at h ⊢
  split
  · rename_i missing
    rw [missing] at h
    cases h
  · rename_i packet waiting found
    have := takeHighest_count found
    simp only [TxState.waitingCount]
    omega

def txCellLoop (vc : VcParams) (s : TxState) (data : List UInt8) : Option Cell × TxState :=
  if atmCellDataSize ≤ data.length then
    (some ⟨vc.hdr atmHdrPtiNoCongSDU0, data⟩, s)
  else if s.dataLeft = 0 then
    if s.txLength = atmAal5MaxDataLen then
      let done := atmAal5TxCompletePDU vc s data
      (some done.1, done.2.reopenBuffer)
    else
      match _next : s.pTxCellBuffer.tail with
      | buffer :: rest =>
        txCellLoop vc
          (TxState.openBuffer { s with pTxCellBuffer := buffer :: rest } buffer) data
      | [] =>
        match s.pTxPacket with
        | some packet =>
          let done := atmAal5TxCompletePDU vc
            (atmLayerSendComplete { s with pTxCellBuffer := [] } packet) data
          (some done.1, { done.2 with pTxPacket := none })
        | none =>
          match _sdu : (atmAal5TxNextSDU { s with pTxCellBuffer := [] }).pTxCellBuffer with
          | [] => (none, atmAal5TxNextSDU { s with pTxCellBuffer := [] })
          | buffer :: _ =>
            txCellLoop vc
              ((atmAal5TxNextSDU { s with pTxCellBuffer := [] }).openBuffer buffer) data
  else
    match s.pTxCellData with
    | b :: rest =>
      txCellLoop vc
        { s with
          pTxCellData := rest
          dataLeft := s.dataLeft - 1
          txCrc := aal5UpdateCrc s.txCrc b }
        (data ++ [b])
    | [] => (none, s)
termination_by (atmCellDataSize - data.length, s.waitingCount, s.pTxCellBuffer.length)
decreasing_by
  · have shorter : (buffer :: rest).length < s.pTxCellBuffer.length := by
      rw [← _next, length_tail]
      have : s.pTxCellBuffer.tail.length ≠ 0 := by simp [_next]
      rw [length_tail] at this
      omega
    exact Prod.Lex.right _ (Prod.Lex.right _ shorter)
  · exact Prod.Lex.right _ (Prod.Lex.left _ _ (nextSDU_waitingCount _sdu))
  · refine Prod.Lex.left _ _ ?_
    rw [length_append, length_singleton]
    omega

def atmAal5TxCell (vc : VcParams) (s : TxState) : Option Cell × TxState :=
  if s.bTxPadNext then
    let done := atmAal5TxCompletePDU vc { s with bTxPadNext := false } []
    (some done.1, done.2)
  else txCellLoop vc s []

def txCells (vc : VcParams) : Nat → TxState → List Cell
  | 0, _ => []
  | calls + 1, s =>
    match atmAal5TxCell vc s with
    | (none, _) => []
    | (some cell, s') => cell :: txCells vc calls s'

/-! ## The loop, case by case -/

section Loop

variable {vc : VcParams} {s : TxState} {data : List UInt8}

theorem txCellLoop_full (full : atmCellDataSize ≤ data.length) :
    txCellLoop vc s data = (some ⟨vc.hdr atmHdrPtiNoCongSDU0, data⟩, s) := by
  rw [txCellLoop, if_pos full]

section

variable (room : data.length < atmCellDataSize)
include room

theorem txCellLoop_byte {b : UInt8} {rest : List UInt8}
    (left : s.dataLeft ≠ 0) (bytes : s.pTxCellData = b :: rest) :
    txCellLoop vc s data =
      txCellLoop vc { s with
        pTxCellData := rest
        dataLeft := s.dataLeft - 1
        txCrc := aal5UpdateCrc s.txCrc b } (data ++ [b]) := by
  rw [txCellLoop, if_neg (by omega), if_neg left, bytes]

theorem txCellLoop_next {buffer : List UInt8}
    (left : s.dataLeft = 0) (short : s.txLength ≠ atmAal5MaxDataLen)
    (next : s.pTxCellBuffer.tail = buffer :: rest) :
    txCellLoop vc s data =
      txCellLoop vc (TxState.openBuffer { s with pTxCellBuffer := buffer :: rest } buffer)
        data := by
  rw [txCellLoop, if_neg (by omega), if_pos left, if_neg short]
  split
  · grind
  · rename_i next'
    exact absurd (next'.symm.trans next) (by simp)

theorem txCellLoop_end {packet : Packet}
    (left : s.dataLeft = 0) (short : s.txLength ≠ atmAal5MaxDataLen)
    (next : s.pTxCellBuffer.tail = []) (sending : s.pTxPacket = some packet) :
    txCellLoop vc s data =
      (some (atmAal5TxCompletePDU vc
          (atmLayerSendComplete { s with pTxCellBuffer := [] } packet) data).1,
        { (atmAal5TxCompletePDU vc
            (atmLayerSendComplete { s with pTxCellBuffer := [] } packet) data).2 with
          pTxPacket := none }) := by
  rw [txCellLoop, if_neg (by omega), if_pos left, if_neg short]
  split
  · rename_i next'
    exact absurd (next'.symm.trans next) (by simp)
  · rw [sending]

theorem txCellLoop_cut (left : s.dataLeft = 0)
    (cut : s.txLength = atmAal5MaxDataLen) :
    txCellLoop vc s data = (some (atmAal5TxCompletePDU vc s data).1,
      (atmAal5TxCompletePDU vc s data).2.reopenBuffer) := by
  rw [txCellLoop, if_neg (by omega), if_pos left, if_pos cut]

theorem txCellLoop_idle (left : s.dataLeft = 0)
    (short : s.txLength ≠ atmAal5MaxDataLen) (next : s.pTxCellBuffer.tail = [])
    (idle : s.pTxPacket = none) (empty : takeHighest s.dlistTxWaiting = none) :
    txCellLoop vc s data = (none, { s with pTxCellBuffer := [], currHighSubPri := 0 }) := by
  have none_next : atmAal5TxNextSDU { s with pTxCellBuffer := [] } =
      { s with pTxCellBuffer := [], currHighSubPri := 0 } := by
    simp only [atmAal5TxNextSDU, empty, idle]
  rw [txCellLoop, if_neg (by omega), if_pos left, if_neg short]
  split
  · rename_i next'
    exact absurd (next'.symm.trans next) (by simp)
  · grind

theorem txCellLoop_start {buffer : List UInt8} {waiting : List (List Packet)}
    (left : s.dataLeft = 0)
    (short : s.txLength ≠ atmAal5MaxDataLen) (next : s.pTxCellBuffer.tail = [])
    (idle : s.pTxPacket = none)
    (found : takeHighest s.dlistTxWaiting = some (buffer :: rest, waiting)) :
    txCellLoop vc s data =
      txCellLoop vc (TxState.openBuffer { s with
        dlistTxWaiting := waiting
        currHighSubPri := (highestWaiting s.dlistTxWaiting).getD 0
        pTxPacket := some (buffer :: rest)
        pTxCellBuffer := buffer :: rest } buffer) data := by
  have sdu : atmAal5TxNextSDU { s with pTxCellBuffer := [] } = { s with
      dlistTxWaiting := waiting
      currHighSubPri := (highestWaiting s.dlistTxWaiting).getD 0
      pTxPacket := some (buffer :: rest)
      pTxCellBuffer := buffer :: rest } := by
    simp only [atmAal5TxNextSDU, found]
  rw [txCellLoop, if_neg (by omega), if_pos left, if_neg short]
  split
  · rename_i next'
    exact absurd (next'.symm.trans next) (by simp)
  · grind

end

end Loop

/-! ## Packets that arrive -/

def TxState.enqueueAll (s : TxState) (batch : List (Nat × Packet)) : TxState :=
  batch.foldl (fun s arrival => s.enqueue arrival.1 arrival.2) s

def queueAll (waiting : List (List Packet)) (batch : List (Nat × Packet)) : List (List Packet) :=
  batch.foldl (fun waiting arrival => waiting.modify arrival.1 (· ++ [arrival.2])) waiting

theorem queueAll_append (waiting : List (List Packet)) (first second : List (Nat × Packet)) :
    queueAll waiting (first ++ second) = queueAll (queueAll waiting first) second :=
  foldl_append

theorem enqueueAll_eq (s : TxState) (batch : List (Nat × Packet)) :
    s.enqueueAll batch = { s with
      dlistTxWaiting := queueAll s.dlistTxWaiting batch
      currHighSubPri := (s.enqueueAll batch).currHighSubPri } := by
  induction batch generalizing s with
  | nil => rfl
  | cons arrival batch ih => exact ih (s.enqueue arrival.1 arrival.2)

/-! ## The middle of a packet -/

structure Sending (s : TxState) (packet : Packet) (sent rem : List UInt8) : Prop where
  inHand : s.pTxPacket = some packet
  noPad : s.bTxPadNext = false
  window : s.dataLeft = s.pTxCellData.length
  rem_eq : s.pTxCellData ++ s.pTxCellBuffer.tail.flatten = rem
  length_eq : s.txLength + s.pTxCellBuffer.tail.flatten.length = sent.length + rem.length
  crc : s.txCrc = aal5Crc aal5CrcInit sent

structure Drained (s : TxState) (sent : List UInt8) : Prop where
  noPad : s.bTxPadNext = false
  noData : s.dataLeft = 0
  noBuffer : s.pTxCellBuffer = []
  length_eq : s.txLength = sent.length
  crc : s.txCrc = aal5Crc aal5CrcInit sent

/-- The channel has sent all bytes of a packet of `n` bytes and padding, `sent` in all, and its
next cell holds the trailer. -/
structure Padded (s : TxState) (n : Nat) (sent : List UInt8) : Prop where
  idle : s.pTxPacket = none
  pad : s.bTxPadNext = true
  noData : s.dataLeft = 0
  noBuffer : s.pTxCellBuffer = []
  length_eq : s.txLength = n
  crc : s.txCrc = aal5Crc aal5CrcInit sent

structure BetweenPackets (s : TxState) : Prop where
  idle : s.pTxPacket = none
  noPad : s.bTxPadNext = false
  noData : s.dataLeft = 0
  noBuffer : s.pTxCellBuffer = []
  noLength : s.txLength = 0
  crc : s.txCrc = aal5CrcInit

structure Account where
  waiting : List (List Packet)
  frames : Nat
  buffers : Nat
  completed : List Packet
  deriving Repr, DecidableEq

def TxState.account (s : TxState) : Account :=
  ⟨s.dlistTxWaiting, s.txFrameList, s.txBufferList, s.completed⟩

def Account.queue (account : Account) (batch : List (Nat × Packet)) : Account :=
  { account with waiting := queueAll account.waiting batch }

def Account.complete (account : Account) (packet : Packet) : Account :=
  { account with
    frames := account.frames + 1
    buffers := account.buffers + packet.length
    completed := account.completed ++ [packet] }

theorem account_enqueueAll (s : TxState) (batch : List (Nat × Packet)) :
    (s.enqueueAll batch).account = s.account.queue batch := by
  rw [enqueueAll_eq]
  rfl

theorem Account.queue_append (account : Account) (first second : List (Nat × Packet)) :
    account.queue (first ++ second) = (account.queue first).queue second :=
  congrArg (fun waiting => { account with waiting := waiting }) (queueAll_append ..)

section Middle

variable (vc : VcParams) {s : TxState} {packet : Packet} {sent rem : List UInt8}

theorem Sending.enqueueAll (sending : Sending s packet sent rem) (batch : List (Nat × Packet)) :
    Sending (s.enqueueAll batch) packet sent rem := by
  rw [enqueueAll_eq]
  exact ⟨sending.inHand, sending.noPad, sending.window, sending.rem_eq, sending.length_eq,
    sending.crc⟩

theorem Sending.byte {b : UInt8} {rest : List UInt8} (sending : Sending s packet sent rem)
    (bytes : s.pTxCellData = b :: rest) :
    ∃ rem', rem = b :: rem' ∧ Sending { s with
      pTxCellData := rest
      dataLeft := s.dataLeft - 1
      txCrc := aal5UpdateCrc s.txCrc b } packet (sent ++ [b]) rem' := by
  obtain ⟨inHand, noPad, window, rem_eq, length_eq, crc⟩ := sending
  rw [bytes, cons_append] at rem_eq
  subst rem_eq
  refine ⟨_, rfl, inHand, noPad, ?_, rfl, ?_, ?_⟩
  · rw [bytes, length_cons] at window
    dsimp only
    omega
  · simp only [length_cons, length_append, length_nil] at length_eq ⊢
    omega
  · rw [aal5Crc_append, ← crc]
    rfl

variable {buffer : List UInt8}

theorem Sending.next {rest : List (List UInt8)}
    (sending : Sending s packet sent rem) (fits : sent.length + rem.length ≤ atmAal5MaxDataLen)
    (left : s.dataLeft = 0) (next : s.pTxCellBuffer.tail = buffer :: rest) :
    Sending (TxState.openBuffer { s with pTxCellBuffer := buffer :: rest } buffer) packet
      sent rem := by
  obtain ⟨inHand, noPad, window, rem_eq, length_eq, crc⟩ := sending
  have noBytes : s.pTxCellData = [] := eq_nil_of_length_eq_zero (window.symm.trans left)
  rw [noBytes, next, nil_append, flatten_cons] at rem_eq
  rw [next, flatten_cons, length_append] at length_eq
  rw [openBuffer_of_fits (by dsimp only; omega)]
  refine ⟨inHand, noPad, rfl, rem_eq, ?_, crc⟩
  dsimp only [tail_cons]
  omega

theorem Sending.advance (data : List UInt8) (sending : Sending s packet sent rem)
    (fits : sent.length + rem.length ≤ atmAal5MaxDataLen)
    (narrow : data.length ≤ atmCellDataSize) :
    ∃ s', txCellLoop vc s data =
        txCellLoop vc s' (data ++ rem.take (atmCellDataSize - data.length)) ∧
      Sending s' packet (sent ++ rem.take (atmCellDataSize - data.length))
        (rem.drop (atmCellDataSize - data.length)) ∧
      s'.account = s.account ∧
      (data.length + rem.length < atmCellDataSize →
        s'.dataLeft = 0 ∧ (s'.txLength = atmAal5MaxDataLen ∨ s'.pTxCellBuffer.tail = [])) := by
  induction hk : rem.length + s.pTxCellBuffer.length using Nat.strong_induction_on
    generalizing s sent rem data with
  | _ k ih =>
    by_cases full : atmCellDataSize ≤ data.length
    · have none_left : atmCellDataSize - data.length = 0 := by omega
      refine ⟨s, by simp [none_left], by simpa [none_left] using sending, rfl, ?_⟩
      exact fun partly => absurd partly (by omega)
    by_cases left : s.dataLeft = 0
    · have noBytes : s.pTxCellData = [] :=
        eq_nil_of_length_eq_zero (sending.window.symm.trans left)
      have behind : s.pTxCellBuffer.tail.flatten = rem := by
        have := sending.rem_eq
        rwa [noBytes, nil_append] at this
      by_cases cut : s.txLength = atmAal5MaxDataLen
      · -- The window is full, so nothing but empty buffers can follow.
        have nothing : rem = [] := by
          have := sending.length_eq
          rw [behind] at this
          exact eq_nil_of_length_eq_zero (by omega)
        subst nothing
        exact ⟨s, by simp, by simpa using sending, rfl, fun _ => ⟨left, .inl cut⟩⟩
      cases next : s.pTxCellBuffer.tail with
      | nil =>
        rw [next] at behind
        subst behind
        exact ⟨s, by simp, by simpa using sending, rfl, fun _ => ⟨left, .inr next⟩⟩
      | cons buffer rest =>
        have fewer : s.pTxCellBuffer.length = rest.length + 2 := by
          have := congrArg List.length next
          rw [length_tail, length_cons] at this
          omega
        rw [txCellLoop_next (by omega) left cut next]
        exact ih _ (by simp only [TxState.openBuffer, length_cons]; omega) data
          (sending.next fits left next) fits narrow rfl
    · cases bytes : s.pTxCellData with
      | nil =>
        have := sending.window
        rw [bytes, length_nil] at this
        omega
      | cons b rest =>
        obtain ⟨rem', rfl, sending'⟩ := sending.byte bytes
        simp only [length_cons] at fits hk
        obtain ⟨s', loop, sending'', account, ended⟩ :=
          ih (rem'.length + s.pTxCellBuffer.length) (by omega) (data ++ [b]) sending'
            (by simp; omega) (by simp; omega) rfl
        have room : atmCellDataSize - data.length =
            atmCellDataSize - (data ++ [b]).length + 1 := by
          simp only [length_append, length_cons, length_nil]
          omega
        refine ⟨s', ?_, ?_, account, ?_⟩
        · rw [txCellLoop_byte (by omega) left bytes, loop, room]
          simp
        · rw [room]
          simpa using sending''
        · grind

section

variable (sending : Sending s packet sent rem)
include sending

theorem Sending.fill (fits : sent.length + rem.length ≤ atmAal5MaxDataLen)
    (enough : atmCellDataSize ≤ rem.length) :
    ∃ s', atmAal5TxCell vc s =
        (some ⟨vc.hdr atmHdrPtiNoCongSDU0, rem.take atmCellDataSize⟩, s') ∧
      Sending s' packet (sent ++ rem.take atmCellDataSize) (rem.drop atmCellDataSize) ∧
      s'.account = s.account := by
  obtain ⟨s', loop, sending', account, -⟩ := sending.advance vc [] fits (by simp)
  rw [nil_append, length_nil, Nat.sub_zero] at loop
  refine ⟨s', ?_, sending', account⟩
  rw [atmAal5TxCell, sending.noPad, if_neg (by simp), loop,
    txCellLoop_full (by simpa using enough)]

theorem Sending.drain (fits : sent.length + rem.length ≤ atmAal5MaxDataLen)
    (last : rem.length < atmCellDataSize) :
    ∃ s', atmAal5TxCell vc s = txCellLoop vc s' rem ∧ Sending s' packet (sent ++ rem) [] ∧
      s'.account = s.account ∧ s'.dataLeft = 0 ∧
      (s'.txLength = atmAal5MaxDataLen ∨ s'.pTxCellBuffer.tail = []) := by
  obtain ⟨s', loop, sending', account, ended⟩ := sending.advance vc [] fits (by simp)
  have all : rem.take atmCellDataSize = rem := take_of_length_le last.le
  rw [nil_append, length_nil, Nat.sub_zero, all] at loop
  rw [length_nil, Nat.sub_zero, all, drop_of_length_le last.le] at sending'
  refine ⟨s', ?_, sending', account, ended (by simpa using last)⟩
  rw [atmAal5TxCell, sending.noPad, if_neg (by simp), loop]

theorem Sending.finish (short : sent.length + rem.length < atmAal5MaxDataLen)
    (last : rem.length < atmCellDataSize) :
    ∃ s', atmAal5TxCell vc s = (some (atmAal5TxCompletePDU vc s' rem).1,
        { (atmAal5TxCompletePDU vc s' rem).2 with pTxPacket := none }) ∧
      Drained s' (sent ++ rem) ∧ s'.account = s.account.complete packet := by
  obtain ⟨s', loop, ⟨inHand, noPad, -, -, length_eq, crc⟩, account, noData, ended⟩ :=
    sending.drain vc short.le last
  have uncut : s'.txLength ≠ atmAal5MaxDataLen := by
    simp only [length_append, length_nil] at length_eq
    omega
  have noBuffer := ended.resolve_left uncut
  rw [noBuffer, flatten_nil, length_nil, Nat.add_zero, Nat.add_zero] at length_eq
  refine ⟨atmLayerSendComplete { s' with pTxCellBuffer := [] } packet, ?_,
    ⟨noPad, noData, rfl, length_eq, crc⟩, ?_⟩
  · rw [loop]
    exact txCellLoop_end last noData uncut noBuffer inHand
  · rw [← account]
    rfl

end

/-! ## The cells of a packet -/

def padLen (n : Nat) : Nat :=
  (atmCellDataSize - (n + 8) % atmCellDataSize) % atmCellDataSize

def pduTail (d : List UInt8) : List UInt8 :=
  let head := trailerHead vc (padLen d.length + 8) d.length
  head ++ msbBytes (aal5CrcFinal (aal5Crc aal5CrcInit (d ++ head)))

def pdu (d : List UInt8) : List UInt8 := d ++ pduTail vc d

def cellCount (n : Nat) : Nat := (n + 8 + 47) / atmCellDataSize

def segment : Nat → List UInt8 → List Cell
  | 0, _ => []
  | k + 1, bytes =>
    ⟨vc.hdr (if k = 0 then atmHdrPtiNoCongSDU1 else atmHdrPtiNoCongSDU0),
      bytes.take atmCellDataSize⟩ :: segment k (bytes.drop atmCellDataSize)

def txPacket : List (List (Nat × Packet)) → TxState → Option (List Cell × TxState)
  | [], _ => none
  | batch :: arrivals, s =>
    match atmAal5TxCell vc s with
    | (none, _) => none
    | (some cell, s') =>
      if s'.pTxPacket = none ∧ s'.bTxPadNext = false then
        some ([cell], s'.enqueueAll batch)
      else (txPacket arrivals (s'.enqueueAll batch)).map fun (cells, last) =>
        (cell :: cells, last)

structure Sent (s : TxState) (packet : Packet) (arrived : List (Nat × Packet)) (s' : TxState) :
    Prop where
  between : BetweenPackets s'
  account : s'.account = (s.account.complete packet).queue arrived

theorem BetweenPackets.enqueueAll (between : BetweenPackets s) (batch : List (Nat × Packet)) :
    BetweenPackets (s.enqueueAll batch) := by
  rw [enqueueAll_eq]
  exact ⟨between.idle, between.noPad, between.noData, between.noBuffer, between.noLength,
    between.crc⟩

theorem txPacket_last {cell : Cell} (arrivals : List (List (Nat × Packet)))
    (batch : List (Nat × Packet)) (made : atmAal5TxCell vc s = (some cell, s'))
    (between : BetweenPackets s') :
    txPacket vc (batch :: arrivals) s = some ([cell], s'.enqueueAll batch) := by
  rw [txPacket, made]
  exact if_pos ⟨between.idle, between.noPad⟩

theorem txPacket_more {last : TxState} {cell : Cell} {cells : List Cell}
    {batch : List (Nat × Packet)} (made : atmAal5TxCell vc s = (some cell, s'))
    (busy : s'.pTxPacket ≠ none ∨ s'.bTxPadNext = true)
    (rest : txPacket vc arrivals (s'.enqueueAll batch) = some (cells, last)) :
    txPacket vc (batch :: arrivals) s = some (cell :: cells, last) := by
  have more : ¬ (s'.pTxPacket = none ∧ s'.bTxPadNext = false) := by grind
  rw [txPacket, made]
  dsimp only
  rw [if_neg more, rest]
  rfl

theorem Sent.more {last : TxState} {batch arrived : List (Nat × Packet)}
    (account : s'.account = s.account) (rest : Sent (s'.enqueueAll batch) packet arrived last) :
    Sent s packet (batch ++ arrived) last := by
  refine ⟨rest.between, ?_⟩
  rw [rest.account, account_enqueueAll, account, Account.queue_append]
  rfl

theorem BetweenPackets.noCell (between : BetweenPackets s)
    (empty : takeHighest s.dlistTxWaiting = none) :
    atmAal5TxCell vc s = (none, { s with pTxCellBuffer := [], currHighSubPri := 0 }) := by
  have loop : txCellLoop vc s [] = _ := txCellLoop_idle (by decide) between.noData
    (by rw [between.noLength]; decide) (by simp [between.noBuffer]) between.idle empty
  rw [atmAal5TxCell, if_neg (by rw [between.noPad]; exact Bool.false_ne_true), loop]

theorem txCells_idle (between : BetweenPackets s) (empty : takeHighest s.dlistTxWaiting = none) :
    txCells vc calls s = [] := by
  cases calls with
  | zero => rfl
  | succ calls => rw [txCells, between.noCell vc empty]

theorem atmAal5TxCompletePDU_trailer (length_eq : s.txLength = d.length)
    (crc : s.txCrc = aal5Crc aal5CrcInit d) (room : r.length ≤ 40)
    (pad : padLen d.length = 40 - r.length) :
    atmAal5TxCompletePDU vc s r = (⟨vc.hdr atmHdrPtiNoCongSDU1, r ++ pduTail vc d⟩,
      { s with txLength := 0, txCrc := aal5CrcInit }) := by
  have size : atmCellDataSize - r.length = padLen d.length + 8 := by
    rw [pad, atmCellDataSize]
    omega
  rw [atmAal5TxCompletePDU, size]
  dsimp only
  rw [if_neg (by omega), length_eq, crc, ← aal5Crc_append, pduTail, append_assoc]

theorem trailerHead_add (a n : Nat) :
    trailerHead vc (a + atmCellDataSize) n =
      replicate a atmAal5Pad ++ trailerHead vc atmCellDataSize n := by
  rw [trailerHead, trailerHead, atmCellDataSize, show a + 48 - 8 = a + (48 - 8) by omega,
    replicate_add, append_assoc]

def cellPad (r : List UInt8) : List UInt8 :=
  replicate (atmCellDataSize - r.length) atmAal5Pad

theorem pduTail_split (fits : r.length < atmCellDataSize) (pad : padLen d.length = 88 - r.length) :
    pduTail vc d = cellPad r ++ (trailerHead vc atmCellDataSize d.length ++
      msbBytes (aal5CrcFinal (aal5Crc (aal5Crc aal5CrcInit (d ++ cellPad r))
        (trailerHead vc atmCellDataSize d.length)))) := by
  have fits' : r.length < 48 := fits
  have size : padLen d.length + 8 = atmCellDataSize - r.length + atmCellDataSize := by
    rw [pad, atmCellDataSize]
    omega
  rw [pduTail, size, trailerHead_add, cellPad, ← aal5Crc_append, append_assoc,
    append_assoc]

theorem length_cellPad (fits : r.length < atmCellDataSize) :
    (r ++ cellPad r).length = atmCellDataSize := by
  rw [length_append, cellPad, length_replicate]
  omega

theorem Padded.trailer (padded : Padded s d.length (d ++ cellPad r))
    (fits : r.length < atmCellDataSize) (pad : padLen d.length = 88 - r.length) :
    atmAal5TxCell vc s =
      (some ⟨vc.hdr atmHdrPtiNoCongSDU1, (r ++ pduTail vc d).drop atmCellDataSize⟩,
        { s with bTxPadNext := false, txLength := 0, txCrc := aal5CrcInit }) := by
  have wide : ¬ atmCellDataSize < 8 := by decide
  rw [pduTail_split vc fits pad, ← append_assoc, drop_left' (length_cellPad fits)]
  simp only [atmAal5TxCell, atmAal5TxCompletePDU, padded.pad, if_true, if_neg wide, padded.crc,
    padded.length_eq, nil_append, length_nil, Nat.sub_zero]

theorem padLen_eq (n : Nat) : padLen n = (48 - (n + 8) % 48) % 48 := rfl

theorem cellCount_eq (n : Nat) : cellCount n = (n + 55) / 48 := rfl

theorem length_pduTail (d : List UInt8) : (pduTail vc d).length = padLen d.length + 8 := by
  simp [pduTail, trailerHead, msbBytes]

theorem goodCrc_pdu (d : List UInt8) : aal5Crc aal5CrcInit (pdu vc d) = aal5GoodCrc := by
  rw [pdu, pduTail, ← append_assoc, aal5Crc_append, goodCrc_after_trailer]

theorem length_pdu (d : List UInt8) :
    (pdu vc d).length = atmCellDataSize * cellCount d.length := by
  rw [pdu, length_append, length_pduTail, padLen_eq, cellCount_eq, atmCellDataSize]
  omega

theorem length_segment (k : Nat) (bytes : List UInt8) :
    (segment vc k bytes).length = k := by
  induction k generalizing bytes with
  | zero => rfl
  | succ k ih => rw [segment, length_cons, ih]

theorem Sending.txPacket_end (sending : Sending s packet sent rem) (all : sent ++ rem = d)
    (short : d.length < atmAal5MaxDataLen) (last : rem.length < atmCellDataSize)
    (aligned : sent.length % atmCellDataSize = 0)
    (enough : cellCount rem.length ≤ arrivals.length) :
    ∃ s', txPacket vc arrivals s = some
        (segment vc (cellCount rem.length) (rem ++ pduTail vc d), s') ∧
      Sent s packet (arrivals.take (cellCount rem.length)).flatten s' := by
  subst all
  rw [length_append] at short
  have width : atmCellDataSize = 48 := rfl
  have aligned' : sent.length % 48 = 0 := aligned
  have count := cellCount_eq rem.length
  obtain ⟨s', made, drained, account⟩ := sending.finish vc short last
  have size : (rem ++ pduTail vc (sent ++ rem)).length =
      rem.length + (padLen (sent.length + rem.length) + 8) := by
    rw [length_append, length_pduTail, length_append]
  obtain ⟨batch, more, rfl⟩ : ∃ batch more, arrivals = batch :: more :=
    exists_cons_of_length_pos (by omega)
  by_cases room : rem.length ≤ 40
  · have pad : padLen (sent ++ rem).length = 40 - rem.length := by
      rw [length_append, padLen_eq]
      omega
    have one : cellCount rem.length = 0 + 1 := by omega
    rw [atmAal5TxCompletePDU_trailer vc drained.length_eq drained.crc room pad] at made
    have between : BetweenPackets
        { s' with txLength := 0, txCrc := aal5CrcInit, pTxPacket := none } :=
      ⟨rfl, drained.noPad, drained.noData, drained.noBuffer, rfl, rfl⟩
    rw [length_append] at pad
    refine ⟨_, ?_, between.enqueueAll batch, ?_⟩
    · rw [txPacket_last vc more batch made between, one, segment, segment, if_pos rfl,
        take_of_length_le (by omega)]
    · rw [account_enqueueAll, one, take_succ_cons, take_zero, flatten_cons,
        flatten_nil, append_nil, ← account]
      rfl
  · have pad : padLen (sent ++ rem).length = 88 - rem.length := by
      rw [length_append, padLen_eq]
      omega
    have two : cellCount rem.length = 0 + 1 + 1 := by omega
    obtain ⟨batch', more, rfl⟩ : ∃ batch' more', more = batch' :: more' :=
      exists_cons_of_length_pos (by rw [length_cons] at enough; omega)
    have full : atmAal5TxCompletePDU vc s' rem =
        (⟨vc.hdr atmHdrPtiNoCongSDU0,
            (rem ++ pduTail vc (sent ++ rem)).take atmCellDataSize⟩,
          { s' with txCrc := aal5Crc s'.txCrc (cellPad rem), bTxPadNext := true }) := by
      rw [pduTail_split vc last pad, ← append_assoc, take_left' (length_cellPad last),
        atmAal5TxCompletePDU, if_pos (by rw [atmCellDataSize]; omega)]
      rfl
    rw [full] at made
    have padded : Padded (TxState.enqueueAll { s' with
        txCrc := aal5Crc s'.txCrc (cellPad rem)
        bTxPadNext := true
        pTxPacket := none } batch) (sent ++ rem).length (sent ++ rem ++ cellPad rem) := by
      rw [enqueueAll_eq]
      refine ⟨rfl, rfl, drained.noData, drained.noBuffer, drained.length_eq, ?_⟩
      rw [aal5Crc_append, ← drained.crc]
    have trailer := padded.trailer vc last pad
    have between : BetweenPackets { TxState.enqueueAll { s' with
        txCrc := aal5Crc s'.txCrc (cellPad rem)
        bTxPadNext := true
        pTxPacket := none } batch with
        bTxPadNext := false, txLength := 0, txCrc := aal5CrcInit } :=
      ⟨padded.idle, rfl, padded.noData, padded.noBuffer, rfl, rfl⟩
    rw [length_append] at pad
    refine ⟨_, ?_, between.enqueueAll batch', ?_⟩
    · rw [txPacket_more vc made (.inr rfl) (txPacket_last vc more batch' trailer between), two,
        segment, segment, segment, if_neg (by omega), if_pos rfl,
        take_of_length_le (l := (rem ++ _).drop _) (by rw [length_drop]; omega)]
    · rw [account_enqueueAll, two, take_succ_cons, take_succ_cons, take_zero,
        flatten_cons, flatten_cons, flatten_nil, append_nil,
        Account.queue_append, ← account]
      exact congrArg (Account.queue · batch') (account_enqueueAll _ batch)

theorem Sending.txPacket_of_end (more : List Cell) (fits : d.length ≤ atmAal5MaxDataLen)
    (atEnd : ∀ {s : TxState} {sent rem : List UInt8} {arrivals : List (List (Nat × Packet))},
      Sending s packet sent rem → sent ++ rem = d → rem.length < atmCellDataSize →
      sent.length % atmCellDataSize = 0 →
      cellCount rem.length + more.length ≤ arrivals.length →
      ∃ s', txPacket vc arrivals s = some
          (segment vc (cellCount rem.length) (rem ++ pduTail vc d) ++ more, s') ∧
        Sent s packet (arrivals.take (cellCount rem.length + more.length)).flatten s')
    (sending : Sending s packet sent rem) (all : sent ++ rem = d)
    (aligned : sent.length % atmCellDataSize = 0)
    (enough : cellCount rem.length + more.length ≤ arrivals.length) :
    ∃ s', txPacket vc arrivals s = some
        (segment vc (cellCount rem.length) (rem ++ pduTail vc d) ++ more, s') ∧
      Sent s packet (arrivals.take (cellCount rem.length + more.length)).flatten s' := by
  induction hk : rem.length using Nat.strong_induction_on
    generalizing s sent rem arrivals with
  | _ k ih =>
    subst hk
    by_cases last : rem.length < atmCellDataSize
    · exact atEnd sending all last aligned enough
    have width : atmCellDataSize = 48 := rfl
    have aligned' : sent.length % 48 = 0 := aligned
    have full : atmCellDataSize ≤ rem.length := by omega
    have fewer : cellCount rem.length = cellCount (rem.drop atmCellDataSize).length + 1 := by
      rw [cellCount_eq, length_drop, cellCount_eq]
      omega
    have more_cells : cellCount (rem.drop atmCellDataSize).length ≠ 0 := by
      rw [cellCount_eq]
      omega
    have total : sent.length + rem.length ≤ atmAal5MaxDataLen := by
      rw [← length_append, all]
      exact fits
    obtain ⟨s', made, sending', account⟩ := sending.fill vc total full
    obtain ⟨batch, later, rfl⟩ : ∃ batch later, arrivals = batch :: later :=
      exists_cons_of_length_pos (by omega)
    obtain ⟨s'', rest, isSent⟩ := ih (rem.drop atmCellDataSize).length
      (by rw [length_drop]; omega) (sending'.enqueueAll batch)
      (by rw [append_assoc, take_append_drop, all])
      (by simp only [length_append, length_take, width]; omega)
      (show cellCount (rem.drop atmCellDataSize).length + more.length ≤ later.length by
        rw [length_cons] at enough
        omega) rfl
    refine ⟨s'', ?_, ?_⟩
    · rw [txPacket_more vc made (.inl (by rw [sending'.inHand]; exact Option.some_ne_none _))
        rest, fewer, segment, if_neg more_cells, take_append_of_le_length full,
        drop_append_of_le_length full, cons_append]
    · rw [fewer, Nat.add_right_comm, take_succ_cons, flatten_cons]
      exact isSent.more account

theorem takeHighest_enqueue {priority : Nat} (h : priority < maxTxPriorities) (packet : Packet) :
    takeHighest (atmAal5VcInit.enqueue priority packet).dlistTxWaiting =
      some (packet, atmAal5VcInit.dlistTxWaiting) := by
  have h : priority < 4 := h
  interval_cases priority <;> rfl

theorem BetweenPackets.start {rest : List (List UInt8)}
    {waiting : List (List Packet)} (between : BetweenPackets s)
    (next : takeHighest s.dlistTxWaiting = some (buffer :: rest, waiting))
    (fits : (buffer :: rest).flatten.length ≤ atmAal5MaxDataLen) :
    ∃ s', (∀ arrivals, txPacket vc arrivals s = txPacket vc arrivals s') ∧
      Sending s' (buffer :: rest) [] (buffer :: rest).flatten ∧
      s'.account = { s.account with waiting := waiting } := by
  obtain ⟨idle, noPad, noData, noBuffer, noLength, crc⟩ := between
  have room : s.txLength + buffer.length ≤ atmAal5MaxDataLen := by
    rw [flatten_cons, length_append] at fits
    omega
  have start : txCellLoop vc s [] = _ := txCellLoop_start (by decide) noData
    (by rw [noLength]; decide) (by rw [noBuffer]; rfl) idle next
  rw [openBuffer_of_fits (by exact room)] at start
  let opened : TxState := { s with
    dlistTxWaiting := waiting
    currHighSubPri := (highestWaiting s.dlistTxWaiting).getD 0
    pTxPacket := some (buffer :: rest)
    pTxCellBuffer := buffer :: rest
    pTxCellData := buffer
    dataLeft := buffer.length
    txLength := s.txLength + buffer.length }
  have made : atmAal5TxCell vc s = atmAal5TxCell vc opened := by
    rw [atmAal5TxCell, noPad, if_neg (by simp), start, atmAal5TxCell]
    exact (if_neg (by simp [opened, noPad])).symm
  refine ⟨opened, fun arrivals => ?_, ⟨rfl, noPad, rfl, rfl, ?_, crc⟩, rfl⟩
  · cases arrivals with
    | nil => rfl
    | cons batch arrivals => rw [txPacket, txPacket, made]
  · grind

/-- **A packet on a channel.** A channel between two packets makes the cells of the next packet's
protocol data unit, completes the packet and is between two packets again. -/
theorem BetweenPackets.txPacket_eq {waiting : List (List Packet)} (between : BetweenPackets s)
    (next : takeHighest s.dlistTxWaiting = some (buffer :: rest, waiting))
    (short : (buffer :: rest).flatten.length < atmAal5MaxDataLen)
    (enough : cellCount (buffer :: rest).flatten.length ≤ arrivals.length) :
    ∃ s', txPacket vc arrivals s = some (segment vc (cellCount (buffer :: rest).flatten.length)
        (pdu vc (buffer :: rest).flatten), s') ∧
      BetweenPackets s' ∧
      s'.account = ({ s.account with waiting := waiting }.complete (buffer :: rest)).queue
        (arrivals.take (cellCount (buffer :: rest).flatten.length)).flatten := by
  obtain ⟨opened, same, sending, account⟩ := between.start vc next short.le
  obtain ⟨s', cells, isSent⟩ := sending.txPacket_of_end vc [] short.le
    (fun sending' all last aligned enough' => by
      simpa using sending'.txPacket_end vc all short last aligned enough')
    rfl rfl enough
  refine ⟨s', ?_, isSent.between, ?_⟩
  · rw [same, cells, append_nil]
    rfl
  · rw [isSent.account, account]
    rfl

theorem betweenPackets_enqueue (priority : Nat) (packet : Packet) :
    BetweenPackets (atmAal5VcInit.enqueue priority packet) :=
  ⟨rfl, rfl, rfl, rfl, rfl, rfl⟩

theorem txCells_of_txPacket {cells : List Cell}
    (packetCells : txPacket vc (replicate calls []) s = some (cells, s')) :
    txCells vc calls s = cells ++ txCells vc (calls - cells.length) s' := by
  induction calls generalizing s cells with
  | zero => cases packetCells
  | succ calls ih =>
    rw [replicate_succ, txPacket] at packetCells
    rw [txCells]
    split at packetCells
    · cases packetCells
    · rename_i cell next made
      split at packetCells
      · cases packetCells
        rfl
      · obtain ⟨⟨rest, last⟩, found, same⟩ := Option.map_eq_some_iff.mp packetCells
        cases same
        have tail : txCells vc calls next = rest ++ txCells vc (calls - rest.length) s' :=
          ih found
        rw [tail, length_cons, Nat.add_sub_add_right, cons_append]

/-- **The cells of a packet** are the segments of its protocol data unit, for every way of holding
its bytes in buffers and every number of calls that exceeds the number of cells. -/
theorem txCells_packet {priority : Nat} (h : priority < maxTxPriorities)
    (short : (buffer :: rest).flatten.length < atmAal5MaxDataLen)
    (enough : cellCount (buffer :: rest).flatten.length < calls) :
    txCells vc calls (atmAal5VcInit.enqueue priority (buffer :: rest)) =
      segment vc (cellCount (buffer :: rest).flatten.length)
        (pdu vc (buffer :: rest).flatten) := by
  have enough' : cellCount (buffer :: rest).flatten.length ≤
      (replicate calls ([] : List (Nat × Packet))).length := by
    rw [length_replicate]
    omega
  obtain ⟨s', cells, between, account⟩ :=
    (betweenPackets_enqueue priority (buffer :: rest)).txPacket_eq vc (takeHighest_enqueue h _)
      short enough'
  have empty : takeHighest s'.account.waiting = none := by
    rw [account, take_replicate, flatten_replicate_nil]
    rfl
  rw [txCells_of_txPacket vc cells, txCells_idle vc between empty, append_nil]

end Middle

end EchoLife.Aal5
