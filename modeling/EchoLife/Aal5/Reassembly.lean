import EchoLife.Aal5.Segmentation
import Mathlib.Data.List.GetD

/-!
# AAL5 reassembly

`atmAal5RxCell` appends the cells of a packet to the buffer of a free frame. At the last cell it
reports success when the checksum is good and no more than 48 bytes follow the packet, which rejects
every packet whose trailer needs a cell of its own. So a packet of `n` bytes comes back exactly
when `n % 48 ≤ 40` (`roundTrip_iff`).
-/

namespace EchoLife.Aal5

open List TableCrc

/-! ## The receiver -/

inductive ReceiveStatus where
  | success
  | crcError
  | bigPktError
  deriving Repr, DecidableEq

structure RxFrame where
  data : List UInt8
  bufSize : Nat
  /-- Length field of the buffer that is passed on to the application. -/
  ulDataLen : Nat
  deriving Repr, DecidableEq

structure RxState where
  pRxPacket : Option RxFrame
  rxCrc : UInt32
  rxFrameList : List RxFrame
  deriving Repr, DecidableEq

structure VccDataParms where
  baReceiveStatus : ReceiveStatus
  ulDataLen : Nat
  data : List UInt8
  deriving Repr, DecidableEq

def RxState.getFrame (s : RxState) : RxState :=
  match s.pRxPacket with
  | some _ => s
  | none =>
    { pRxPacket := s.rxFrameList.head?
      rxCrc := aal5CrcInit
      rxFrameList := s.rxFrameList.tail }

def readUint16 (bytes : List UInt8) (pos : Nat) : Nat :=
  (bytes.getD pos 0).toNat * 256 + (bytes.getD (pos + 1) 0).toNat

def atmAal5RxCell (s₀ : RxState) (cell : Cell) : Option VccDataParms × RxState :=
  let s := s₀.getFrame
  match s.pRxPacket with
  | none => (none, s)
  | some frame =>
    let len := frame.data.length + atmCellDataSize
    if len < frame.bufSize then
      let data := frame.data ++ cell.data
      let rxCrc := aal5Crc s.rxCrc cell.data
      if cell.pti = atmHdrPtiNoCongSDU1 ∨ cell.pti = atmHdrPtiCongSDU1 then
        let ulDataLen := readUint16 data (len - 6)
        let padLen := UInt32.ofNat len - UInt32.ofNat ulDataLen
        let status :=
          if aal5GoodCrc = rxCrc ∧ padLen ≤ UInt32.ofNat atmCellDataSize then
            ReceiveStatus.success
          else ReceiveStatus.crcError
        (some ⟨status, ulDataLen, data⟩, { s with pRxPacket := none, rxCrc := rxCrc })
      else (none, { s with pRxPacket := some { frame with data := data }, rxCrc := rxCrc })
    else
      (some ⟨.bigPktError, frame.ulDataLen, frame.data⟩, { s with pRxPacket := none })

def rxCells : RxState → List Cell → List (Option VccDataParms)
  | _, [] => []
  | s, cell :: cells => (atmAal5RxCell s cell).1 :: rxCells (atmAal5RxCell s cell).2 cells

/-! ## Receiving the segments of a byte string -/

structure Receiving (s : RxState) (bytes : List UInt8) (bufSize : Nat) : Prop where
  frame : ∃ frame, s.getFrame.pRxPacket = some frame ∧ frame.data = bytes ∧
    frame.bufSize = bufSize
  crc : s.getFrame.rxCrc = aal5Crc aal5CrcInit bytes

theorem getFrame_of_some {s : RxState} {frame : RxFrame} (h : s.pRxPacket = some frame) :
    s.getFrame = s := by
  rw [RxState.getFrame, h]

section Receive

variable (vc : VcParams) {s : RxState} {bytes : List UInt8} {bufSize : Nat}

theorem Receiving.middle (data : List UInt8) (receiving : Receiving s bytes bufSize)
    (room : bytes.length + atmCellDataSize < bufSize) :
    (atmAal5RxCell s ⟨vc.hdr atmHdrPtiNoCongSDU0, data⟩).1 = none ∧
      Receiving (atmAal5RxCell s ⟨vc.hdr atmHdrPtiNoCongSDU0, data⟩).2 (bytes ++ data) bufSize := by
  obtain ⟨⟨frame, found, rfl, rfl⟩, crc⟩ := receiving
  have pti : ¬ (Cell.pti ⟨vc.hdr atmHdrPtiNoCongSDU0, data⟩ = atmHdrPtiNoCongSDU1 ∨
      Cell.pti ⟨vc.hdr atmHdrPtiNoCongSDU0, data⟩ = atmHdrPtiCongSDU1) := by
    rw [VcParams.hdr, pti_makeCellHeader]
    decide
  have cell : atmAal5RxCell s ⟨vc.hdr atmHdrPtiNoCongSDU0, data⟩ = (none, { s.getFrame with
      pRxPacket := some { frame with data := frame.data ++ data }
      rxCrc := aal5Crc s.getFrame.rxCrc data }) := by
    simp only [atmAal5RxCell, found, room, if_true, pti, if_false]
  rw [cell]
  refine ⟨rfl, ⟨{ frame with data := frame.data ++ data }, ?_, rfl, rfl⟩, ?_⟩
  · rw [getFrame_of_some rfl]
  · rw [getFrame_of_some rfl, aal5Crc_append, ← crc]

def lastStatus (bytes : List UInt8) : ReceiveStatus :=
  if aal5GoodCrc = aal5Crc aal5CrcInit bytes ∧
      UInt32.ofNat bytes.length - UInt32.ofNat (readUint16 bytes (bytes.length - 6)) ≤
        UInt32.ofNat atmCellDataSize then .success
  else .crcError

theorem Receiving.last (data : List UInt8) (receiving : Receiving s bytes bufSize)
    (room : bytes.length + atmCellDataSize < bufSize) (full : data.length = atmCellDataSize) :
    (atmAal5RxCell s ⟨vc.hdr atmHdrPtiNoCongSDU1, data⟩).1 =
      some ⟨lastStatus (bytes ++ data),
        readUint16 (bytes ++ data) ((bytes ++ data).length - 6), bytes ++ data⟩ := by
  obtain ⟨⟨frame, found, rfl, rfl⟩, crc⟩ := receiving
  have pti : Cell.pti ⟨vc.hdr atmHdrPtiNoCongSDU1, data⟩ = atmHdrPtiNoCongSDU1 ∨
      Cell.pti ⟨vc.hdr atmHdrPtiNoCongSDU1, data⟩ = atmHdrPtiCongSDU1 := by
    rw [VcParams.hdr, pti_makeCellHeader]
    decide
  simp only [atmAal5RxCell, found, room, if_true, pti, crc, lastStatus, aal5Crc_append,
    length_append, full]

/-- **Receiving segments.** The cells of a byte string report nothing but the last one, which
reports the whole string. -/
theorem Receiving.rxCells_segment (k : Nat) (more : List UInt8)
    (receiving : Receiving s bytes bufSize) (room : bytes.length + more.length < bufSize)
    (full : more.length = atmCellDataSize * (k + 1)) :
    rxCells s (segment vc (k + 1) more) =
      replicate k none ++ [some ⟨lastStatus (bytes ++ more),
        readUint16 (bytes ++ more) ((bytes ++ more).length - 6), bytes ++ more⟩] := by
  induction k generalizing s bytes more with
  | zero =>
    have width : more.length = atmCellDataSize := by rw [full]; rfl
    have cell := receiving.last vc more (by omega) width
    rw [segment, segment, if_pos rfl, take_of_length_le width.le, rxCells, rxCells, cell]
    rfl
  | succ k ih =>
    have width : atmCellDataSize ≤ more.length := by
      rw [full]
      exact Nat.le_mul_of_pos_right _ (by omega)
    have taken : (more.take atmCellDataSize).length = atmCellDataSize := by
      rw [length_take]
      omega
    obtain ⟨nothing, receiving'⟩ :=
      receiving.middle vc (more.take atmCellDataSize) (by omega)
    have rest := ih (more.drop atmCellDataSize) receiving'
      (by rw [length_append, taken, length_drop]; omega)
      (by rw [length_drop, full, Nat.mul_succ]; omega)
    rw [segment, if_neg (by omega), rxCells, nothing, rest, append_assoc,
      take_append_drop, replicate_succ]
    rfl

/-! ## Segmentation followed by reassembly -/

theorem length_bytes {n : Nat} (short : n < atmAal5MaxDataLen) :
    (UInt8.ofNat (n >>> 8)).toNat * 256 + (UInt8.ofNat (n &&& 0xFF)).toNat = n := by
  have bound : n < 65535 := short
  have low : n &&& 0xFF = n % 256 := Nat.and_two_pow_sub_one_eq_mod n 8
  rw [low, Nat.shiftRight_eq_div_pow, UInt8.toNat_ofNat', UInt8.toNat_ofNat']
  omega

theorem readUint16_pdu (d : List UInt8) (short : d.length < atmAal5MaxDataLen) :
    readUint16 (pdu vc d) ((pdu vc d).length - 6) = d.length := by
  obtain ⟨front, crc, split⟩ : ∃ front crc, pdu vc d = front ++ ([vc.uui, vc.cpi,
      UInt8.ofNat (d.length >>> 8), UInt8.ofNat (d.length &&& 0xFF)] ++ msbBytes crc) := by
    refine ⟨d ++ replicate (padLen d.length + 8 - 8) atmAal5Pad, aal5CrcFinal
      (aal5Crc aal5CrcInit (d ++ trailerHead vc (padLen d.length + 8) d.length)), ?_⟩
    simp only [pdu, pduTail, trailerHead, append_assoc]
  have pos : (pdu vc d).length - 6 = front.length + 2 := by
    rw [split, length_append]
    simp only [msbBytes, length_append, length_cons, length_nil]
    omega
  have behind (i : Nat) (tail : List UInt8) :
      (front ++ tail).getD (front.length + i) 0 = tail.getD i 0 := by
    rw [getD_append_right _ _ _ _ (by omega), Nat.add_sub_cancel_left]
  rw [pos, split, readUint16, Nat.add_assoc, behind, behind]
  exact length_bytes short

theorem lastStatus_pdu (d : List UInt8) (short : d.length < atmAal5MaxDataLen) :
    lastStatus (pdu vc d) = if d.length % 48 ≤ 40 then .success else .crcError := by
  have size : (pdu vc d).length = 48 * ((d.length + 55) / 48) := length_pdu vc d
  have pad : (UInt32.ofNat (pdu vc d).length - UInt32.ofNat d.length ≤
      UInt32.ofNat atmCellDataSize) ↔ d.length % 48 ≤ 40 := by
    rw [UInt32.le_iff_toNat_le, UInt32.toNat_sub, UInt32.toNat_ofNat', UInt32.toNat_ofNat',
      UInt32.toNat_ofNat', size, atmCellDataSize]
    omega
  rw [lastStatus, readUint16_pdu vc d short, goodCrc_pdu]
  simp only [pad, true_and]

end Receive

theorem txCells_stable (vc : VcParams) {calls : Nat} {s : TxState}
    (ended : (txCells vc calls s).length < calls) (more : Nat) :
    txCells vc (calls + more) s = txCells vc calls s := by
  induction calls generalizing s with
  | zero => exact absurd ended (by omega)
  | succ calls ih =>
    rw [Nat.succ_add, txCells, txCells] at *
    split
    · rfl
    · rename_i cell s' made
      rw [made] at ended
      rw [ih (by simpa using ended)]

/-- The packet comes back: the calls that follow make cells until one makes none, and when the
receiver takes these cells in order, exactly the last one reports a packet, with success, the
length and the bytes that were sent. -/
def RoundTrip (vc : VcParams) (priority : Nat) (packet : Packet) (rx : RxState) : Prop :=
  ∃ calls, (txCells vc calls (atmAal5VcInit.enqueue priority packet)).length < calls ∧
    ∃ parms, rxCells rx (txCells vc calls (atmAal5VcInit.enqueue priority packet)) =
        replicate
          ((txCells vc calls (atmAal5VcInit.enqueue priority packet)).length - 1) none ++
          [some parms] ∧
      parms.baReceiveStatus = .success ∧ parms.ulDataLen = packet.flatten.length ∧
      parms.data.take packet.flatten.length = packet.flatten

/-- A channel that is ready for a packet: a free frame with more room than the whole protocol data
unit of `n` bytes. -/
structure Ready (rx : RxState) (n : Nat) : Prop where
  idle : rx.pRxPacket = none
  free : ∃ frame more, rx.rxFrameList = frame :: more ∧ frame.data = [] ∧
    atmCellDataSize * cellCount n < frame.bufSize

theorem Ready.receiving {rx : RxState} {n : Nat} (ready : Ready rx n) :
    ∃ bufSize, Receiving rx [] bufSize ∧ atmCellDataSize * cellCount n < bufSize := by
  obtain ⟨idle, frame, more, free, empty, room⟩ := ready
  have start : rx.getFrame = ⟨some frame, aal5CrcInit, more⟩ := by
    rw [RxState.getFrame, idle, free]
    rfl
  exact ⟨frame.bufSize, ⟨⟨frame, by rw [start], empty, rfl⟩, by rw [start]; rfl⟩, room⟩

theorem packet_result (vc : VcParams) {priority calls : Nat} {packet : Packet} {rx : RxState}
    (h : priority < maxTxPriorities) (nonempty : 1 ≤ packet.flatten.length)
    (short : packet.flatten.length < atmAal5MaxDataLen) (ready : Ready rx packet.flatten.length)
    (ended : (txCells vc calls (atmAal5VcInit.enqueue priority packet)).length < calls) :
    rxCells rx (txCells vc calls (atmAal5VcInit.enqueue priority packet)) =
      replicate
          ((txCells vc calls (atmAal5VcInit.enqueue priority packet)).length - 1) none ++
        [some ⟨if packet.flatten.length % 48 ≤ 40 then .success else .crcError,
          packet.flatten.length, pdu vc packet.flatten⟩] := by
  have cells : txCells vc calls (atmAal5VcInit.enqueue priority packet) =
      segment vc (cellCount packet.flatten.length) (pdu vc packet.flatten) := by
    rw [← txCells_stable vc ended (cellCount packet.flatten.length + 1)]
    cases packet with
    | nil => simp at nonempty
    | cons buffer rest => exact txCells_packet vc h short (by omega)
  obtain ⟨bufSize, receiving, room⟩ := ready.receiving
  obtain ⟨k, count⟩ : ∃ k, cellCount packet.flatten.length = k + 1 :=
    ⟨cellCount packet.flatten.length - 1, by rw [cellCount_eq]; omega⟩
  have size := length_pdu vc packet.flatten
  have result := receiving.rxCells_segment vc k (pdu vc packet.flatten)
    (by rw [length_nil, size]; omega) (by rw [size, count])
  rw [cells, length_segment, count, result, nil_append, readUint16_pdu vc _ short,
    lastStatus_pdu vc _ short]
  rfl

/-- **The round trip.** A packet of `n` bytes comes back from segmentation and reassembly exactly
when padding and trailer fit behind its last bytes in one cell. -/
theorem roundTrip_iff (vc : VcParams) (priority : Nat) (packet : Packet) (rx : RxState)
    (h : priority < maxTxPriorities) (nonempty : 1 ≤ packet.flatten.length)
    (short : packet.flatten.length < 65535) (ready : Ready rx packet.flatten.length) :
    RoundTrip vc priority packet rx ↔ packet.flatten.length % 48 ≤ 40 := by
  constructor
  · rintro ⟨calls, ended, parms, result, success, -, -⟩
    rw [packet_result vc h nonempty short ready ended] at result
    have same := append_cancel_left result
    by_contra long
    rw [if_neg long] at same
    simp only [cons.injEq, Option.some.injEq, and_true] at same
    rw [← same] at success
    cases success
  · intro fits
    obtain ⟨buffer, rest, rfl⟩ : ∃ buffer rest, packet = buffer :: rest := by
      cases packet with
      | nil => simp at nonempty
      | cons buffer rest => exact ⟨buffer, rest, rfl⟩
    have cells := txCells_packet vc h short (Nat.lt_succ_self _)
    have ended : (txCells vc (cellCount (buffer :: rest).flatten.length + 1)
        (atmAal5VcInit.enqueue priority (buffer :: rest))).length <
          cellCount (buffer :: rest).flatten.length + 1 := by
      rw [cells, length_segment]
      omega
    refine ⟨_, ended, _, packet_result vc h nonempty short ready ended, if_pos fits, rfl, ?_⟩
    rw [pdu, take_left' rfl]

def freeFrame : RxState := ⟨none, aal5CrcInit, [⟨[], 200, 0⟩]⟩

theorem roundTrip_forty_bytes :
    RoundTrip ⟨0, 0, 0, 0⟩ 0 [replicate 40 7] freeFrame :=
  (roundTrip_iff ⟨0, 0, 0, 0⟩ 0 [replicate 40 7] freeFrame (by decide) (by decide) (by decide)
    ⟨rfl, ⟨_, _, rfl, rfl, by decide⟩⟩).mpr (by decide)

/-- Forty-one bytes do not come back. -/
theorem not_roundTrip_fortyOne_bytes :
    Ready freeFrame 41 ∧ ¬ RoundTrip ⟨0, 0, 0, 0⟩ 0 [replicate 41 7] freeFrame := by
  have ready : Ready freeFrame 41 := ⟨rfl, ⟨_, _, rfl, rfl, by decide⟩⟩
  refine ⟨ready, ?_⟩
  rintro ⟨calls, ended, parms, result, success, -, -⟩
  have reported := packet_result ⟨0, 0, 0, 0⟩ (by decide) (by decide) (by decide) ready ended
  have same := append_cancel_left (reported.symm.trans result)
  simp only [cons.injEq, Option.some.injEq, and_true] at same
  rw [← same] at success
  exact absurd success (by decide)

end EchoLife.Aal5
