import Mathlib
import EchoLife.Aal5.Segmentation

/-!
# The format of the cells of a packet

`Format` says what the cells of a packet are, apart from the code. A packet of exactly 65535 bytes
is taken for one that is continued, and a cell with an empty packet follows its own
(`BetweenPackets.txPacket_max`). For every other length the cells have the format, and the packet
is completed once (`txPacket_format_iff`).
-/

namespace EchoLife.Aal5

open List Option TableCrc

/-! ## Channels between two packets -/

inductive TxReachable (vc : VcParams) : TxState → Prop where
  | init (s : TxState) : TxReachable vc s.vcInit
  | enqueue {s : TxState} (priority : Nat) (packet : Packet) :
      TxReachable vc s → TxReachable vc (s.enqueue priority packet)
  | txCell {s : TxState} : TxReachable vc s → TxReachable vc (atmAal5TxCell vc s).2
  | flush {s : TxState} : TxReachable vc s → TxReachable vc (atmAal5VcTxFlush s)

structure Consistent (s : TxState) : Prop where
  noBytes : s.pTxPacket = none → s.dataLeft = 0 ∧ s.pTxCellBuffer = []
  fresh : s.pTxPacket = none → s.bTxPadNext = false → s.txLength = 0 ∧ s.txCrc = aal5CrcInit

theorem consistent_vcInit (s : TxState) : Consistent s.vcInit :=
  ⟨fun _ => ⟨rfl, rfl⟩, fun _ _ => ⟨rfl, rfl⟩⟩

theorem completePDU_cases (vc : VcParams) (s : TxState) (data : List UInt8) :
    (∃ crc, (atmAal5TxCompletePDU vc s data).2 = { s with txCrc := crc, bTxPadNext := true }) ∨
      (atmAal5TxCompletePDU vc s data).2 = { s with txLength := 0, txCrc := aal5CrcInit } := by
  rw [atmAal5TxCompletePDU]
  split
  · exact .inl ⟨_, rfl⟩
  · exact .inr rfl

variable {s : TxState} {arrivals : List (List (Nat × Packet))}

theorem consistent_of_inHand (inHand : s.pTxPacket ≠ none) : Consistent s :=
  ⟨fun idle => absurd idle inHand, fun idle => absurd idle inHand⟩

theorem nextSDU_cases (consistent : Consistent s) (noPad : s.bTxPadNext = false)
    (idle : s.pTxPacket = none) :
    Consistent (atmAal5TxNextSDU { s with pTxCellBuffer := [] }) ∧
      (atmAal5TxNextSDU { s with pTxCellBuffer := [] }).bTxPadNext = false ∧
      ((atmAal5TxNextSDU { s with pTxCellBuffer := [] }).pTxCellBuffer ≠ [] →
        (atmAal5TxNextSDU { s with pTxCellBuffer := [] }).pTxPacket ≠ none) := by
  unfold atmAal5TxNextSDU
  split
  · refine ⟨⟨fun _ => ⟨(consistent.noBytes idle).1, rfl⟩, fun _ _ => consistent.fresh idle noPad⟩,
      noPad, fun buffers => absurd rfl buffers⟩
  · exact ⟨consistent_of_inHand (some_ne_none _), noPad, fun _ => some_ne_none _⟩

theorem consistent_txCellLoop (vc : VcParams) (s : TxState) (data : List UInt8)
    (consistent : Consistent s) (noPad : s.bTxPadNext = false) :
    Consistent (txCellLoop vc s data).2 := by
  fun_induction txCellLoop vc s data with
  | case1 s data full => exact consistent
  | case2 s data room left cut done =>
    have inHand : s.pTxPacket ≠ none := by
      intro idle
      have fresh := (consistent.fresh idle noPad).1
      rw [cut] at fresh
      cases fresh
    have kept : done.2.pTxPacket = s.pTxPacket := by
      rcases completePDU_cases vc s data with ⟨crc, padded⟩ | trailer
      · exact (congrArg TxState.pTxPacket padded).trans rfl
      · exact (congrArg TxState.pTxPacket trailer).trans rfl
    exact consistent_of_inHand (kept.symm ▸ inHand)
  | case3 s data room left uncut buffer rest next ih =>
    refine ih (consistent_of_inHand fun idle => ?_) noPad
    rw [(consistent.noBytes idle).2] at next
    cases next
  | case4 s data room left uncut next packet inHand done =>
    rcases completePDU_cases vc
      (atmLayerSendComplete { s with pTxCellBuffer := [] } packet) data with
      ⟨crc, padded⟩ | trailer
    · have state : done.2 = _ := padded
      rw [state]
      exact ⟨fun _ => ⟨left, rfl⟩, fun _ noPad' => (nomatch noPad')⟩
    · have state : done.2 = _ := trailer
      rw [state]
      exact ⟨fun _ => ⟨left, rfl⟩, fun _ _ => ⟨rfl, rfl⟩⟩
  | case5 s data room left uncut next idle sdu =>
    exact (nextSDU_cases consistent noPad idle).1
  | case6 s data room left uncut next idle buffer rest sdu ih =>
    obtain ⟨-, noPad', inHand⟩ := nextSDU_cases consistent noPad idle
    exact ih (consistent_of_inHand (inHand (by rw [sdu]; exact cons_ne_nil _ _))) noPad'
  | case7 s data room left b rest bytes ih =>
    exact ih (consistent_of_inHand fun idle => left (consistent.noBytes idle).1) noPad
  | case8 s data room left bytes => exact consistent

theorem consistent_txCell (vc : VcParams) (consistent : Consistent s) :
    Consistent (atmAal5TxCell vc s).2 := by
  rw [atmAal5TxCell]
  split
  · exact ⟨consistent.noBytes, fun _ _ => ⟨rfl, rfl⟩⟩
  · rename_i noPad
    exact consistent_txCellLoop vc s [] consistent (by simpa using noPad)

theorem TxReachable.consistent {vc : VcParams} (reachable : TxReachable vc s) : Consistent s := by
  induction reachable with
  | init s => exact consistent_vcInit s
  | enqueue priority packet _ ih => exact ⟨ih.noBytes, ih.fresh⟩
  | txCell _ ih => exact consistent_txCell vc ih
  | flush _ _ => exact consistent_vcInit _

theorem TxReachable.between {vc : VcParams} (reachable : TxReachable vc s)
    (idle : s.pTxPacket = none) (noPad : s.bTxPadNext = false) : BetweenPackets s := by
  obtain ⟨noData, noBuffer⟩ := reachable.consistent.noBytes idle
  obtain ⟨noLength, crc⟩ := reachable.consistent.fresh idle noPad
  exact ⟨idle, noPad, noData, noBuffer, noLength, crc⟩

/-! ## The format -/

def Format.body (vc : VcParams) (d : List UInt8) (pad : Nat) : List UInt8 :=
  d ++ replicate pad 0 ++
    [vc.uui, vc.cpi, UInt8.ofNat (d.length / 256), UInt8.ofNat (d.length % 256)]

structure Format (vc : VcParams) (d : List UInt8) (cells : List Cell) : Prop where
  count : cells.length = (d.length + 8) ⌈/⌉ 48
  size : ∀ cell ∈ cells, cell.data.length = 48
  payload : ∃ pad, IsLeast {pad | 48 ∣ d.length + pad + 8} pad ∧
    cells.flatMap Cell.data =
      Format.body vc d pad ++ msbBytes (crc32 (Format.body vc d pad))
  pti : cells.map Cell.pti = replicate (cells.length - 1) 0 ++ [1]
  residue : aal5Crc aal5CrcInit (cells.flatMap Cell.data) = aal5GoodCrc

def SendsPacket (vc : VcParams) (s : TxState) (packet : Packet)
    (arrivals : List (List (Nat × Packet))) : Prop :=
  ∃ cells s', txPacket vc arrivals s = some (cells, s') ∧ Format vc packet.flatten cells ∧
    s'.completed = s.completed ++ [packet]

section Cells

variable (vc : VcParams)

/-! ## The segments have the format -/

theorem data_segment {k : Nat} {bytes : List UInt8} (size : bytes.length = atmCellDataSize * k) :
    (segment vc k bytes).flatMap Cell.data = bytes ∧
      ∀ cell ∈ segment vc k bytes, cell.data.length = atmCellDataSize := by
  induction k generalizing bytes with
  | zero =>
    have empty : bytes = [] := eq_nil_of_length_eq_zero size
    subst empty
    exact ⟨rfl, fun cell member => absurd member not_mem_nil⟩
  | succ k ih =>
    rw [Nat.mul_succ] at size
    have behind : (bytes.drop atmCellDataSize).length = atmCellDataSize * k := by
      rw [length_drop, size, Nat.add_sub_cancel]
    obtain ⟨data, sizes⟩ := ih behind
    constructor
    · rw [segment, flatMap_cons, data, take_append_drop]
    · intro cell member
      rcases mem_cons.mp member with rfl | later
      · rw [length_take, size]
        omega
      · exact sizes cell later

theorem pti_segment (k : Nat) (bytes : List UInt8) :
    (segment vc (k + 1) bytes).map Cell.pti = replicate k 0 ++ [1] := by
  have header (pt : UInt32) (data : List UInt8) : Cell.pti ⟨vc.hdr pt, data⟩ = pt &&& 0x7 :=
    pti_makeCellHeader _ _ _ _ _
  induction k generalizing bytes with
  | zero => rw [segment, segment, map_cons, header]; rfl
  | succ k ih => rw [segment, map_cons, ih, if_neg (Nat.succ_ne_zero k), header]; rfl

theorem isLeast_padLen (n : Nat) : IsLeast {pad | 48 ∣ n + pad + 8} (padLen n) := by
  rw [padLen_eq]
  constructor
  · show 48 ∣ n + (48 - (n + 8) % 48) % 48 + 8
    omega
  · intro pad fills
    have : 48 ∣ n + pad + 8 := fills
    omega

theorem trailerHead_eq (d : List UInt8) :
    d ++ trailerHead vc (padLen d.length + 8) d.length = Format.body vc d (padLen d.length) := by
  have high : d.length >>> 8 = d.length / 256 := Nat.shiftRight_eq_div_pow _ _
  have low : d.length &&& 0xFF = d.length % 256 := Nat.and_two_pow_sub_one_eq_mod _ 8
  rw [trailerHead, Format.body, high, low, Nat.add_sub_cancel, append_assoc]
  rfl

theorem pdu_eq (d : List UInt8) :
    pdu vc d = Format.body vc d (padLen d.length) ++
      msbBytes (crc32 (Format.body vc d (padLen d.length))) := by
  rw [pdu, pduTail, ← append_assoc, trailerHead_eq, aal5Crc_eq_crc32]

theorem cellCount_eq_ceilDiv (n : Nat) : cellCount n = (n + 8) ⌈/⌉ 48 := by
  rfl

theorem format_segment (d : List UInt8) :
    Format vc d (segment vc (cellCount d.length) (pdu vc d)) := by
  obtain ⟨data, sizes⟩ := data_segment vc (length_pdu vc d)
  obtain ⟨k, count⟩ : ∃ k, cellCount d.length = k + 1 :=
    ⟨cellCount d.length - 1, by rw [cellCount_eq]; omega⟩
  refine ⟨?_, sizes, ⟨padLen d.length, isLeast_padLen _, ?_⟩, ?_, ?_⟩
  · rw [length_segment, cellCount_eq_ceilDiv]
  · rw [data, pdu_eq]
  · rw [length_segment, count, pti_segment, Nat.add_sub_cancel]
  · rw [data, goodCrc_pdu]

/-! ## A packet of the maximal length -/

variable {s : TxState} {packet : Packet} {sent rem : List UInt8}

theorem Sending.cut (sending : Sending s packet sent rem) {d : List UInt8} (all : sent ++ rem = d)
    (max : d.length = atmAal5MaxDataLen) (last : rem.length < atmCellDataSize)
    (aligned : sent.length % atmCellDataSize = 0) :
    ∃ s', atmAal5TxCell vc s =
        (some ⟨vc.hdr atmHdrPtiNoCongSDU1, rem ++ pduTail vc d⟩, s') ∧
      Sending s' packet [] [] ∧ s'.account = s.account := by
  subst all
  have max' : sent.length + rem.length = 65535 := by
    rw [← length_append]
    exact max
  have last' : rem.length < 48 := last
  have aligned' : sent.length % 48 = 0 := aligned
  obtain ⟨s', loop, ⟨inHand, noPad, window, rem_eq, length_eq, crc⟩, account, noData, -⟩ :=
    sending.drain vc (by rw [← length_append]; exact max.le) last
  obtain ⟨noBytes, behind⟩ := append_eq_nil_iff.mp rem_eq
  rw [behind, length_nil, Nat.add_zero, Nat.add_zero] at length_eq
  have trailer := atmAal5TxCompletePDU_trailer vc length_eq crc
    (show rem.length ≤ 40 by omega)
    (by rw [length_append, padLen_eq]; omega)
  refine ⟨TxState.reopenBuffer { s' with txLength := 0, txCrc := aal5CrcInit }, ?_,
    ⟨inHand, noPad, ?_, rem_eq, ?_, rfl⟩, account⟩
  · rw [loop, txCellLoop_cut last noData (length_eq.trans max), trailer]
  · simp only [TxState.reopenBuffer, noBytes, length_nil]
    rfl
  · simp only [TxState.reopenBuffer, noBytes, behind, length_nil]
    rfl

theorem Sending.txPacket_cut {d : List UInt8} (sending : Sending s packet sent rem)
    (all : sent ++ rem = d) (max : d.length = atmAal5MaxDataLen)
    (last : rem.length < atmCellDataSize) (aligned : sent.length % atmCellDataSize = 0)
    (enough : cellCount rem.length + (segment vc 1 (pdu vc [])).length ≤ arrivals.length) :
    ∃ s', txPacket vc arrivals s = some
        (segment vc (cellCount rem.length) (rem ++ pduTail vc d) ++ segment vc 1 (pdu vc []),
          s') ∧
      Sent s packet (arrivals.take
        (cellCount rem.length + (segment vc 1 (pdu vc [])).length)).flatten s' := by
  have max' : sent.length + rem.length = 65535 := by
    rw [← length_append, all]
    exact max
  have last' : rem.length < 48 := last
  have aligned' : sent.length % 48 = 0 := aligned
  have one : cellCount rem.length = 0 + 1 := by
    rw [cellCount_eq]
    omega
  have whole : (rem ++ pduTail vc d).length ≤ atmCellDataSize := by
    rw [length_append, length_pduTail, max, padLen_eq, atmCellDataSize, atmAal5MaxDataLen]
    omega
  rw [one, length_segment] at enough ⊢
  obtain ⟨batch, later, rfl⟩ : ∃ batch later, arrivals = batch :: later :=
    exists_cons_of_length_pos (by omega)
  obtain ⟨s', made, empty, account⟩ := sending.cut vc all max last aligned
  have oneMore : cellCount ([] : List UInt8).length ≤ later.length := by
    exact Nat.le_of_succ_le_succ enough
  obtain ⟨s'', cells, isSent⟩ :=
    (empty.enqueueAll batch).txPacket_end vc rfl (by decide) (by decide) rfl oneMore
  refine ⟨s'', ?_, isSent.more account⟩
  rw [txPacket_more vc made (.inl (by rw [empty.inHand]; exact some_ne_none _)) cells,
    segment, segment, if_pos rfl, take_of_length_le whole]
  rfl

theorem BetweenPackets.txPacket_max {buffer : List UInt8} {rest : List (List UInt8)}
    {waiting : List (List Packet)} (between : BetweenPackets s)
    (next : takeHighest s.dlistTxWaiting = some (buffer :: rest, waiting))
    (max : (buffer :: rest).flatten.length = atmAal5MaxDataLen)
    (enough : cellCount (buffer :: rest).flatten.length + 1 ≤ arrivals.length) :
    ∃ s', txPacket vc arrivals s = some
        (segment vc (cellCount (buffer :: rest).flatten.length)
            (pdu vc (buffer :: rest).flatten) ++ segment vc 1 (pdu vc []), s') ∧
      s'.completed = s.completed ++ [buffer :: rest] := by
  obtain ⟨opened, same, sending, account⟩ := between.start vc next max.le
  obtain ⟨s', cells, isSent⟩ := sending.txPacket_of_end vc (segment vc 1 (pdu vc [])) max.le
    (fun sending' all last aligned enough' =>
      sending'.txPacket_cut vc all max last aligned enough')
    rfl rfl enough
  refine ⟨s', ?_, ?_⟩
  · rw [same, cells]
    rfl
  · have ended := isSent.account
    rw [account] at ended
    exact congrArg Account.completed ended

theorem txPacket_append {result : List Cell × TxState} (more : List (List (Nat × Packet)))
    (found : txPacket vc arrivals s = some result) :
    txPacket vc (arrivals ++ more) s = some result := by
  induction arrivals generalizing s result with
  | nil => cases found
  | cons batch arrivals ih =>
    rw [cons_append, txPacket]
    rw [txPacket] at found
    split at found
    · cases found
    · split at found
      · rename_i ended
        rw [if_pos ended, found]
      · rename_i unfinished
        obtain ⟨rest, restFound, same⟩ := map_eq_some_iff.mp found
        rw [if_neg unfinished, ih restFound, ← same]
        rfl

end Cells

/-- **The cells of a packet.** Whatever a channel has done before and whatever arrives meanwhile,
the next packet, of at most 65535 bytes in any buffers, is sent in its format and completed once,
exactly when it is shorter than 65535 bytes. -/
theorem txPacket_format_iff (vc : VcParams) (s : TxState) (packet : Packet)
    (waiting : List (List Packet)) (arrivals : List (List (Nat × Packet)))
    (reachable : TxReachable vc s) (idle : s.pTxPacket = none) (noPad : s.bTxPadNext = false)
    (next : takeHighest s.dlistTxWaiting = some (packet, waiting))
    (bytes : 0 < packet.flatten.length) (fits : packet.flatten.length ≤ 65535)
    (enough : (packet.flatten.length + 8) ⌈/⌉ 48 ≤ arrivals.length) :
    SendsPacket vc s packet arrivals ↔ packet.flatten.length ≠ 65535 := by
  have between := reachable.between idle noPad
  obtain ⟨buffer, rest, rfl⟩ : ∃ buffer rest, packet = buffer :: rest := by
    cases packet with
    | nil => simp at bytes
    | cons buffer rest => exact ⟨buffer, rest, rfl⟩
  rw [← cellCount_eq_ceilDiv] at enough
  constructor
  · rintro ⟨cells, s', found, format, -⟩ max
    -- One call more is enough for all cells that the channel makes of the packet.
    have enough' : cellCount (buffer :: rest).flatten.length + 1 ≤ (arrivals ++ [[]]).length := by
      rw [length_append, length_singleton]
      omega
    obtain ⟨s'', found', -⟩ := between.txPacket_max vc next max enough'
    rw [txPacket_append vc [[]] found] at found'
    have same : cells = _ := congrArg Prod.fst (some.inj found')
    have count := format.count
    rw [same, length_append, length_segment, length_segment, cellCount_eq_ceilDiv] at count
    omega
  · intro short
    obtain ⟨s', found, -, account⟩ :=
      between.txPacket_eq vc next (lt_of_le_of_ne fits short) enough
    exact ⟨_, s', found, format_segment vc _, congrArg Account.completed account⟩

/-- Seven bytes in three buffers, the second one empty. -/
theorem txPacket_format_iff_sevenBytes :
    SendsPacket ⟨5, 0, 1, 2⟩ (atmAal5VcInit.enqueue 2 [[1, 2, 3], [], [4, 5, 6, 7]])
      [[1, 2, 3], [], [4, 5, 6, 7]] [[(3, [[9]])]] :=
  (txPacket_format_iff ⟨5, 0, 1, 2⟩ _ _ (replicate 4 []) _
    (.enqueue 2 _ (.init atmAal5VcInit)) rfl rfl rfl (by decide) (by decide)
    (by rw [← cellCount_eq_ceilDiv]; decide)).mpr (by decide)

/-- A packet of 65535 bytes that waits alone has 1367 cells instead of 1366. -/
theorem txPacket_maximal_extraCell :
    (65535 + 8) ⌈/⌉ 48 = 1366 ∧
      (∃ cells s', txPacket ⟨5, 0, 0, 0⟩ (replicate 1367 [])
          (atmAal5VcInit.enqueue 0 [replicate 65535 7]) = some (cells, s') ∧
        cells.length = 1367) ∧
      ¬ SendsPacket ⟨5, 0, 0, 0⟩ (atmAal5VcInit.enqueue 0 [replicate 65535 7])
        [replicate 65535 7] (replicate 1367 []) := by
  have max : [replicate 65535 (7 : UInt8)].flatten.length = atmAal5MaxDataLen := by
    rw [flatten_singleton, length_replicate, atmAal5MaxDataLen]
  have count : cellCount [replicate 65535 (7 : UInt8)].flatten.length = 1366 := by
    rw [max]
    decide
  have ceil : (65535 + 8) ⌈/⌉ 48 = 1366 := by
    rw [← cellCount_eq_ceilDiv]
    decide
  have enough : cellCount [replicate 65535 (7 : UInt8)].flatten.length + 1 ≤
      (replicate 1367 ([] : List (Nat × Packet))).length := by
    rw [count, length_replicate]
  obtain ⟨s', found, -⟩ := (betweenPackets_enqueue 0 [replicate 65535 7]).txPacket_max
    ⟨5, 0, 0, 0⟩ (takeHighest_enqueue (by decide) _) max enough
  refine ⟨ceil, ⟨_, s', found, ?_⟩, ?_⟩
  · rw [length_append, length_segment, length_segment, count]
  · rintro ⟨cells, s'', found', format, -⟩
    rw [found] at found'
    have same : _ = cells := congrArg Prod.fst (some.inj found')
    have length := format.count
    rw [← same, length_append, length_segment, length_segment, count, max] at length
    exact absurd (length.trans ceil) (by decide)

end EchoLife.Aal5
