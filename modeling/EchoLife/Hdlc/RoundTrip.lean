import EchoLife.Hdlc.Receiver
import EchoLife.Hdlc.Transmitter

/-!
# HDLC framing round trip

A stream that `hdlcByteTx` produces, cut in any way, goes to `hdlcByteRx`. The transmitter's side
says that the stream is the front part of the encoding of the frames, or the encoding and idle
flags; the receiver's side says that the frame ends are those of `FlagFraming`'s reader; the reader
gives the bodies back, and the checksum accepts each of them.
-/

namespace EchoLife.Hdlc

open List Function FlagFraming

def delivered (f : TxFrame) : BufDesc where
  bufFlags := kDslFramerEndOfFrame ||| (2 <<< kDslFramerExtraByteShift)
  bytes := f.payload ++ fcs f.payload

def emptyAbort : BufDesc where
  bufFlags := kDslFramerAbortFrame ||| (2 <<< kDslFramerExtraByteShift)
  bytes := []

theorem reported_body (f : TxFrame) : reported f.body = delivered f := by
  simp [reported, delivered, TxFrame.body, crc16_fcs]

theorem reported_nil : reported [] = emptyAbort := by
  simp [reported, emptyAbort, crc16_nil_ne.symm]

theorem run_encode_prefix (frames : List TxFrame) (idle : Nat) {stream : List UInt8}
    (part : stream <+: encode frames ++ replicate idle hdlcByteFlag) :
    (byteCode.run .hunt stream).2.map reported <+:
      frames.map delivered ++ replicate idle emptyAbort := by
  have longer : encode frames ++ replicate idle hdlcByteFlag <+:
      encode frames ++ replicate (idle + 1) byteCode.flag :=
    (prefix_append_right_inj _).mpr ⟨[hdlcByteFlag], by
      rw [replicate_add]
      rfl⟩
  have whole := byteCode.run_hunt_bodies (frames.map TxFrame.body) idle
  have bodies := (byteCode.run_prefix .hunt (part.trans longer)).map reported
  rw [encode, whole] at bodies
  simpa [reported_body, reported_nil, comp_def] using bodies

theorem run_encode_idle (frames : List TxFrame) (idle : Nat) :
    (byteCode.run .hunt (encode frames ++ replicate (idle + 1) hdlcByteFlag)).2.map reported =
      frames.map delivered ++ replicate idle emptyAbort := by
  have whole := byteCode.run_hunt_bodies (frames.map TxFrame.body) idle
  rw [encode, show hdlcByteFlag = byteCode.flag from rfl, whole]
  simp [reported_body, reported_nil, comp_def]

theorem exists_take_replicate {α : Type} {l xs : List α} {a : α} {n : Nat}
    (part : l <+: xs ++ replicate n a) :
    ∃ k m, k ≤ xs.length ∧ l = xs.take k ++ replicate m a := by
  refine ⟨min l.length xs.length, min (l.length - xs.length) n, Nat.min_le_right _ _, ?_⟩
  calc
    l = (xs ++ replicate n a).take l.length := prefix_iff_eq_take.mp part
    _ = xs.take (min l.length xs.length) ++ replicate (min (l.length - xs.length) n) a := by
      rw [take_append, take_replicate, take_eq_take_min]

/-- **Round trip.** Whatever the sizes of the blocks that the transmitter fills, the cut of the
stream and the buffers of the receiver are, the frame ends reported are the first frames in
order, each with its payload and check sequence, and empty aborts; all frames are reported once
more bytes were asked for than they encode to. -/
theorem hdlc_roundTrip {setup : UInt32} (plain : setup &&& kHdlcSpecialAddrCtrl = 0)
    (frames : List TxFrame) {sizes : List Nat} (positive : ∀ n ∈ sizes, 0 < n) :
    ∃ tx stream, txCalls setup (hdlcByteTxReset ⟨[], frames⟩) sizes = some (tx, stream) ∧
      ∀ bufLen : Nat → Nat, (∀ k, 0 < bufLen k) →
      ∀ rx : RxCtrl, rx.rxFrameState = .startFlag → rx.room = 0 →
      ∀ blocks : List (List UInt8), blocks.flatten = stream → (∀ src ∈ blocks, src ≠ []) →
      ∃ rx' handed k aborts, rxCalls bufLen setup rx blocks = some (rx', handed) ∧
        k ≤ frames.length ∧
        frameEnds handed = (frames.take k).map delivered ++ replicate aborts emptyAbort ∧
        ((encode frames).length < sizes.sum → k = frames.length) := by
  obtain ⟨tx, stream, calls, idle, out, done, full⟩ :=
    txCalls_spec plain (hdlcByteTxReset ⟨[], frames⟩) sizes positive ⟨rfl, rfl⟩
  rw [show (hdlcByteTxReset ⟨[], frames⟩).txFrameState = .startFlag from rfl, toSend_reset] at out
  refine ⟨tx, stream, calls, ?_⟩
  intro bufLen some_room rx start no_room blocks cut nonempty
  obtain ⟨rx', handed, received, ends⟩ :=
    frameEnds_rxCalls plain some_room start no_room blocks nonempty
  rw [cut] at ends
  cases idle with
  | zero =>
    -- Nothing but bytes of the frames was asked for.
    have part := run_encode_prefix frames 0 ⟨_, out⟩
    rw [← ends] at part
    obtain ⟨k, aborts, le, taken⟩ := exists_take_replicate part
    refine ⟨rx', handed, k, aborts, received, by simpa using le, by rw [taken, map_take],
      fun more => ?_⟩
    have length := congrArg List.length out
    simp at length
    omega
  | succ idle =>
    rw [done (Nat.succ_pos idle), append_nil] at out
    rw [out, run_encode_idle] at ends
    exact ⟨rx', handed, frames.length, idle, received, Nat.le_refl _, by simp [ends],
      fun _ => rfl⟩

def reservedFrame : TxFrame where
  startNewFrame := true
  first := ⟨[0x7E], by decide⟩
  rest := [⟨[0x7D, 0x01], by decide⟩]

/-- The frame comes out of blocks of one and two bytes and of a large one. -/
theorem hdlc_roundTrip_reservedFrame :
    (0 : UInt32) &&& kHdlcSpecialAddrCtrl = 0 ∧ (∀ n ∈ [1, 2, 40], 0 < n) ∧
      (encode [reservedFrame]).length < [1, 2, 40].sum ∧
      ∃ tx stream, txCalls 0 (hdlcByteTxReset ⟨[], [reservedFrame]⟩) [1, 2, 40] =
          some (tx, stream) ∧
        ∀ blocks : List (List UInt8), blocks.flatten = stream → (∀ src ∈ blocks, src ≠ []) →
        ∃ rx' handed aborts, rxCalls (fun _ => 3) 0 hdlcByteRxReset blocks = some (rx', handed) ∧
          frameEnds handed = delivered reservedFrame :: replicate aborts emptyAbort := by
  have more : (encode [reservedFrame]).length < [1, 2, 40].sum := by decide +kernel
  obtain ⟨tx, stream, calls, received⟩ :=
    hdlc_roundTrip (show (0 : UInt32) &&& kHdlcSpecialAddrCtrl = 0 by decide) [reservedFrame]
      (show ∀ n ∈ [1, 2, 40], 0 < n by decide)
  refine ⟨by decide, by decide, more, tx, stream, calls, ?_⟩
  intro blocks cut nonempty
  obtain ⟨rx', handed, k, aborts, calls', -, ends, all⟩ :=
    received (fun _ => 3) (fun _ => by decide) hdlcByteRxReset rfl rfl blocks cut nonempty
  rw [all more] at ends
  exact ⟨rx', handed, aborts, calls', ends⟩

end EchoLife.Hdlc
