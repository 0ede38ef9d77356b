import EchoLife.Dsl.ClearEoc
import EchoLife.Dsl.RxFramer

/-!
# Clear EOC messages from one end to the other

The two ends meet at the stream of frames: the bytes that the PHY accepted from G.997 are a front
part of one, and from a front part the receiver closes the bodies of the first frames, in whatever
blocks it arrives (`clearEoc_delivered`).
-/

namespace EchoLife.Dsl

open List Hdlc FlagFraming

def whole (payload : List UInt8) : List UInt8 := payload ++ fcs payload

theorem map_payload_whole (texts : List (List UInt8)) :
    (texts.map whole).map payload = texts := by
  have two (data : List UInt8) : (fcs data).length = 2 := rfl
  have cut (data : List UInt8) : payload (whole data) = data := by
    rw [payload, whole, length_append, two, Nat.add_sub_cancel, take_left]
  rw [map_map, show payload ∘ whole = id from funext cut, map_id]

theorem accepted_whole (data : List UInt8) :
    accepted [whole data] = ([data].filter (· ≠ [])).map whole := by
  have good : hdlc16GoodCrc = crc16 (whole data) := (crc16_fcs data).symm
  have two : (fcs data).length = 2 := rfl
  have long : 2 < (whole data).length ↔ data ≠ [] := by
    rw [whole, length_append, two, ← length_pos_iff]
    omega
  simp only [accepted, filter_cons, filter_nil, long, ← good, true_and, decide_eq_true_eq]
  split <;> rfl

theorem texts_of_delivers {size : Nat} {bodies : List (List UInt8)} {frames : List RxFrame}
    (delivers : Forall₂ (Delivers size) bodies frames) :
    frames.map (·.buffers.flatten) = bodies.map payload := by
  induction delivers with
  | nil => rfl
  | cons first _ ih => simp only [map_cons, first.1, ih]

/-- A flag behind the stream closes the last frame. -/
theorem HdlcStream.reads {payloads : List (List UInt8)} {stream : List UInt8}
    (before : HdlcStream payloads stream) :
    (byteCode.run .hunt (stream ++ [hdlcByteFlag])).1 = .frame [] false ∧
      accepted (byteCode.run .hunt (stream ++ [hdlcByteFlag])).2 =
        (payloads.filter (· ≠ [])).map whole := by
  induction before with
  | nil => exact ⟨rfl, rfl⟩
  | idle before ih =>
    rw [byteCode.run_append, ih.1, accepted, filter_append, ← accepted, ih.2]
    exact ⟨rfl, append_nil _⟩
  | @frame payloads stream before data ih =>
    have framed : stream ++ TxLink.hdlcFrame data ++ [hdlcByteFlag] =
        stream ++ [hdlcByteFlag] ++ [whole data].flatMap fun b =>
          byteCode.stuff b ++ [byteCode.flag] := by
      simp [TxLink.hdlcFrame, whole]
      rfl
    have closed := accepted_whole data
    rw [framed, byteCode.run_append, ih.1, byteCode.run_bodies]
    rw [accepted] at closed
    refine ⟨rfl, ?_⟩
    rw [accepted, filter_append, ← accepted, ih.2, closed, filter_append, map_append]

/-- What the far end indicates when the bytes arrive in these blocks. -/
def farEnd (nRxBufSize : Nat) (blocks : List (List UInt8)) : Option (List (List UInt8)) :=
  (rxCalls (fun _ => nRxBufSize) g997HdlcSetup hdlcByteRxReset blocks).map fun received =>
    ((rxFramerInit nRxBufSize).receive received.2).indicated.map (·.buffers.flatten)

theorem farEnd_eq {nRxBufSize : Nat} (size_two : 2 ≤ nRxBufSize) {blocks : List (List UInt8)}
    (nonempty : ∀ src ∈ blocks, src ≠ []) :
    farEnd nRxBufSize blocks =
      some ((accepted (byteCode.run .hunt blocks.flatten).2).map payload) := by
  have some_size : 0 < nRxBufSize := Nat.lt_of_lt_of_le Nat.two_pos size_two
  obtain ⟨ctrl, handed, calls, ends⟩ := frameEnds_rxCalls setup_plain (fun _ => some_size)
    (show hdlcByteRxReset.rxFrameState = .startFlag from rfl) rfl blocks nonempty
  have sized : Sized nRxBufSize hdlcByteRxReset.rxFrameState hdlcByteRxReset := rfl
  have fits := rxCalls_sized setup_plain some_size sized calls
  have start : Between nRxBufSize (rxFramerInit nRxBufSize) [] := ⟨rfl, .inl ⟨rfl, rfl⟩⟩
  obtain ⟨frames, log, delivers⟩ := receive_delivers size_two start fits
  rw [← frameEnds, ends, goodEnds_reported] at delivers
  rw [farEnd, calls, Option.map_some, log, ← texts_of_delivers delivers]
  rfl

/-- The far end indicates the payloads of the first frames, and of all of them once it has the flag
behind the last. -/
def Delivered (nRxBufSize : Nat) (payloads blocks : List (List UInt8)) : Prop :=
  ∃ texts, farEnd nRxBufSize blocks = some texts ∧ texts <+: payloads.filter (· ≠ []) ∧
    ∀ stream, HdlcStream payloads stream → blocks.flatten = stream ++ [hdlcByteFlag] →
      texts = payloads.filter (· ≠ [])

theorem HdlcStream.delivered {payloads blocks : List (List UInt8)} {stream : List UInt8}
    (sent : HdlcStream payloads stream) {nRxBufSize : Nat} (size_two : 2 ≤ nRxBufSize)
    (nonempty : ∀ src ∈ blocks, src ≠ []) (front : blocks.flatten <+: stream) :
    Delivered nRxBufSize payloads blocks := by
  refine ⟨_, farEnd_eq size_two nonempty, ?_, ?_⟩
  · rw [← map_payload_whole (payloads.filter _), ← sent.reads.2]
    refine IsPrefix.map payload (IsPrefix.filter _ ?_)
    exact byteCode.run_prefix .hunt (front.trans (prefix_append _ _))
  · intro stream framed complete
    rw [complete, framed.reads.2, map_payload_whole]

end EchoLife.Dsl
