import EchoLife.Hdlc.Framer

/-!
# HDLC receiver

`hdlcByteRx` undoes the escaping of a block of any size and hands the bytes to a done handler,
buffer by buffer. `Represents` relates a receiver to the reader of `FlagFraming`; every iteration
is a run of the reader (`hdlcByteRxIter_spec`), so that the frames do not depend on how the stream
is cut (`frameEnds_rxCalls`).
-/

namespace EchoLife.Hdlc

open List FlagFraming Code

/-! ## The receiver -/

def kDslFramerEndOfFrame : UInt32 := 0x2

def kDslFramerAbortFrame : UInt32 := 0x4

def kDslFramerExtraByteShift : UInt32 := 3

structure BufDesc where
  bufFlags : UInt32
  bytes : List UInt8
  deriving DecidableEq, Repr

/-- Receiving side of a framer. The current buffer is given by the bytes in front of `pRxData` and
the room between `pRxData` and `pRxDataEnd`; `given` counts the buffers asked for. -/
structure RxCtrl where
  rxFrameState : FrameState
  rxCrc : UInt32
  rxEscChar : Bool
  filled : List UInt8
  room : Nat
  given : Nat
  deriving DecidableEq, Repr

def hdlcByteRxReset : RxCtrl where
  rxFrameState := .startFlag
  rxCrc := hdlc16CrcInit
  rxEscChar := false
  filled := []
  room := 0
  given := 0

/-- What `HdlcByteRxData` leaves: the bytes stored, the checksum, whether an escape byte came last,
whether a flag was met, and the bytes not read. -/
structure RxChunk where
  stored : List UInt8
  crc : UInt32
  esc : Bool
  eof : Bool
  rest : List UInt8
  deriving DecidableEq, Repr

def hdlcByteRxData : UInt32 → List UInt8 → Nat → RxChunk
  | crc, src, 0 => ⟨[], crc, false, false, src⟩
  | crc, [], _ + 1 => ⟨[], crc, false, false, []⟩
  | crc, b :: src, n + 1 =>
    if b = hdlcByteFlag then ⟨[], crc, false, true, src⟩
    else if b = hdlcByteEsc then
      match n, src with
      | n + 1, c :: src =>
        let b := c ^^^ 0x20
        let chunk := hdlcByteRxData (hdlc16UpdateCrc crc b) src n
        { chunk with stored := b :: chunk.stored }
      | _, src => ⟨[], crc, true, false, src⟩
    else
      let chunk := hdlcByteRxData (hdlc16UpdateCrc crc b) src n
      { chunk with stored := b :: chunk.stored }

variable {src opened : List UInt8} {ctrl : RxCtrl} {r : Reader UInt8}

section Receive

-- `bufLen k` is the size of the `k`-th buffer that the handler gives.
variable (bufLen : Nat → Nat)

def hdlcFramerRxGetData (ctrl : RxCtrl) : RxCtrl :=
  { ctrl with
    filled := []
    room := bufLen ctrl.given
    given := ctrl.given + 1 }

/-- What one pass of the loop of `HdlcByteRx` gives: the state, the buffers handed over and the
bytes not read. -/
structure RxIter where
  frameState : FrameState
  ctrl : RxCtrl
  handed : List BufDesc
  rest : List UInt8

def RxCtrl.afterChunk (ctrl : RxCtrl) (chunk : RxChunk) : RxCtrl :=
  { ctrl with
    rxCrc := chunk.crc
    rxEscChar := chunk.esc
    filled := ctrl.filled ++ chunk.stored
    room := ctrl.room - chunk.stored.length }

def hdlcByteStartData (ctrl : RxCtrl) (src : List UInt8) : RxIter :=
  let ctrl := if ctrl.room = 0 then hdlcFramerRxGetData bufLen ctrl else ctrl
  if ctrl.room = 0 then ⟨.startFlag, ctrl, [], src⟩
  else ⟨.data, { ctrl with rxEscChar := false }, [], src⟩

def hdlcByteRxHandle (ctrl : RxCtrl) (chunk : RxChunk) : RxIter :=
  let ctrl := ctrl.afterChunk chunk
  if chunk.eof then
    let bufFlags :=
      if hdlc16GoodCrc = ctrl.rxCrc then kDslFramerEndOfFrame else kDslFramerAbortFrame
    ⟨.address, { ctrl with room := 0 },
      [⟨bufFlags ||| (2 <<< kDslFramerExtraByteShift), ctrl.filled⟩], chunk.rest⟩
  else if ctrl.room = 0 then
    let handed := [⟨0, ctrl.filled⟩]
    let ctrl := hdlcFramerRxGetData bufLen ctrl
    ⟨if ctrl.room = 0 then .startFlag else .data, ctrl, handed, chunk.rest⟩
  else ⟨.data, ctrl, [], chunk.rest⟩

def hdlcByteRxIter (setup : UInt32) (frameState : FrameState) (ctrl : RxCtrl) (b : UInt8)
    (src : List UInt8) : RxIter :=
  match frameState with
  | .startFlag => ⟨if b = hdlcByteFlag then .address else .startFlag, ctrl, [], src⟩
  | .address =>
    if setup &&& kHdlcSpecialAddrCtrl = 0 then
      hdlcByteStartData bufLen { ctrl with rxCrc := hdlc16CrcInit } (b :: src)
    else if b = hdlcByteFlag then ⟨.address, ctrl, [], src⟩
    else ⟨.control, { ctrl with rxCrc := hdlc16UpdateCrc hdlc16CrcInit b }, [], src⟩
  | .control =>
    if b = hdlcByteFlag then ⟨.address, ctrl, [], src⟩
    else hdlcByteStartData bufLen { ctrl with rxCrc := hdlc16UpdateCrc ctrl.rxCrc b } src
  | .data =>
    if ctrl.rxEscChar then
      let c := b ^^^ 0x20
      ⟨.data,
        { ctrl with
          filled := ctrl.filled ++ [c]
          room := ctrl.room - 1
          rxCrc := hdlc16UpdateCrc ctrl.rxCrc c
          rxEscChar := false },
        [], src⟩
    else
      hdlcByteRxHandle bufLen ctrl
        (hdlcByteRxData ctrl.rxCrc (b :: src) (min ctrl.room (src.length + 1)))
  -- The receiver is never in the transmitter's states.
  | _ => ⟨frameState, ctrl, [], src⟩

/-! ## Bytes of a buffer -/

/-- A chunk of at most `n` bytes is a run of the reader: up to the flag, or to the end of the part
that may be read. -/
structure RxChunk.Reads (chunk : RxChunk) (crc : UInt32) (src : List UInt8) (n : Nat) : Prop where
  run : ∃ used, src = used ++ chunk.rest ∧ (n ≠ 0 → used ≠ []) ∧
    ∀ body, byteCode.run (.frame body false) used =
      if chunk.eof then (.frame [] false, [body ++ chunk.stored])
      else (.frame (body ++ chunk.stored) chunk.esc, [])
  crc_eq : chunk.crc = chunk.stored.foldl hdlc16UpdateCrc crc
  stored_le : chunk.stored.length ≤ n
  stored_lt : chunk.esc = true → chunk.stored.length < n

theorem RxChunk.Reads.store {chunk : RxChunk} {crc : UInt32} {m n : Nat} {b : UInt8}
    (reads : chunk.Reads (hdlc16UpdateCrc crc b) src m) (first : List UInt8) (budget : m < n)
    (some_first : first ≠ [])
    (step : ∀ body, byteCode.run (.frame body false) first = (.frame (body ++ [b]) false, [])) :
    RxChunk.Reads { chunk with stored := b :: chunk.stored } crc (first ++ src) n where
  run := by
    obtain ⟨used, split, -, run⟩ := reads.run
    refine ⟨first ++ used, by rw [split]; simp, by simp [some_first], fun body => ?_⟩
    rw [run_append, step, run]
    split <;> simp
  crc_eq := reads.crc_eq
  stored_le := Nat.lt_of_le_of_lt reads.stored_le budget
  stored_lt last := Nat.lt_of_le_of_lt (reads.stored_lt last) budget

theorem hdlcByteRxData_reads (crc : UInt32) (src : List UInt8) (n : Nat) (fits : n ≤ src.length) :
    (hdlcByteRxData crc src n).Reads crc src n := by
  fun_induction hdlcByteRxData crc src n with
  | case1 crc src => exact ⟨⟨[], by simp⟩, rfl, by simp, by simp⟩
  | case2 crc n => simp at fits
  | case3 crc src n =>
    refine ⟨⟨[hdlcByteFlag], by simp, by simp, fun body => ?_⟩, rfl, by simp, by simp⟩
    simp [run_cons, step, byteCode]
  | case4 crc n c src b chunk no_flag ih =>
    refine (ih (by simp at fits; omega)).store [hdlcByteEsc, c] (by omega) (by simp)
      fun body => ?_
    simp [run_cons, step, byteCode, no_flag, b]
  | case5 crc n src last no_flag =>
    refine ⟨⟨[hdlcByteEsc], by simp, by simp, fun body => ?_⟩, rfl, by simp, by simp⟩
    simp [run_cons, step, byteCode, no_flag]
  | case6 crc b src n no_flag no_esc chunk ih =>
    refine (ih (by simp at fits; omega)).store [b] (by omega) (by simp) fun body => ?_
    simp [run_cons, step, byteCode, no_flag, no_esc]

/-! ## The loop -/

def waits (frameState : FrameState) (ctrl : RxCtrl) : Nat :=
  if frameState = .address ∨ (frameState = .data ∧ ctrl.rxEscChar = false ∧ ctrl.room = 0) then 1
  else 0

theorem waits_le (frameState : FrameState) (ctrl : RxCtrl) : waits frameState ctrl ≤ 1 := by
  unfold waits
  split <;> simp

theorem hdlcByteStartData_waits (ctrl : RxCtrl) (src : List UInt8) :
    (hdlcByteStartData bufLen ctrl src).rest = src ∧
      waits (hdlcByteStartData bufLen ctrl src).frameState
        (hdlcByteStartData bufLen ctrl src).ctrl = 0 := by
  unfold hdlcByteStartData
  generalize (if ctrl.room = 0 then hdlcFramerRxGetData bufLen ctrl else ctrl) = ctrl'
  by_cases full : ctrl'.room = 0 <;> simp [full, waits]

theorem hdlcByteRxHandle_rest (ctrl : RxCtrl) (chunk : RxChunk) :
    (hdlcByteRxHandle bufLen ctrl chunk).rest = chunk.rest := by
  by_cases eof : chunk.eof = true
  · simp [hdlcByteRxHandle, eof]
  · by_cases full : (ctrl.afterChunk chunk).room = 0 <;> simp [hdlcByteRxHandle, eof, full]

theorem hdlcByteRxIter_progress (setup : UInt32) (frameState : FrameState) (ctrl : RxCtrl)
    (b : UInt8) (src : List UInt8) :
    let it := hdlcByteRxIter bufLen setup frameState ctrl b src
    2 * it.rest.length + waits it.frameState it.ctrl <
      2 * (b :: src).length + waits frameState ctrl := by
  intro it
  have le := waits_le it.frameState it.ctrl
  suffices read : it.rest.length ≤ src.length ∨
      (it.rest = b :: src ∧ waits it.frameState it.ctrl = 0 ∧ waits frameState ctrl = 1) by
    rw [length_cons]
    rcases read with shorter | ⟨same, after, before⟩
    · omega
    · rw [same, after, before, length_cons]
      omega
  cases frameState with
  | startFlag | fcs1 | fcs2 | endFlag => exact Or.inl (Nat.le_refl _)
  | address =>
    by_cases plain : setup &&& kHdlcSpecialAddrCtrl = 0
    · have start := hdlcByteStartData_waits bufLen { ctrl with rxCrc := hdlc16CrcInit } (b :: src)
      right
      simpa [it, hdlcByteRxIter, plain, waits] using start
    · left
      by_cases flag : b = hdlcByteFlag <;> simp [it, hdlcByteRxIter, plain, flag]
  | control =>
    left
    by_cases flag : b = hdlcByteFlag
    · simp [it, hdlcByteRxIter, flag]
    · simp [it, hdlcByteRxIter, flag, hdlcByteStartData_waits]
  | data =>
    by_cases escaped : ctrl.rxEscChar = true
    · left
      simp [it, hdlcByteRxIter, escaped]
    · by_cases full : ctrl.room = 0
      · right
        by_cases refused : bufLen ctrl.given = 0 <;>
          simp [it, hdlcByteRxIter, escaped, full, hdlcByteRxData, hdlcByteRxHandle,
            RxCtrl.afterChunk, hdlcFramerRxGetData, waits, refused]
      · left
        obtain ⟨used, split, some_used, -⟩ := (hdlcByteRxData_reads ctrl.rxCrc (b :: src)
          (min ctrl.room (src.length + 1)) (Nat.min_le_right _ _)).run
        have shorter := congrArg List.length split
        have := length_pos_iff.mpr (some_used (by omega))
        rw [length_append, length_cons] at shorter
        simp only [it, hdlcByteRxIter, escaped, hdlcByteRxHandle_rest, Bool.false_eq_true,
          if_false]
        omega

def hdlcByteRxLoop (setup : UInt32) (frameState : FrameState) (ctrl : RxCtrl) :
    List UInt8 → FrameState × RxCtrl × List BufDesc
  | [] => (frameState, ctrl, [])
  | b :: src =>
    let it := hdlcByteRxIter bufLen setup frameState ctrl b src
    let last := hdlcByteRxLoop setup it.frameState it.ctrl it.rest
    (last.1, last.2.1, it.handed ++ last.2.2)
termination_by src => 2 * src.length + waits frameState ctrl
decreasing_by exact hdlcByteRxIter_progress bufLen setup frameState ctrl b src

def hdlcByteRx (setup : UInt32) (ctrl : RxCtrl) (src : List UInt8) :
    Option (RxCtrl × List BufDesc) :=
  if src = [] then none
  else
    let last := hdlcByteRxLoop bufLen setup ctrl.rxFrameState ctrl src
    some ({ last.2.1 with rxFrameState := last.1 }, last.2.2)

def rxCalls (setup : UInt32) (ctrl : RxCtrl) : List (List UInt8) → Option (RxCtrl × List BufDesc)
  | [] => some (ctrl, [])
  | src :: blocks => do
    let (ctrl, handed) ← hdlcByteRx bufLen setup ctrl src
    let (ctrl, more) ← rxCalls setup ctrl blocks
    return (ctrl, handed ++ more)

/-! ## Frames reported to the done handler -/

def joinBuffers : List UInt8 → List BufDesc → List UInt8 × List BufDesc
  | opened, [] => (opened, [])
  | opened, d :: ds =>
    if d.bufFlags = 0 then joinBuffers (opened ++ d.bytes) ds
    else
      let (opened', ends) := joinBuffers [] ds
      (opened', ⟨d.bufFlags, opened ++ d.bytes⟩ :: ends)

def frameEnds (handed : List BufDesc) : List BufDesc :=
  (joinBuffers [] handed).2

theorem joinBuffers_append (opened : List UInt8) (ds es : List BufDesc) :
    joinBuffers opened (ds ++ es) =
      ((joinBuffers (joinBuffers opened ds).1 es).1,
        (joinBuffers opened ds).2 ++ (joinBuffers (joinBuffers opened ds).1 es).2) := by
  induction ds generalizing opened with
  | nil => rfl
  | cons d ds ih =>
    by_cases more : d.bufFlags = 0 <;> simp [joinBuffers, more, ih]

def reported (body : List UInt8) : BufDesc where
  bufFlags :=
    (if hdlc16GoodCrc = crc16 body then kDslFramerEndOfFrame else kDslFramerAbortFrame) |||
      (2 <<< kDslFramerExtraByteShift)
  bytes := body

theorem reported_bufFlags_ne (body : List UInt8) : (reported body).bufFlags ≠ 0 := by
  have ends : kDslFramerEndOfFrame ||| (2 <<< kDslFramerExtraByteShift) ≠ 0 := by decide
  have aborts : kDslFramerAbortFrame ||| (2 <<< kDslFramerExtraByteShift) ≠ 0 := by decide
  unfold reported
  split
  · exact ends
  · exact aborts

/-! ## The receiver is the reader -/

/-- A receiver that has handed over the bytes `opened` of the current frame, and the reader it
stands for. -/
def Represents (opened : List UInt8) : FrameState → RxCtrl → Reader UInt8 → Prop
  | .startFlag, ctrl, r => r = .hunt ∧ opened = [] ∧ ctrl.room = 0
  | .address, ctrl, r => r = .frame [] false ∧ opened = [] ∧ ctrl.room = 0
  | .data, ctrl, r =>
    r = .frame (opened ++ ctrl.filled) ctrl.rxEscChar ∧
      ctrl.rxCrc = crc16 (opened ++ ctrl.filled) ∧ (ctrl.rxEscChar = true → 0 < ctrl.room)
  | _, _, _ => False

theorem Represents.store {frameState : FrameState}
    (represents : Represents opened frameState ctrl r) (state : FrameState) :
    Represents opened frameState { ctrl with rxFrameState := state } r := by
  cases frameState <;> exact represents

structure Follows (opened : List UInt8) (r : Reader UInt8) (used : List UInt8)
    (handed : List BufDesc) (frameState : FrameState) (ctrl : RxCtrl) : Prop where
  represents : Represents (joinBuffers opened handed).1 frameState ctrl (byteCode.run r used).1
  ends : (joinBuffers opened handed).2 = (byteCode.run r used).2.map reported

theorem Follows.append {opened : List UInt8} {r : Reader UInt8} {used more : List UInt8}
    {handed later : List BufDesc} {frameState frameState' : FrameState} {ctrl ctrl' : RxCtrl}
    (first : Follows opened r used handed frameState ctrl)
    (second : Follows (joinBuffers opened handed).1 (byteCode.run r used).1 more later
      frameState' ctrl') :
    Follows opened r (used ++ more) (handed ++ later) frameState' ctrl' := by
  constructor
  · rw [joinBuffers_append, run_append]
    exact second.represents
  · rw [joinBuffers_append, run_append, map_append, ← first.ends, ← second.ends]

theorem hdlcByteRxHandle_spec {bufLen : Nat → Nat} (sizes : ∀ k, 0 < bufLen k)
    (register : ctrl.rxCrc = crc16 (opened ++ ctrl.filled)) {chunk : RxChunk} {n : Nat}
    (within : n ≤ ctrl.room) (reads : chunk.Reads ctrl.rxCrc src n) :
    ∃ used, src = used ++ chunk.rest ∧
      Follows opened (.frame (opened ++ ctrl.filled) false) used
        (hdlcByteRxHandle bufLen ctrl chunk).handed
        (hdlcByteRxHandle bufLen ctrl chunk).frameState
        (hdlcByteRxHandle bufLen ctrl chunk).ctrl := by
  obtain ⟨used, split, -, run⟩ := reads.run
  have crc_eq : chunk.crc = crc16 (opened ++ (ctrl.filled ++ chunk.stored)) := by
    rw [← append_assoc, crc16, foldl_append, ← crc16, ← register]
    exact reads.crc_eq
  have body_run := run (opened ++ ctrl.filled)
  rw [append_assoc] at body_run
  refine ⟨used, split, ?_⟩
  cases eof : chunk.eof with
  | true =>
    have handled : hdlcByteRxHandle bufLen ctrl chunk = ⟨.address,
        { ctrl.afterChunk chunk with room := 0 },
        [⟨(reported (opened ++ (ctrl.filled ++ chunk.stored))).bufFlags,
          ctrl.filled ++ chunk.stored⟩], chunk.rest⟩ := by
      simp [hdlcByteRxHandle, eof, RxCtrl.afterChunk, reported, crc_eq]
    rw [handled]
    rw [eof, if_pos rfl] at body_run
    constructor <;> rw [body_run]
    · simp [joinBuffers, reported_bufFlags_ne, Represents]
    · simp only [joinBuffers, reported_bufFlags_ne, if_false]
      rfl
  | false =>
    by_cases full : ctrl.room - chunk.stored.length = 0
    · have next : bufLen ctrl.given ≠ 0 := (sizes _).ne'
      have no_esc : chunk.esc = false := by
        cases esc : chunk.esc with
        | true => have := reads.stored_lt esc; omega
        | false => rfl
      constructor <;> rw [body_run] <;>
        simp [hdlcByteRxHandle, eof, RxCtrl.afterChunk, full, hdlcFramerRxGetData, next,
          joinBuffers, Represents, crc_eq, no_esc]
    · constructor <;> rw [body_run] <;>
        simp [hdlcByteRxHandle, eof, RxCtrl.afterChunk, full, joinBuffers, Represents, crc_eq]
      omega

section Simulation

variable {bufLen} {setup : UInt32} (plain : setup &&& kHdlcSpecialAddrCtrl = 0)
  (sizes : ∀ k, 0 < bufLen k)
include plain sizes

theorem hdlcByteRxIter_spec {frameState : FrameState}
    (represents : Represents opened frameState ctrl r) (b : UInt8) (src : List UInt8) :
    let it := hdlcByteRxIter bufLen setup frameState ctrl b src
    ∃ used, b :: src = used ++ it.rest ∧
      Follows opened r used it.handed it.frameState it.ctrl := by
  intro it
  cases frameState with
  | control | fcs1 | fcs2 | endFlag => exact represents.elim
  | startFlag =>
    obtain ⟨rfl, rfl, full⟩ := represents
    refine ⟨[b], rfl, ?_⟩
    by_cases flag : b = hdlcByteFlag <;>
      constructor <;>
      simp [it, hdlcByteRxIter, flag, joinBuffers, run_cons, step, byteCode,
        Represents, full]
  | address =>
    obtain ⟨rfl, rfl, full⟩ := represents
    have given : bufLen ctrl.given ≠ 0 := (sizes _).ne'
    refine ⟨[], ?_, ?_, ?_⟩ <;>
      simp [it, hdlcByteRxIter, plain, hdlcByteStartData, full, hdlcFramerRxGetData, given,
        joinBuffers, Represents, crc16]
  | data =>
    obtain ⟨rfl, register, some_room⟩ := represents
    cases escaped : ctrl.rxEscChar with
    | true =>
      refine ⟨[b], ?_, ?_, ?_⟩ <;>
        simp [it, hdlcByteRxIter, escaped, joinBuffers, run_cons, step, byteCode,
          Represents, register, crc16]
    | false =>
      have iter : it = hdlcByteRxHandle bufLen ctrl (hdlcByteRxData ctrl.rxCrc (b :: src)
          (min ctrl.room (src.length + 1))) := by
        simp [it, hdlcByteRxIter, escaped]
      rw [iter, hdlcByteRxHandle_rest]
      exact hdlcByteRxHandle_spec sizes register (Nat.min_le_left _ _)
        (hdlcByteRxData_reads _ _ _ (Nat.min_le_right _ _))

theorem hdlcByteRxLoop_spec (frameState : FrameState) (ctrl : RxCtrl) (src : List UInt8) :
    ∀ opened r, Represents opened frameState ctrl r →
      Follows opened r src (hdlcByteRxLoop bufLen setup frameState ctrl src).2.2
        (hdlcByteRxLoop bufLen setup frameState ctrl src).1
        (hdlcByteRxLoop bufLen setup frameState ctrl src).2.1 := by
  fun_induction hdlcByteRxLoop bufLen setup frameState ctrl src with
  | case1 => exact fun opened r represents => ⟨represents, rfl⟩
  | case2 frameState ctrl b src it last ih =>
    intro opened r represents
    obtain ⟨used, split, follows⟩ := hdlcByteRxIter_spec plain sizes represents b src
    rw [split]
    exact follows.append (ih _ _ follows.represents)

theorem hdlcByteRx_spec (ctrl : RxCtrl) (nonempty : src ≠ [])
    (represents : Represents opened ctrl.rxFrameState ctrl r) :
    ∃ ctrl' handed, hdlcByteRx bufLen setup ctrl src = some (ctrl', handed) ∧
      Follows opened r src handed ctrl'.rxFrameState ctrl' := by
  have loop := hdlcByteRxLoop_spec plain sizes ctrl.rxFrameState ctrl src _ _ represents
  refine ⟨_, _, if_neg nonempty, ?_, loop.ends⟩
  exact loop.represents.store _

theorem rxCalls_spec (ctrl : RxCtrl) (blocks : List (List UInt8))
    (nonempty : ∀ src ∈ blocks, src ≠ [])
    (represents : Represents opened ctrl.rxFrameState ctrl r) :
    ∃ ctrl' handed, rxCalls bufLen setup ctrl blocks = some (ctrl', handed) ∧
      Follows opened r blocks.flatten handed ctrl'.rxFrameState ctrl' := by
  induction blocks generalizing ctrl opened r with
  | nil => exact ⟨ctrl, [], rfl, represents, rfl⟩
  | cons src blocks ih =>
    obtain ⟨ctrl', handed, call, first⟩ := hdlcByteRx_spec plain sizes ctrl
      (nonempty src (mem_cons_self ..)) represents
    obtain ⟨last, more, calls, rest⟩ := ih ctrl'
      (fun b mem => nonempty b (mem_cons_of_mem _ mem)) first.represents
    exact ⟨last, handed ++ more, by simp [rxCalls, call, calls], first.append rest⟩

end Simulation

/-- **The frames that a receiver reports do not depend on the cut of the stream or on the sizes
of its buffers.** -/
theorem frameEnds_rxCalls {bufLen : Nat → Nat} {setup : UInt32}
    (plain : setup &&& kHdlcSpecialAddrCtrl = 0) (sizes : ∀ k, 0 < bufLen k)
    (start : ctrl.rxFrameState = .startFlag) (no_room : ctrl.room = 0) (blocks : List (List UInt8))
    (nonempty : ∀ src ∈ blocks, src ≠ []) :
    ∃ ctrl' handed, rxCalls bufLen setup ctrl blocks = some (ctrl', handed) ∧
      frameEnds handed = (byteCode.run .hunt blocks.flatten).2.map reported := by
  have represents : Represents [] ctrl.rxFrameState ctrl .hunt := by
    rw [start]
    exact ⟨rfl, rfl, no_room⟩
  obtain ⟨ctrl', handed, calls, follows⟩ := rxCalls_spec plain sizes ctrl blocks nonempty represents
  exact ⟨ctrl', handed, calls, follows.ends⟩

end Receive

end EchoLife.Hdlc
