import Mathlib

/-!
# The ring of received frames

On an ADSL2 line `AdslCoreG997IndicateRecevice` returns overhead messages that are not Clear EOC
commands to the framer, and puts the others into a ring of sixteen pointers for the driver. A
sixteenth pointer would make the ring look empty; the framer has eight frames, which is why this
does not happen (`g997Rx_run`). A command that is repeated is passed on as often as it arrives
(`eocCommands_passed_iff`).
-/

namespace EchoLife.Dsl

open List Function

/-! ## The source -/

structure RcvBuffer where
  addr : UInt32
  len : UInt32
  deriving DecidableEq, Repr

structure RcvFrame where
  first : Option RcvBuffer
  info : UInt32
  deriving DecidableEq, Repr

structure Indication where
  adsl2 : Bool
  rspBusy : Bool
  frame : Nat
  addr : UInt32
  data : Option (List UInt8)

/-- `g997RxFrCB` with its pointers as offsets in bytes, the frames, and the number of the last
command. The record has the frames in the ring and those given back, the first buffers as they were
indicated, and what was indicated and passed on. -/
structure G997Rx where
  pRead : Nat
  pWrite : Nat
  g997RxFrBuf : Nat → Nat
  frames : Nat → RcvFrame
  rxCmdMsgNum : UInt8
  held : List Nat
  returned : List Nat
  origin : Nat → Option RcvBuffer
  indicated : List Indication
  passed : List (List UInt8)

inductive RxCall where
  | indicate (i : Indication)
  | frameGet
  | returnFrame

def rxPacketNum : Nat := 8

def g997RxFrBufSize : Nat := 64

def circBufferDistance (p1 p2 d : Nat) : Int :=
  let n : Int := p2 - p1 - d
  if 0 ≤ n then n else n + g997RxFrBufSize

def circBufferAdd (p n : Nat) : Nat :=
  if g997RxFrBufSize ≤ p + n then p + n - g997RxFrBufSize else p + n

def isClearEocMsg (data : List UInt8) : Bool :=
  data.getD 2 0 == 0x08 && data.getD 3 0 == 0x01

def Indication.first (i : Indication) : Option RcvBuffer :=
  i.data.map fun data => ⟨i.addr, UInt32.ofNat data.length⟩

def rcvProcessCmd (rspBusy : Bool) (data : List UInt8) (rxCmdMsgNum : UInt8) : UInt8 :=
  if rspBusy then rxCmdMsgNum else data.getD 1 0 &&& 1

/-- `G992p3OvhMsgIndicateRcvFrame`: whether the frame is kept from the ring, the frame, and the
message number. -/
def ovhMsgIndicateRcvFrame (i : Indication) (rxCmdMsgNum : UInt8) : Bool × RcvFrame × UInt8 :=
  match i.data with
  | none => (true, ⟨none, 0⟩, rxCmdMsgNum)
  | some data =>
    let len := UInt32.ofNat data.length
    if data.length < 4 ∨ i.addr = 0 then (true, ⟨some ⟨i.addr, len⟩, 0⟩, rxCmdMsgNum)
    else
      let isAck := data.getD 2 0 ∈ [0xF0, 0xF1, 0xF2]
      let num := if ¬ isAck ∧ data.getD 1 0 &&& 2 = 0 then
        rcvProcessCmd i.rspBusy data rxCmdMsgNum else rxCmdMsgNum
      if isClearEocMsg data then (false, ⟨some ⟨i.addr + 4, len - 4⟩, 4⟩, num)
      else (true, ⟨some ⟨i.addr, len⟩, 0⟩, num)

def ovhMsgReturnFrame (frame : RcvFrame) : RcvFrame :=
  match frame.first with
  | some buf =>
    if frame.info = 0 then frame else ⟨some ⟨buf.addr - frame.info, buf.len + frame.info⟩, 0⟩
  | none => frame

namespace G997Rx

def init (slots : Nat → Nat) (frames : Nat → RcvFrame) : G997Rx :=
  ⟨0, 0, slots, frames, 0, [], [], fun _ => none, [], []⟩

def storeFrame (f : Nat) (payload : List UInt8) (s : G997Rx) : G997Rx :=
  if 0 < circBufferDistance s.pWrite s.pRead 1 then
    { s with
      g997RxFrBuf := update s.g997RxFrBuf (s.pWrite / 4) f
      pWrite := circBufferAdd s.pWrite 4
      held := s.held ++ [f]
      passed := s.passed ++ [payload] }
  else s

def setFrame (i : Indication) (frame : RcvFrame) (s : G997Rx) : G997Rx :=
  { s with
    frames := update s.frames i.frame frame
    origin := update s.origin i.frame i.first
    indicated := s.indicated ++ [i] }

def indicateRecevice (i : Indication) (s : G997Rx) : G997Rx :=
  let data := i.data.getD []
  if i.adsl2 then
    let (kept, frame, rxCmdMsgNum) := ovhMsgIndicateRcvFrame i s.rxCmdMsgNum
    let s := { s.setFrame i frame with rxCmdMsgNum }
    if kept then { s with returned := s.returned ++ [i.frame] }
    else s.storeFrame i.frame (data.drop 4)
  else (s.setFrame i ⟨i.first, 0⟩).storeFrame i.frame data

def frameGet (s : G997Rx) : Option Nat :=
  if circBufferDistance s.pRead s.pWrite 0 = 0 then none else some (s.g997RxFrBuf (s.pRead / 4))

def returnFrame (s : G997Rx) : G997Rx :=
  if 0 < circBufferDistance s.pRead s.pWrite 0 then
    let f := s.g997RxFrBuf (s.pRead / 4)
    { s with
      frames := update s.frames f (ovhMsgReturnFrame (s.frames f))
      returned := s.returned ++ [f]
      pRead := circBufferAdd s.pRead 4
      held := s.held.tail }
  else s

def step (s : G997Rx) : RxCall → G997Rx
  | .indicate i => if i.frame < rxPacketNum ∧ i.frame ∉ s.held then s.indicateRecevice i else s
  | .frameGet => s
  | .returnFrame => s.returnFrame

def run (s : G997Rx) (calls : List RxCall) : G997Rx := calls.foldl step s

end G997Rx

/-! ## The ring -/

def Indication.clearEoc (i : Indication) : Bool :=
  match i.data with
  | some data => 4 ≤ data.length && i.addr != 0 && isClearEocMsg data
  | none => false

def Indication.payload (i : Indication) : Option (List UInt8) :=
  if i.adsl2 then if i.clearEoc then some ((i.data.getD []).drop 4) else none
  else some (i.data.getD [])

def G997Rx.InRing (s : G997Rx) (held : List Nat) : Prop :=
  ∃ r < 16, s.pRead = 4 * r ∧ s.pWrite = 4 * ((r + held.length) % 16) ∧
    ∀ i (inside : i < held.length), s.g997RxFrBuf ((r + i) % 16) = held[i]

structure G997Rx.Ok (s : G997Rx) : Prop where
  few : ∀ f ∈ s.held, f < rxPacketNum
  nodup : s.held.Nodup
  ring : s.InRing s.held
  whole : ∀ f ∈ s.held, (ovhMsgReturnFrame (s.frames f)).first = s.origin f
  passes : s.passed = s.indicated.filterMap Indication.payload

open Indication

/-- A frame is kept from the ring exactly when it is no Clear EOC command, and what is done to it
can be undone. -/
theorem ovhMsgIndicateRcvFrame_spec (i : Indication) (n : UInt8) :
    (ovhMsgIndicateRcvFrame i n).1 = !i.clearEoc ∧
      (ovhMsgReturnFrame (ovhMsgIndicateRcvFrame i n).2.1).first = i.first := by
  unfold ovhMsgIndicateRcvFrame clearEoc first
  cases i.data with
  | none => exact ⟨rfl, rfl⟩
  | some data =>
    by_cases short : data.length < 4 ∨ i.addr = 0
    · simp only [if_pos short, Option.map_some]
      refine ⟨?_, rfl⟩
      rcases short with short | null
      · simp [short]
      · simp [null]
    · rw [not_or] at short
      simp only [if_neg (not_or.mpr short), Option.map_some]
      cases message : isClearEocMsg data with
      | false => simp [ovhMsgReturnFrame]
      | true =>
        refine ⟨by simp [short.2, not_lt.mp short.1], ?_⟩
        simp [ovhMsgReturnFrame]

namespace G997Rx

variable {s : G997Rx}

theorem init_ok (slots : Nat → Nat) (frames : Nat → RcvFrame) : (init slots frames).Ok :=
  ⟨fun _ mem => absurd mem not_mem_nil, nodup_nil,
    ⟨0, by decide, rfl, rfl, fun i inside => absurd inside (Nat.not_lt_zero i)⟩,
    fun _ mem => absurd mem not_mem_nil, rfl⟩

theorem length_le_of_nodup {held : List Nat} (few : ∀ f ∈ held, f < rxPacketNum)
    (nodup : held.Nodup) : held.length ≤ 8 := by
  have inside : held ⊆ range 8 := fun f mem => mem_range.mpr (few f mem)
  exact (nodup.subperm inside).length_le

theorem storeFrame_eq {f : Nat} (few : ∀ g ∈ s.held ++ [f], g < rxPacketNum)
    (nodup : (s.held ++ [f]).Nodup)
    (ring : s.InRing s.held) (payload : List UInt8) :
    (s.storeFrame f payload).held = s.held ++ [f] ∧
      (s.storeFrame f payload).passed = s.passed ++ [payload] ∧
      (s.storeFrame f payload).frames = s.frames ∧ (s.storeFrame f payload).origin = s.origin ∧
      (s.storeFrame f payload).indicated = s.indicated ∧
      (s.storeFrame f payload).InRing (s.held ++ [f]) := by
  have length := length_le_of_nodup few nodup
  obtain ⟨r, small, read, write, slots⟩ := ring
  simp only [length_append, length_singleton] at length
  have space : 0 < circBufferDistance s.pWrite s.pRead 1 := by
    simp only [circBufferDistance, g997RxFrBufSize, read, write]
    split <;> push_cast <;> omega
  rw [storeFrame, if_pos space]
  refine ⟨rfl, rfl, rfl, rfl, rfl, r, small, read, ?_, fun i inside => ?_⟩
  · simp only [circBufferAdd, g997RxFrBufSize, write, length_append, length_singleton]
    split <;> omega
  · simp only [length_append, length_singleton] at inside
    have here : s.pWrite / 4 = (r + s.held.length) % 16 := by omega
    simp only [here]
    by_cases last : i = s.held.length
    · subst last
      simp
    · rw [update_of_ne (by omega), slots i (by omega), getElem_append_left]

theorem Ok.whole_setFrame (ok : s.Ok) {i : Indication} {frame : RcvFrame}
    (undone : (ovhMsgReturnFrame frame).first = i.first) :
    ∀ f ∈ s.held ++ [i.frame], (ovhMsgReturnFrame ((s.setFrame i frame).frames f)).first =
      (s.setFrame i frame).origin f := by
  intro f mem
  simp only [setFrame]
  by_cases same : f = i.frame
  · rw [same, update_self, update_self, undone]
  · rw [update_of_ne same, update_of_ne same]
    exact ok.whole f ((mem_append.mp mem).resolve_right (by simpa using same))

section Indicate

variable {i : Indication} (ok : s.Ok) (inside : i.frame < rxPacketNum) (free : i.frame ∉ s.held)
include ok inside free

theorem Ok.store {frame : RcvFrame} (undone : (ovhMsgReturnFrame frame).first = i.first)
    (n : UInt8) {payload : List UInt8} (passes : i.payload = some payload) :
    (storeFrame i.frame payload { s.setFrame i frame with rxCmdMsgNum := n }).Ok ∧
      (storeFrame i.frame payload { s.setFrame i frame with rxCmdMsgNum := n }).held =
        s.held ++ [i.frame] := by
  have few : ∀ g ∈ s.held ++ [i.frame], g < rxPacketNum := by
    intro g mem
    rcases mem_append.mp mem with old | new
    · exact ok.few g old
    · rwa [mem_singleton.mp new]
  have nodup : (s.held ++ [i.frame]).Nodup := by
    rw [nodup_append_comm]
    exact nodup_cons.mpr ⟨free, ok.nodup⟩
  obtain ⟨held, passed, frames, origin, indicated, ring⟩ :=
    @storeFrame_eq { s.setFrame i frame with rxCmdMsgNum := n } i.frame few nodup ok.ring payload
  refine ⟨⟨held ▸ few, held ▸ nodup, held ▸ ring, ?_, ?_⟩, held⟩
  · rw [held, frames, origin]
    exact ok.whole_setFrame undone
  · rw [passed, indicated, setFrame, filterMap_append, ← ok.passes]
    simp [passes]

theorem Ok.indicateRecevice : (s.indicateRecevice i).Ok ∧
    (i.payload.isSome → (s.indicateRecevice i).held = s.held ++ [i.frame]) := by
  unfold G997Rx.indicateRecevice
  cases line : i.adsl2 with
  | false =>
    obtain ⟨next, held⟩ := @Ok.store s i ok inside free ⟨i.first, 0⟩
      (by cases h : i.first <;> simp [ovhMsgReturnFrame]) s.rxCmdMsgNum _
      (show i.payload = some (i.data.getD []) by simp [payload, line])
    exact ⟨next, fun _ => held⟩
  | true =>
    obtain ⟨kept, undone⟩ := ovhMsgIndicateRcvFrame_spec i s.rxCmdMsgNum
    simp only [if_true]
    rw [kept]
    cases eoc : i.clearEoc with
    | true =>
      obtain ⟨next, held⟩ :=
        ok.store inside free undone (ovhMsgIndicateRcvFrame i s.rxCmdMsgNum).2.2
        (show i.payload = some ((i.data.getD []).drop 4) by simp [payload, line, eoc])
      exact ⟨next, fun _ => held⟩
    | false =>
      have none : i.payload = none := by simp [payload, line, eoc]
      refine ⟨⟨ok.few, ok.nodup, ok.ring, fun f mem => ?_, ?_⟩, fun some => by simp [none] at some⟩
      · exact ok.whole_setFrame undone f (mem_append_left _ mem)
      · simp [setFrame, ok.passes, none]

end Indicate

theorem Ok.avail (ok : s.Ok) : circBufferDistance s.pRead s.pWrite 0 = 4 * s.held.length ∧
    ∀ f rest, s.held = f :: rest → s.g997RxFrBuf (s.pRead / 4) = f := by
  have length := length_le_of_nodup ok.few ok.nodup
  obtain ⟨r, small, read, write, slots⟩ := ok.ring
  refine ⟨?_, fun f rest held => ?_⟩
  · simp only [circBufferDistance, g997RxFrBufSize, read, write]
    split <;> push_cast <;> omega
  · have first := slots 0 (by simp [held])
    rw [show s.pRead / 4 = (r + 0) % 16 by omega, first]
    simp [held]

theorem Ok.returnFrame (ok : s.Ok) : s.returnFrame.Ok ∧ (s.held = [] → s.returnFrame = s) ∧
    ∀ f rest, s.held = f :: rest → f ∉ rest ∧ s.returnFrame.held = rest ∧
      s.returnFrame.returned = s.returned ++ [f] ∧
      (s.returnFrame.frames f).first = s.origin f := by
  obtain ⟨avail, oldest⟩ := ok.avail
  unfold G997Rx.returnFrame
  cases held : s.held with
  | nil =>
    rw [avail, held, if_neg (by simp)]
    exact ⟨ok, fun _ => rfl, fun f rest eq => by cases eq⟩
  | cons f rest =>
    have nodup := held ▸ ok.nodup
    rw [avail, held, if_pos (by simp), oldest f rest held]
    refine ⟨⟨fun g mem => ok.few g (held ▸ mem_cons_of_mem f mem), (nodup_cons.mp nodup).2, ?_,
      fun g mem => ?_, ok.passes⟩, fun none => absurd none (cons_ne_nil f rest), ?_⟩
    · obtain ⟨r, small, read, write, slots⟩ := ok.ring
      rw [held, length_cons] at write
      refine ⟨(r + 1) % 16, by omega, ?_, ?_, fun i inside => ?_⟩
      · simp only [circBufferAdd, g997RxFrBufSize, read]
        split <;> omega
      · simp only [tail_cons, write]
        omega
      · simp only [tail_cons] at inside ⊢
        have slot := slots (i + 1) (by rw [held, length_cons]; omega)
        rw [show ((r + 1) % 16 + i) % 16 = (r + (i + 1)) % 16 by omega, slot]
        simp [held]
    · have other : g ≠ f := fun same => (nodup_cons.mp nodup).1 (same ▸ mem)
      simp only [update_of_ne other]
      exact ok.whole g (held ▸ mem_cons_of_mem f mem)
    · rintro f' rest' eq
      cases eq
      refine ⟨(nodup_cons.mp nodup).1, rfl, rfl, ?_⟩
      simp only [update_self]
      exact ok.whole f (held ▸ mem_cons_self)

theorem Ok.run (ok : s.Ok) (calls : List RxCall) : (s.run calls).Ok := by
  induction calls generalizing s with
  | nil => exact ok
  | cons call calls ih =>
    refine ih ?_
    cases call with
    | indicate i =>
      rw [step]
      split
      next free => exact (ok.indicateRecevice free.1 free.2).1
      next => exact ok
    | frameGet => exact ok
    | returnFrame => exact ok.returnFrame.1

end G997Rx

/-- **No received frame is lost.** After every run, a frame of the framer that is to be passed on
is stored, `AdslCoreG997FrameGet` finds the oldest frame that was not returned, and
`AdslCoreG997ReturnFrame` gives it to the framer, once, with its first buffer as it was
indicated. -/
theorem g997Rx_run (slots : Nat → Nat) (frames : Nat → RcvFrame) (calls : List RxCall) :
    let s := (G997Rx.init slots frames).run calls
    (∀ i : Indication, i.frame < rxPacketNum → i.frame ∉ s.held → i.payload.isSome →
        (s.step (.indicate i)).held = s.held ++ [i.frame]) ∧
      s.frameGet = s.held.head? ∧ (s.held = [] → s.returnFrame = s) ∧
      ∀ f rest, s.held = f :: rest → f ∉ rest ∧ s.returnFrame.held = rest ∧
        s.returnFrame.returned = s.returned ++ [f] ∧
        (s.returnFrame.frames f).first = s.origin f := by
  have ok := (G997Rx.init_ok slots frames).run calls
  generalize (G997Rx.init slots frames).run calls = s at ok
  obtain ⟨avail, oldest⟩ := ok.avail
  refine ⟨fun i inside free some => ?_, ?_, ok.returnFrame.2⟩
  · rw [G997Rx.step, if_pos ⟨inside, free⟩]
    exact (ok.indicateRecevice inside free).2 some
  · rw [G997Rx.frameGet, avail]
    cases held : s.held with
    | nil => rfl
    | cons f rest =>
      rw [if_neg (by rw [length_cons]; omega), oldest f rest held]
      rfl

/-! ## Repeated commands -/

structure EocCommand where
  addrField : UInt8
  payload : List UInt8
  copies : Nat
  pos : 0 < copies

def eocFrames (n : Nat) : List EocCommand → List (List UInt8)
  | [] => []
  | c :: rest =>
    replicate c.copies ([c.addrField, UInt8.ofNat (n % 2), 0x08, 0x01] ++ c.payload) ++
      eocFrames (n + 1) rest

theorem map_drop_eocFrames (n : Nat) (commands : List EocCommand) :
    (eocFrames n commands).map (drop 4) =
      commands.flatMap fun c => replicate c.copies c.payload := by
  induction commands generalizing n with
  | nil => rfl
  | cons c rest ih => simp [eocFrames, ih]

theorem payload_of_mem_eocFrames {n : Nat} {commands : List EocCommand} {data : List UInt8}
    (mem : data ∈ eocFrames n commands) : 4 ≤ data.length ∧ isClearEocMsg data = true := by
  induction commands generalizing n with
  | nil => cases mem
  | cons c rest ih =>
    rcases mem_append.mp mem with here | later
    · obtain ⟨-, rfl⟩ := mem_replicate.mp here
      exact ⟨by simp, by simp [isClearEocMsg]⟩
    · exact ih later

theorem flatMap_copies_eq_iff (commands : List EocCommand) :
    (commands.flatMap fun c => replicate c.copies c.payload) = commands.map (·.payload) ↔
      ∀ c ∈ commands, c.copies = 1 := by
  constructor
  · intro same
    have count : ∀ commands : List EocCommand, commands.length ≤
        (commands.flatMap fun c => replicate c.copies c.payload).length ∧
        ((commands.flatMap fun c => replicate c.copies c.payload).length = commands.length →
          ∀ c ∈ commands, c.copies = 1) := by
      intro commands
      induction commands with
      | nil => simp
      | cons c rest ih =>
        have pos := c.pos
        simp only [flatMap_cons, length_append, length_replicate, length_cons, forall_mem_cons]
        exact ⟨by omega, fun eq => ⟨by omega, ih.2 (by omega)⟩⟩
    exact (count commands).2 (by rw [same, length_map])
  · intro once
    rw [← flatMap_pure_eq_map]
    exact flatMap_congr fun c mem => by rw [once c mem]; rfl

/-- **Each command is passed on once exactly when each arrives once.** In a run on an ADSL2 line
whose frames are Clear EOC commands with alternating numbers, repeated or not. -/
theorem eocCommands_passed_iff (slots : Nat → Nat) (frames : Nat → RcvFrame) (calls : List RxCall)
    (commands : List EocCommand)
    (line : ∀ i ∈ ((G997Rx.init slots frames).run calls).indicated, i.adsl2 = true ∧ i.addr ≠ 0)
    (arrived : ((G997Rx.init slots frames).run calls).indicated.map (·.data) =
      (eocFrames 1 commands).map some) :
    ((G997Rx.init slots frames).run calls).passed = commands.map (·.payload) ↔
      ∀ c ∈ commands, c.copies = 1 := by
  have ok := (G997Rx.init_ok slots frames).run calls
  generalize (G997Rx.init slots frames).run calls = s at ok line arrived
  rw [← flatMap_copies_eq_iff, ← map_drop_eocFrames 1, ok.passes]
  have each : ∀ i ∈ s.indicated, i.payload = i.data.map (drop 4) := by
    intro i mem
    have sent : i.data ∈ (eocFrames 1 commands).map some := arrived ▸ mem_map_of_mem mem
    obtain ⟨data, inside, eq⟩ := mem_map.mp sent
    obtain ⟨long, message⟩ := payload_of_mem_eocFrames inside
    obtain ⟨adsl2, addr⟩ := line i mem
    simp [Indication.payload, Indication.clearEoc, adsl2, addr, ← eq, long, message]
  have all : s.indicated.filterMap Indication.payload = (eocFrames 1 commands).map (drop 4) := by
    have data : s.indicated.filterMap Indication.payload =
        (s.indicated.map (·.data)).filterMap (Option.map (drop 4)) := by
      rw [filterMap_map]
      exact filterMap_congr each
    rw [data, arrived, filterMap_map, ← filterMap_eq_map]
    rfl
  rw [all]

def eocCall (f : Nat) : RxCall := .indicate ⟨true, false, f, 4096, some [0, 1, 8, 1, 7]⟩

theorem eocCommands_passed_iff_once :
    ((G997Rx.init (fun _ => 0) fun _ => ⟨none, 0⟩).run [eocCall 0]).passed = [[7]] ↔
      ∀ c ∈ [EocCommand.mk 0 [7] 1 Nat.one_pos], c.copies = 1 :=
  eocCommands_passed_iff (fun _ => 0) (fun _ => ⟨none, 0⟩) [eocCall 0]
    [EocCommand.mk 0 [7] 1 Nat.one_pos] (by decide) (by decide)

/-- A command that is sent twice is passed on twice. -/
theorem eocCommand_passed_twice :
    let s := (G997Rx.init (fun _ => 0) fun _ => ⟨none, 0⟩).run [eocCall 0, eocCall 1]
    s.indicated.map (·.data) = (eocFrames 1 [⟨0, [7], 2, Nat.two_pos⟩]).map some ∧
      s.passed = [[7], [7]] := by
  decide

end EchoLife.Dsl
