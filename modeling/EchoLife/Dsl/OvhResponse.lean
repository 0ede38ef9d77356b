import EchoLife.Dsl.OvhMsg

/-!
# Decoding responses

A response is decoded by its code and by the poll command that was sent last. Counters, names and
values are read from fixed places whatever the length of the message is, the tones up to its end,
and with the commands for counters and names there may be no last poll command. An access outside
the message, the poll commands or the tone data is `none`; `rcvProcessRsp_isSome_iff` says which
responses have none.
-/

namespace EchoLife.Dsl.Response

open List Option

/-! ## The source -/

def kG992p3OvhMsgCmdCntReadId : UInt8 := 0x01

def kG992p3OvhMsgCmdCntReadId1 : UInt8 := 0x0F

def kAdslMibMaxToneNum : Nat := 1024

inductive RspData where
  | none
  | counters (values : List Nat)
  | inventory (vendorID versionNumber serialNumber : List UInt8)
  | value (n : Int)
  | tones (data : List Int)
  deriving Repr, DecidableEq

def readCnt16 (msg : List UInt8) (pos : Nat) : Option Nat := do
  let high ← msg[pos]?
  let low ← msg[pos + 1]?
  return high.toNat * 256 + low.toNat

def readCnt32 (msg : List UInt8) (pos : Nat) : Option Nat := do
  let high ← readCnt16 msg pos
  let low ← readCnt16 msg (pos + 2)
  return high * 65536 + low

/-- As many things as are asked for, each of `width` bytes. -/
def readMany {α : Type} (read : Nat → Option α) (width : Nat) : (count pos : Nat) → Option (List α)
  | 0, _ => some []
  | count + 1, pos => do
    let first ← read pos
    let others ← readMany read width count (pos + width)
    return first :: others

/-- The loops that read tones up to `msgEnd`, with room for `room` tones. -/
def toneLoop (tone : Nat → Option Int) (width msgEnd : Nat) : (room pos : Nat) → Option (List Int)
  | room, pos => do
    if pos = msgEnd then return []
    let first ← tone pos
    match room with
    | 0 => failure
    | room + 1 =>
      let others ← toneLoop tone width msgEnd room (pos + width)
      return first :: others

def snrTone (msg : List UInt8) (pos : Nat) : Option Int := do
  let b ← msg[pos]?
  return if b ≠ 255 then b.toNat * 8 - 32 * 16 else 0

def noiseTone (msg : List UInt8) (pos : Nat) : Option Int := do
  let b ← msg[pos]?
  return if b ≠ 255 then -(b.toNat * 8) - 23 * 16 else -150 * 16

def logTone (msg : List UInt8) (pos : Nat) : Option Int := do
  let high ← msg[pos]?
  let low ← msg[pos + 1]?
  let n := (high.toNat % 4) * 4096 + low.toNat * 16
  return -((n / 10 : Nat) : Int) + 6 * 16

/-- The value of ten bits with a sign. -/
def power (n : Nat) : Int := ((n + 512) % 1024 : Nat) - 512

def pmdRead (msg : List UInt8) (rspId : UInt8) : Option RspData := do
  match rspId.toNat with
  | 0x21 | 0x22 | 0x23 => return .value (← readCnt16 msg 4)
  | 0x24 => return .value (← readCnt32 msg 4)
  | 0x25 => return .value (power (← readCnt16 msg 4))
  | 0x04 => return .tones (← toneLoop (snrTone msg) 1 msg.length kAdslMibMaxToneNum 6)
  | 0x03 => return .tones (← toneLoop (noiseTone msg) 1 msg.length kAdslMibMaxToneNum 6)
  | 0x01 =>
    return .tones (← toneLoop (logTone msg) 2 ((msg.length + 1) / 2 * 2) kAdslMibMaxToneNum 6)
  | _ => return .none

def pollCmdAt (s : OvhMsg) : Option PollCmd := s.cmdNum.bind (s.pollCmd[·]?)

/-- The poll command asks for one parameter, and the response has it. -/
def answers (pCmd : PollCmd) (subCode : UInt8) : Bool :=
  codeOf pCmd.cmd = kG992p3OvhMsgCmdPMDRead ∧ subCodeOf pCmd.cmd = kG992p3OvhMsgCmdPMDSingleRead ∧
    subCode = kG992p3OvhMsgCmdPMDSingleRdRsp

def rcvProcessRsp (s : OvhMsg) (fireUsEnabled : Bool) (msg : List UInt8) : Option RspData := do
  if codeOf msg = kG992p3OvhMsgCmdCntRead then
    let _ ← pollCmdAt s
    if subCodeOf msg = kG992p3OvhMsgCmdCntReadId ||| 0x80 then
      return .counters (← readMany (readCnt32 msg) 4 11 4)
    else if fireUsEnabled ∧ subCodeOf msg = kG992p3OvhMsgCmdCntReadId1 ||| 0x80 then
      return .counters (← readMany (readCnt32 msg) 4 14 4)
    else return .none
  else if codeOf msg = kG992p3OvhMsgCmdInventory then
    let _ ← pollCmdAt s
    if subCodeOf msg = 0x81 then
      return .inventory (← readMany (msg[·]?) 1 8 4) (← readMany (msg[·]?) 1 16 12)
        (← readMany (msg[·]?) 1 32 28)
    else return .none
  else if codeOf msg = kG992p3OvhMsgCmdPMDRead ∧ s.cmdNum ≠ none then
    let pCmd ← pollCmdAt s
    if answers pCmd (subCodeOf msg) then
      pmdRead msg (pCmd.cmd.getD (kG992p3CmdCode + 2) 0)
    else return .none
  else return .none

/-! ## What is read -/

variable {α β γ : Type} {msg : List UInt8} {pos : Nat}

theorem isSome_bind_iff {x : Option α} {f : α → Option β} {P : Prop}
    (rest : ∀ a, (f a).isSome ↔ P) : (x >>= f).isSome ↔ x.isSome ∧ P := by
  cases x with
  | none => simp
  | some a => simpa using rest a

theorem isSome_bind_bind_iff {x : Option α} {y : α → Option β} {f : α → β → γ} {P : Prop}
    (rest : ∀ a, (y a).isSome ↔ P) :
    (do let a ← x; let b ← y a; return f a b : Option γ).isSome ↔ x.isSome ∧ P :=
  isSome_bind_iff fun a => by
    rw [← rest a]
    cases y a <;> rfl

theorem isSome_byte : (msg[pos]?).isSome ↔ pos + 1 ≤ msg.length := by simp

theorem isSome_readCnt16 : (readCnt16 msg pos).isSome ↔ pos + 2 ≤ msg.length := by
  rw [readCnt16, isSome_bind_bind_iff fun _ => isSome_byte, isSome_byte]
  omega

theorem isSome_readCnt32 : (readCnt32 msg pos).isSome ↔ pos + 4 ≤ msg.length := by
  rw [readCnt32, isSome_bind_bind_iff fun _ => isSome_readCnt16, isSome_readCnt16]
  omega

section

variable {read : Nat → Option α} {tone : Nat → Option Int} {width length msgEnd : Nat}

theorem isSome_readMany (each : ∀ pos, (read pos).isSome ↔ pos + width ≤ length) {count : Nat} :
    (readMany read width (count + 1) pos).isSome ↔ pos + width * (count + 1) ≤ length := by
  induction count generalizing pos with
  | zero =>
    rw [readMany, isSome_bind_bind_iff fun _ => (iff_true _).mpr rfl, each]
    simp
  | succ count ih =>
    rw [readMany, isSome_bind_bind_iff fun _ => ih, each, Nat.mul_succ width (count + 1),
      Nat.mul_succ]
    omega

theorem isSome_toneLoop_of_ne {room : Nat} (more : pos ≠ msgEnd) :
    (toneLoop tone width msgEnd room pos).isSome ↔
      (tone pos).isSome ∧ 0 < room ∧
        (toneLoop tone width msgEnd (room - 1) (pos + width)).isSome := by
  rw [toneLoop.eq_def]
  dsimp only
  rw [if_neg more]
  cases room with
  | zero => cases tone pos <;> simp
  | succ room =>
    rw [isSome_bind_bind_iff fun _ => Iff.rfl]
    simp

theorem not_isSome_toneLoop {room : Nat} (beyond : msgEnd < pos) :
    ¬ (toneLoop tone width msgEnd room pos).isSome := by
  induction room generalizing pos with
  | zero =>
    rw [isSome_toneLoop_of_ne (by omega)]
    simp
  | succ room ih =>
    rw [isSome_toneLoop_of_ne (by omega)]
    exact fun reads => ih (by omega) reads.2.2

variable (each : ∀ pos, (tone pos).isSome ↔ pos + width ≤ length)
include each

theorem isSome_toneLoop (pos_width : 0 < width) {room k : Nat} :
    (toneLoop tone width (pos + width * k) room pos).isSome ↔
      k = 0 ∨ pos + width * k ≤ length ∧ k ≤ room := by
  induction k generalizing pos room with
  | zero => simp [toneLoop.eq_def]
  | succ k ih =>
    have next : pos + width * (k + 1) = pos + width + width * k := by
      rw [Nat.mul_succ]
      omega
    rw [next, isSome_toneLoop_of_ne (by omega), each, ih]
    rcases k.eq_zero_or_pos with rfl | some_left
    · simp
      omega
    · have := Nat.mul_pos pos_width some_left
      omega

end

theorem isSome_bytewise_toneLoop {tone : Nat → Option Int} {room : Nat}
    (each : ∀ pos, (tone pos).isSome ↔ pos + 1 ≤ msg.length) :
    (toneLoop tone 1 msg.length room pos).isSome ↔
      pos ≤ msg.length ∧ msg.length ≤ pos + room := by
  by_cases inside : pos ≤ msg.length
  · obtain ⟨k, rest⟩ := Nat.exists_eq_add_of_le inside
    have reads := @isSome_toneLoop pos tone 1 msg.length each one_pos room k
    rw [Nat.one_mul, ← rest] at reads
    rw [reads]
    omega
  · exact iff_of_false (not_isSome_toneLoop (by omega)) (by omega)

theorem isSome_snrTone : (snrTone msg pos).isSome ↔ pos + 1 ≤ msg.length := by
  rw [snrTone, isSome_bind_iff fun _ => (iff_true _).mpr rfl, isSome_byte, and_true]

theorem isSome_noiseTone : (noiseTone msg pos).isSome ↔ pos + 1 ≤ msg.length := by
  rw [noiseTone, isSome_bind_iff fun _ => (iff_true _).mpr rfl, isSome_byte, and_true]

theorem isSome_logTone : (logTone msg pos).isSome ↔ pos + 2 ≤ msg.length := by
  rw [logTone, isSome_bind_bind_iff fun _ => isSome_byte, isSome_byte]
  omega

theorem isSome_wordwise_toneLoop {room : Nat} :
    (toneLoop (logTone msg) 2 ((msg.length + 1) / 2 * 2) room 6).isSome ↔
      msg.length = 5 ∨ msg.length % 2 = 0 ∧ 6 ≤ msg.length ∧ msg.length ≤ 6 + 2 * room := by
  by_cases inside : 6 ≤ (msg.length + 1) / 2 * 2
  · obtain ⟨k, rest⟩ : ∃ k, (msg.length + 1) / 2 * 2 = 6 + 2 * k :=
      ⟨(msg.length + 1) / 2 - 3, by omega⟩
    rw [rest, isSome_toneLoop (fun _ => isSome_logTone) two_pos]
    omega
  · exact iff_of_false (not_isSome_toneLoop (by omega)) (by omega)

/-- The lengths for which a single parameter is read inside the message and the tone data. -/
def PmdFits (rspId : UInt8) (length : Nat) : Prop :=
  match rspId.toNat with
  | 0x21 | 0x22 | 0x23 | 0x25 => 6 ≤ length
  | 0x24 => 8 ≤ length
  | 0x04 | 0x03 => 6 ≤ length ∧ length ≤ 6 + kAdslMibMaxToneNum
  | 0x01 => length = 5 ∨ length % 2 = 0 ∧ 6 ≤ length ∧ length ≤ 6 + 2 * kAdslMibMaxToneNum
  | _ => True

theorem isSome_pmdRead {rspId : UInt8} : (pmdRead msg rspId).isSome ↔ PmdFits rspId msg.length := by
  rw [pmdRead, PmdFits]
  generalize rspId.toNat = id
  split
  all_goals
    try rw [isSome_bind_iff fun _ => (iff_true _).mpr rfl, and_true]
  · exact isSome_readCnt16
  · exact isSome_readCnt16
  · exact isSome_readCnt16
  · exact isSome_readCnt32
  · exact isSome_readCnt16
  · exact isSome_bytewise_toneLoop fun _ => isSome_snrTone
  · exact isSome_bytewise_toneLoop fun _ => isSome_noiseTone
  · exact isSome_wordwise_toneLoop
  · simp_all

/-- There is a last poll command where it is looked at, and the message is as long as its code
says. -/
def RspFits (s : OvhMsg) (fireUsEnabled : Bool) (msg : List UInt8) : Prop :=
  if codeOf msg = kG992p3OvhMsgCmdCntRead then
    (pollCmdAt s).isSome ∧ (subCodeOf msg = 0x81 → 48 ≤ msg.length) ∧
      (fireUsEnabled ∧ subCodeOf msg = 0x8F → 60 ≤ msg.length)
  else if codeOf msg = kG992p3OvhMsgCmdInventory then
    (pollCmdAt s).isSome ∧ (subCodeOf msg = 0x81 → 60 ≤ msg.length)
  else codeOf msg = kG992p3OvhMsgCmdPMDRead ∧ s.cmdNum ≠ none →
    ∃ pCmd, pollCmdAt s = some pCmd ∧ (answers pCmd (subCodeOf msg) →
      PmdFits (pCmd.cmd.getD (kG992p3CmdCode + 2) 0) msg.length)

/-- **A response is decoded inside its frame exactly if its code allows its length.** -/
theorem rcvProcessRsp_isSome_iff (s : OvhMsg) (fireUsEnabled : Bool) (msg : List UInt8) :
    (rcvProcessRsp s fireUsEnabled msg).isSome ↔ RspFits s fireUsEnabled msg := by
  rw [rcvProcessRsp, RspFits]
  split_ifs with counters sub fire inventory sub pmd
  · rw [isSome_bind_bind_iff fun _ => isSome_readMany fun _ => isSome_readCnt32]
    have sub : subCodeOf msg = 0x81 := sub.trans (by decide)
    simp [sub]
  · rw [isSome_bind_bind_iff fun _ => isSome_readMany fun _ => isSome_readCnt32]
    have sub : subCodeOf msg = 0x8F := fire.2.trans (by decide)
    simp [sub, fire.1]
  · rw [isSome_bind_iff fun _ => (iff_true _).mpr rfl]
    exact and_congr_right fun _ => iff_of_true trivial ⟨(absurd · sub), (absurd · fire)⟩
  · rw [isSome_bind_iff fun _ => isSome_bind_iff fun _ => isSome_bind_bind_iff fun _ =>
      isSome_readMany fun _ => isSome_byte, isSome_readMany fun _ => isSome_byte,
      isSome_readMany fun _ => isSome_byte]
    simp [sub]
    omega
  · rw [isSome_bind_iff fun _ => (iff_true _).mpr rfl]
    exact and_congr_right fun _ => iff_of_true trivial (absurd · sub)
  · rw [imp_iff_right pmd]
    cases pollCmdAt s with
    | none => simp
    | some pCmd =>
      by_cases asked : answers pCmd (subCodeOf msg) <;>
        simp [asked, isSome_pmdRead]
  · exact iff_of_true rfl (absurd · pmd)

/-- Counters that nobody asked for have no poll command, counters may be missing in the message, and
the tones of a message of five bytes have no end. -/
theorem short_responses :
    rcvProcessRsp ovhMsgInit false ([1, 2, 0x05, 0x81] ++ replicate 44 0) = none ∧
    rcvProcessRsp (ovhRun ovhMsgInit [.timer 201 true]) false [1, 2, 0x05, 0x81] = none ∧
    rcvProcessRsp (ovhRun ovhMsgInit [.timer 201 true]) false [2, 2, 0x81, 0x81, 0] = none := by
  decide +kernel

end EchoLife.Dsl.Response
