import EchoLife.Dsl.StretchBuffer
import EchoLife.Dsl.Flatten

/-!
# The command buffer

The host writes commands for the DSL processor with `FlattenBufferCommandWrite`. The report is not
always right (`flattenBufferCommandWrite_iff`): `StretchBufferWriteUpdate` leaves the pointers alone
when a message reaches the end of the buffer while the reader is at its start, and `FlattenCommand`
asks for sixteen words for a start command that may have twenty-four (`CommandFits` fails then).
-/

namespace EchoLife.Dsl

open List

/-! ## Commands -/

def kDslStartPhysicalLayerCmd : UInt32 := 259
def kDslSendEocCommand : UInt32 := 262
def kDslDiagSetupCmd : UInt32 := 272
def kDslTestCmd : UInt32 := 279
def kDslSetStatusBufferCmd : UInt32 := 286
def kDslAfeTestCmd : UInt32 := 287
def kDslOLRRequestCmd : UInt32 := 293
def kDslPwrMgrCmd : UInt32 := 296
def kDslPLNControlCmd : UInt32 := 301

def kDslTestToneSelection : UInt32 := 3
def kDslTestExecuteDelay : UInt32 := 12

def kDslPLNControlStart : UInt32 := 1
def kDslPLNControlDefineInpBinTable : UInt32 := 9
def kDslPLNControlDefineItaBinTable : UInt32 := 10

structure PhySupport where
  g992p2Init : Bool
  annexA : Bool
  adsl2 : Bool
  adsl2p : Bool
deriving DecidableEq, Repr

structure CarrierInfo where
  downstreamMinCarr : UInt32
  downstreamMaxCarr : UInt32
  upstreamMinCarr : UInt32
  upstreamMaxCarr : UInt32
deriving DecidableEq, Repr

def CarrierInfo.words (info : CarrierInfo) : List UInt32 :=
  [info.downstreamMinCarr, info.downstreamMaxCarr, info.upstreamMinCarr, info.upstreamMaxCarr]

structure DslModeSpec where
  direction : UInt32
  modulations : UInt32
  minDataRate : UInt32
  maxDataRate : UInt32
  carrierInfoG992p2 : CarrierInfo
  carrierInfoG992p1 : CarrierInfo
  subChannelInfo : UInt32
  carrierInfoG992p5 : CarrierInfo
  subChannelInfop5 : UInt32
  features : UInt32
  auxFeatures : UInt32
  demodCapabilities : UInt32
  noiseMargin : UInt32
  carrierInfoG992p3AnnexA : UInt32
  carrierInfoG992p5AnnexA : UInt32
deriving DecidableEq, Repr

def DslModeSpec.words (support : PhySupport) (spec : DslModeSpec) : List UInt32 :=
  [spec.direction, spec.modulations, spec.minDataRate, spec.maxDataRate] ++
    (if support.g992p2Init then spec.carrierInfoG992p2.words else []) ++
    (if support.annexA then spec.carrierInfoG992p1.words ++ [spec.subChannelInfo] else []) ++
    (if support.adsl2p then spec.carrierInfoG992p5.words ++ [spec.subChannelInfop5] else []) ++
    [spec.features, spec.auxFeatures, spec.demodCapabilities, spec.noiseMargin] ++
    (if support.adsl2 then [spec.carrierInfoG992p3AnnexA] else []) ++
    (if support.adsl2p then [spec.carrierInfoG992p5AnnexA] else [])

def toneWords (xmtNumOfTones rcvNumOfTones : UInt32) : Nat :=
  let len1 := (xmtNumOfTones + 7) / 8
  let len2 := (rcvNumOfTones + 7) / 8
  (len1.toNat + len2.toNat + 3) / 4

structure ToneSelectSpec where
  xmtStartTone : UInt32
  xmtNumOfTones : UInt32
  rcvStartTone : UInt32
  rcvNumOfTones : UInt32
  maps : List UInt32
  length_maps : maps.length = toneWords xmtNumOfTones rcvNumOfTones
deriving DecidableEq, Repr

inductive ClearEocData (msgType : UInt32) where
  | copied (isVolatile : isVolatile msgType = true) (data : List UInt32)
      (length_data : data.length = byteWords (msgType &&& kDslClearEocMsgLengthMask))
  | address (isVolatile : isVolatile msgType = false) (dataPtr : UInt32)
deriving DecidableEq, Repr

inductive DslCommandStruct where
  | startPhysicalLayer (spec : DslModeSpec)
  | diagSetup (setup eyeConstIndex1 eyeConstIndex2 logTime : UInt32)
  | testToneSelection (spec : ToneSelectSpec)
  | testExecuteDelay (value : UInt32)
  | testOther (type : UInt32)
      (other : type ≠ kDslTestToneSelection ∧ type ≠ kDslTestExecuteDelay)
  | setStatusBuffer (pBuf bufSize : UInt32)
  | afeTest (type afeParamPtr afeParamSize imagePtr imageSize : UInt32)
  | plnStart (mgnDescreaseLevelPerBin mgnDescreaseLevelBand : UInt32)
  | plnInpBinTable (nInpBin inpBinPtr : UInt32)
  | plnItaBinTable (nItaBin itaBinPtr : UInt32)
  | plnOther (plnCmd : UInt32) (other : plnCmd ≠ kDslPLNControlStart ∧
      plnCmd ≠ kDslPLNControlDefineInpBinTable ∧ plnCmd ≠ kDslPLNControlDefineItaBinTable)
  | sendEoc (value : UInt32) (plain : signed value < signed kDslClearEocFirstCmd)
  | sendClearEoc (value msgType : UInt32) (clear : signed kDslClearEocFirstCmd ≤ signed value)
      (data : ClearEocData msgType)
  | olrRequest (msgType nCarrs l₀ l₁ b carrParamPtr : UInt32)
  | pwrMgr (msgType msgLen msgData : UInt32)
  | other (command value : UInt32) (other : command ∉ [kDslStartPhysicalLayerCmd,
      kDslSendEocCommand, kDslDiagSetupCmd, kDslTestCmd, kDslSetStatusBufferCmd, kDslAfeTestCmd,
      kDslOLRRequestCmd, kDslPwrMgrCmd, kDslPLNControlCmd])
deriving DecidableEq, Repr

/-! ## `FlattenCommand` -/

/-- The words that `CHECK_CMD_BUF_AVAIL` asks for, with those that are there already. Some commands
are not checked. -/
def requiredWords : DslCommandStruct → Nat
  | .startPhysicalLayer _ => 16 + 1
  | .diagSetup _ _ _ _ => 4 + 1
  | .testToneSelection spec => 4 + toneWords spec.xmtNumOfTones spec.rcvNumOfTones + 2
  | .afeTest _ _ _ _ _ => 5 + 1
  | .sendClearEoc _ msgType _ (.copied _ _ _) =>
    byteWords (msgType &&& kDslClearEocMsgLengthMask) + 3
  | .olrRequest _ _ _ _ _ _ => 6 + 1
  | _ => 0

def commandWords (support : PhySupport) : DslCommandStruct → List UInt32
  | .startPhysicalLayer spec => kDslStartPhysicalLayerCmd :: spec.words support
  | .diagSetup setup i₁ i₂ logTime => [kDslDiagSetupCmd, setup, i₁, i₂, logTime]
  | .testToneSelection spec =>
    [kDslTestCmd, kDslTestToneSelection, spec.xmtStartTone, spec.xmtNumOfTones, spec.rcvStartTone,
      spec.rcvNumOfTones] ++ spec.maps
  | .testExecuteDelay value => [kDslTestCmd, kDslTestExecuteDelay, value]
  | .testOther type _ => [kDslTestCmd, type]
  | .setStatusBuffer pBuf bufSize => [kDslSetStatusBufferCmd, pBuf, bufSize]
  | .afeTest type afeParamPtr afeParamSize imagePtr imageSize =>
    [kDslAfeTestCmd, type, afeParamPtr, afeParamSize, imagePtr, imageSize]
  | .plnStart perBin band => [kDslPLNControlCmd, kDslPLNControlStart, perBin, band]
  | .plnInpBinTable n ptr => [kDslPLNControlCmd, kDslPLNControlDefineInpBinTable, n, ptr]
  | .plnItaBinTable n ptr => [kDslPLNControlCmd, kDslPLNControlDefineItaBinTable, n, ptr]
  | .plnOther plnCmd _ => [kDslPLNControlCmd, plnCmd]
  | .sendEoc value _ => [kDslSendEocCommand, value]
  | .sendClearEoc value msgType _ (.copied _ data _) =>
    [kDslSendEocCommand, value, msgType] ++ data
  | .sendClearEoc value msgType _ (.address _ dataPtr) =>
    [kDslSendEocCommand, value, msgType, dataPtr]
  | .olrRequest msgType nCarrs l₀ l₁ b carrParamPtr =>
    [kDslOLRRequestCmd, msgType, nCarrs, l₀, l₁, b, carrParamPtr]
  | .pwrMgr msgType msgLen msgData => [kDslPwrMgrCmd, msgType, msgLen, msgData]
  | .other command value _ => [command, value]

def flattenCommand (support : PhySupport) (cmd : DslCommandStruct) (avail : Nat) :
    Option (List UInt32) :=
  if requiredWords cmd > avail then none else some (commandWords support cmd)

def flattenBufferCommandWrite (support : PhySupport) (cmd : DslCommandStruct)
    (sb : StretchBuffer) : Int × StretchBuffer :=
  let statBytesAvail := sb.getWriteAvail
  if statBytesAvail < 24 then (-1, sb)
  else
    match flattenCommand support cmd ((statBytesAvail - 4) / 4) with
    | none => (0, sb)
    | some words => (4 * words.length + 4, sb.write (words ++ [bufferAnchor]))

def adslCoreCommandWrite (support : PhySupport) (cmd : DslCommandStruct) (sb : StretchBuffer) :
    Bool × StretchBuffer :=
  let (n, sb) := flattenBufferCommandWrite support cmd sb
  (decide (0 < n), sb)

/-! ## When the report is right -/

def commandMessage (support : PhySupport) (cmd : DslCommandStruct) : List UInt32 :=
  commandWords support cmd ++ [bufferAnchor]

def CommandRefused (cmd : DslCommandStruct) (sb : StretchBuffer) : Prop :=
  sb.getWriteAvail < 24 ∨ (sb.getWriteAvail - 4) / 4 < requiredWords cmd

def CommandFits (size : Nat) (sb : StretchBuffer) : Prop :=
  (sb.pWrite < sb.pRead → sb.pWrite + size < sb.pRead) ∧
    (sb.pRead = 0 → sb.pWrite + size < sb.pEnd)

variable {support : PhySupport} {cmd : DslCommandStruct} {sb : StretchBuffer}
  {earlier : List (List UInt32)}

theorem flattenBufferCommandWrite_of_refused (refused : CommandRefused cmd sb) :
    (flattenBufferCommandWrite support cmd sb).1 ≤ 0 ∧
      (flattenBufferCommandWrite support cmd sb).2 = sb := by
  rw [flattenBufferCommandWrite]
  split
  next => exact ⟨show (-1 : Int) ≤ 0 by decide, rfl⟩
  next enough =>
    rw [flattenCommand, if_pos (refused.resolve_left enough)]
    exact ⟨le_rfl, rfl⟩

theorem flattenBufferCommandWrite_of_not_refused (accepted : ¬ CommandRefused cmd sb) :
    0 < (flattenBufferCommandWrite support cmd sb).1 ∧
      (flattenBufferCommandWrite support cmd sb).2 = sb.write (commandMessage support cmd) := by
  rw [CommandRefused, not_or] at accepted
  rw [flattenBufferCommandWrite, if_neg accepted.1, flattenCommand, if_neg accepted.2]
  refine ⟨?_, rfl⟩
  dsimp only
  omega

theorem commandMessage_pos : 0 < (commandMessage support cmd).length := by
  simp [commandMessage]

theorem Queued.not_append {block : List UInt32} (queued : Queued sb earlier)
    (pos : 0 < block.length) : ¬ Queued sb (earlier ++ [block]) := by
  intro more
  have before := queued.unread_eq
  have after := more.unread_eq
  rw [flatten_append, length_append, flatten_singleton] at after
  omega

theorem Queued.not_write {block : List UInt32} (queued : Queued sb earlier)
    (pos : 0 < block.length) (misfit : ¬ CommandFits (4 * block.length) sb) :
    ¬ Queued (sb.write block) (earlier ++ [block]) := by
  intro more
  have before := queued.unread_eq
  have after := more.unread_eq
  rw [flatten_append, length_append, flatten_singleton] at after
  by_cases refused : sb.pRead = 0 ∧ sb.pEnd ≤ sb.pWrite + 4 * block.length
  · exact (queued.write_refused refused.1 refused.2).not_append pos more
  · have passes : sb.pWrite < sb.pRead ∧ sb.pRead ≤ sb.pWrite + 4 * block.length := by
      by_contra fits
      exact misfit ⟨fun behind => by omega, fun start => by omega⟩
    rw [StretchBuffer.unread, StretchBuffer.write, StretchBuffer.writeUpdate,
      StretchBuffer.putWords] at after
    by_cases reaches : sb.pEnd ≤ sb.pWrite + 4 * block.length
    · rw [if_pos reaches, if_pos (show sb.pRead ≠ 0 by omega)] at after
      dsimp only at after
      rw [if_neg (by omega)] at after
      omega
    · rw [if_neg reaches] at after
      dsimp only at after
      rw [if_pos passes.2] at after
      omega

def adsl2p : PhySupport := ⟨true, true, true, true⟩

def toneSelection : DslCommandStruct :=
  .testToneSelection ⟨32, 256, 6, 32, replicate 9 0xffffffff, by decide⟩

theorem queued_toneSelection :
    Queued ((StretchBuffer.init 128 128 fun _ => 0).write (commandMessage adsl2p toneSelection))
      [commandMessage adsl2p toneSelection] :=
  (Queued.init (by decide) 128 _).write (cons_ne_nil _ _) (by decide) (by decide)

/-! ## How far a command reaches -/

def commandReach (support : PhySupport) : DslCommandStruct → Nat
  | .testToneSelection spec =>
    let len1 := ((spec.xmtNumOfTones + 7) / 8).toNat
    let len2 := ((spec.rcvNumOfTones + 7) / 8).toNat
    24 + max (4 * ((len1 + 3) / 4)) (len1 + 4 * ((len2 + 3) / 4))
  | cmd => 4 * (commandWords support cmd).length

def CommandBounded (support : PhySupport) : DslCommandStruct → Prop
  | .startPhysicalLayer spec => (spec.words support).length ≤ 16
  | .testToneSelection spec =>
    ((spec.xmtNumOfTones + 7) / 8).toNat + 4 * ((((spec.rcvNumOfTones + 7) / 8).toNat + 3) / 4) ≤
      4 * toneWords spec.xmtNumOfTones spec.rcvNumOfTones
  | _ => True

theorem commandBounded_iff : CommandBounded support cmd ↔
    (commandWords support cmd).length ≤ max 5 (requiredWords cmd) ∧
      commandReach support cmd ≤ 4 * max 5 (requiredWords cmd) := by
  cases cmd with
  | startPhysicalLayer spec =>
    simp only [CommandBounded, commandWords, commandReach, requiredWords, length_cons]
    omega
  | testToneSelection spec =>
    have maps := spec.length_maps
    simp only [CommandBounded, commandWords, commandReach, requiredWords, length_append,
      length_cons, length_nil, maps, toneWords]
    omega
  | sendClearEoc value msgType clear data =>
    cases data with
    | copied isVolatile data length_data =>
      simp only [CommandBounded, commandWords, commandReach, requiredWords, length_append,
        length_cons, length_nil, length_data, true_iff]
      omega
    | address isVolatile dataPtr =>
      simp [CommandBounded, commandWords, commandReach, requiredWords]
  | _ => simp [CommandBounded, commandWords, commandReach, requiredWords]

end EchoLife.Dsl
