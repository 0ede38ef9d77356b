import EchoLife.Lib.ByteStore

/-!
# Statuses as words

`FlattenStatus` writes a status as words and `UnflattenStatus` reads it back on another processor,
which translates the addresses (`HostAddr`). A status of the code `kDslStatusBufferInfo` announces
where the data of the next one are (`StatData`). `delivered` says what the reader is to obtain.
The two functions do not agree for seven codes of the ATM layer (`AtmCase.Carried`).
-/

namespace EchoLife.Dsl

open ByteStore

/-! ## Codes -/

def kAtmStatus : UInt32 := 257
def kDslTrainingStatus : UInt32 := 258
def kDslConnectInfoStatus : UInt32 := 259
def kDslReceivedEocCommand : UInt32 := 262
def kDslDspControlStatus : UInt32 := 268
def kDslG997Status : UInt32 := 271
def kDslPrintfStatus : UInt32 := 272
def kDslExceptionStatus : UInt32 := 274
def kDslShowtimeSNRMarginInfo : UInt32 := 276
def kDslOemDataAddrStatus : UInt32 := 278
def kDslDataAvailStatus : UInt32 := 279
def kDslOLRRequestStatus : UInt32 := 286
def kDslOLRBitGainUpdateStatus : UInt32 := 288
def kDslPwrMgrStatus : UInt32 := 289

def kDslStatusBufferInfo : UInt32 := 75

def kAtmStatBertResult : UInt32 := 5
def kAtmStatCounters : UInt32 := 8
def kAtmLayerStatFirst : UInt32 := 100
def kAtmStatVcCreated : UInt32 := 102
def kAtmStatOamF4SegmentCell : UInt32 := 111
def kAtmStatOamF4End2EndCell : UInt32 := 112
def kAtmStatOamF5SegmentCell : UInt32 := 114
def kAtmStatOamF5End2EndCell : UInt32 := 115
def kAtmStatRxPacket : UInt32 := 119
def kAtmStatTxPacket : UInt32 := 120

def kDslClearEocFirstCmd : UInt32 := 100
def kDslClearEocMsgLengthMask : UInt32 := 0x0000ffff
def kDslClearEocMsgDataVolatileMask : UInt32 := 0x01000000

def kDslFramerRxFrameErr : UInt32 := 2
def kDslFramerTxFrameErr : UInt32 := 4

def bufferAnchor : UInt32 := 0x55AA1234

def kMaxFlattenFramelength : Nat := 2200 - 4 * 4 - 20
def g992CodingParamsWords : Nat := 10
def kG992ShowtimeNumOfMonitorCounters : Nat := 17

/-- The cases of the switch over the status codes. `UnflattenStatus` has one more than
`FlattenStatus`, `oemDataAddr`. -/
inductive StatusCase where
  | training | dspControl | connectInfo | snrMargin | eoc | g997 | atm | printf | exception
  | oemDataAddr | dataAvail | olrRequest | olrUpdate | pwrMgr | other
deriving DecidableEq, Repr

def statusCase (code : UInt32) : StatusCase :=
  if code = kDslTrainingStatus then .training
  else if code = kDslDspControlStatus then .dspControl
  else if code = kDslConnectInfoStatus then .connectInfo
  else if code = kDslShowtimeSNRMarginInfo then .snrMargin
  else if code = kDslReceivedEocCommand then .eoc
  else if code = kDslG997Status then .g997
  else if code = kAtmStatus then .atm
  else if code = kDslPrintfStatus then .printf
  else if code = kDslExceptionStatus then .exception
  else if code = kDslOemDataAddrStatus then .oemDataAddr
  else if code = kDslDataAvailStatus then .dataAvail
  else if code = kDslOLRRequestStatus then .olrRequest
  else if code = kDslOLRBitGainUpdateStatus then .olrUpdate
  else if code = kDslPwrMgrStatus then .pwrMgr
  else .other

inductive ConnectCase where
  | bytes | shorts | codingParams | carrEdge | monitoring | p3CodingParams | channel | plain
deriving DecidableEq, Repr

def connectCase (code : UInt32) : ConnectCase :=
  -- tone ordering, AOC messages, G.994 and G.992 messages
  if code ∈ [0, 1, 29, 30, 8, 9, 6, 7] then .bytes
  else if code ∈ [2, 3] then .codingParams
  else if code = 4 then .carrEdge
  else if code = 5 then .monitoring
  -- TEQ coefficients, PSD, carrier SNR
  else if code ∈ [16, 25, 17] then .shorts
  else if code ∈ [60, 61] then .p3CodingParams
  else if code ∈ [35, 36, 37] then .channel
  else .plain

inductive AtmCase where
  | vcCreated | oamCell | packet | bertResult | counters | plain
deriving DecidableEq, Repr

def atmCase (code : UInt32) : AtmCase :=
  if code = kAtmStatVcCreated then .vcCreated
  else if code ∈ [kAtmStatOamF4SegmentCell, kAtmStatOamF4End2EndCell, kAtmStatOamF5SegmentCell,
      kAtmStatOamF5End2EndCell] then .oamCell
  else if code ∈ [kAtmStatRxPacket, kAtmStatTxPacket] then .packet
  else if code = kAtmStatBertResult then .bertResult
  else if code = kAtmStatCounters then .counters
  else .plain

def signed (word : UInt32) : Int := word.toInt32.toInt

def byteWords (bytes : UInt32) : Nat := (bytes.toNat + 3) / 4

def shortWords (shorts : UInt32) : Nat := (shorts.toNat + 1) / 2

def frameWords (length : UInt32) : Nat := (min length.toNat kMaxFlattenFramelength + 3) / 4

def isVolatile (msgType : UInt32) : Bool := msgType &&& kDslClearEocMsgDataVolatileMask != 0

def isFrameErr (code : UInt32) : Bool :=
  code == kDslFramerRxFrameErr || code == kDslFramerTxFrameErr

/-! ## Statuses -/

inductive BuffPtr where
  | words (data : List UInt32)
  | addr (a : UInt32)
  | unset
deriving DecidableEq, Repr

def BuffPtr.move : BuffPtr → Nat → List UInt32
  | .words data, n => data.take n
  | _, _ => []

def BuffPtr.word : BuffPtr → UInt32
  | .addr a => a
  | _ => 0

inductive AtmParam where
  | none
  | vcInfo (vci aalType fwdPeakCellTime backPeakCellTime : UInt32)
  | oamCmd (cmd : UInt32)
  | frame (mid aalType length : UInt32) (framePtr : BuffPtr)
  | errBits (bits : UInt32)
deriving DecidableEq, Repr

namespace AtmParam

def words : AtmParam → List UInt32
  | .none => []
  | .vcInfo vci aalType fwd back => [vci, aalType, fwd, back]
  | .oamCmd cmd => [cmd]
  | .frame _ aalType length _ => [aalType, length]
  | .errBits bits => [bits]

def frameLength : AtmParam → UInt32
  | .frame _ _ length _ => length
  | _ => 0

def framePtr : AtmParam → BuffPtr
  | .frame _ _ _ framePtr => framePtr
  | _ => .unset

end AtmParam

inductive DslStatusStruct where
  | training (code value : UInt32)
  | dspControl (code value buffPtr : UInt32)
  | connectInfo (code value : UInt32) (buffPtr : BuffPtr)
  | snrMargin (maxMarginCarrier maxSNRMargin minMarginCarrier minSNRMargin avgSNRMargin
      nCarriers : UInt32) (buffPtr : BuffPtr)
  /-- The type and the pointer of a message belong to Clear EOC only. -/
  | eoc (value : UInt32) (msg : Option (UInt32 × BuffPtr))
  | g997 (code : UInt32) (error : Option UInt32)
  | atm (code value : UInt32) (param : AtmParam)
  | printf (fmt : UInt32) (args : List UInt32)
  | exception (stack args : List UInt32)
  | oemDataAddr (value : UInt32)
  | dataAvail (dataPtr dataLen : UInt32)
  | olr (update : Bool) (msgType nCarrs : UInt16) (l₀ l₁ b : UInt32) (carrParamPtr : UInt32)
  | pwrMgr (msgType msgLen msgData : UInt32)
  /-- Any other code, with the words of its parameters. -/
  | other (code value : UInt32) (rest : List UInt32)
deriving DecidableEq, Repr

/-! ## `FlattenStatus` -/

def checkAvail (required : Nat) (avail : Int) (words : List UInt32) : Option (List UInt32) :=
  if (required : Int) > avail then none else some words

def flattenAtmSlow (code value : UInt32) (param : AtmParam) (avail : Int) :
    Option (List UInt32) :=
  match atmCase code with
  | .vcCreated => checkAvail 6 avail (value :: param.words)
  | .oamCell => some param.words
  | .packet =>
    let size := frameWords param.frameLength
    checkAvail (3 + size) avail (value :: param.words ++ param.framePtr.move size)
  | .bertResult | .counters | .plain => some []

def flattenAtm (code value : UInt32) (param : AtmParam) (avail : Int) : Option (List UInt32) :=
  if signed code < signed kAtmLayerStatFirst then
    if code = kAtmStatBertResult then some param.words
    else flattenAtmSlow code value param (avail - 3)
  else some []

def flattenConnectInfo (code value : UInt32) (buffPtr : BuffPtr) (avail : Int) :
    Option (List UInt32) :=
  match connectCase code with
  | .bytes | .p3CodingParams =>
    checkAvail (byteWords value) (avail - 3) (buffPtr.move (byteWords value))
  | .codingParams =>
    checkAvail g992CodingParamsWords (avail - 3) (buffPtr.move g992CodingParamsWords)
  | .carrEdge => some (buffPtr.move 2)
  | .monitoring =>
    checkAvail kG992ShowtimeNumOfMonitorCounters (avail - 3)
      (buffPtr.move kG992ShowtimeNumOfMonitorCounters)
  | .shorts => checkAvail (shortWords value) (avail - 3) (buffPtr.move (shortWords value))
  | .channel => some [buffPtr.word]
  | .plain => some []

def flattenStatus (status : DslStatusStruct) (avail : Int) : Option (List UInt32) :=
  match status with
  | .training code value => some [kDslTrainingStatus, code, value]
  | .dspControl code value buffPtr => some [kDslDspControlStatus, code, value, buffPtr]
  | .connectInfo code value buffPtr =>
    (flattenConnectInfo code value buffPtr avail).map
      ([kDslConnectInfoStatus, code, value] ++ ·)
  | .snrMargin a b c d e nCarriers buffPtr =>
    checkAvail (shortWords nCarriers + 6) (avail - 1)
      ([kDslShowtimeSNRMarginInfo, a, b, c, d, e, nCarriers] ++
        buffPtr.move (shortWords nCarriers))
  | .eoc value msg =>
    if signed value < signed kDslClearEocFirstCmd then some [kDslReceivedEocCommand, value]
    else
      let (msgType, dataPtr) := msg.getD (0, .unset)
      if isVolatile msgType then
        let size := byteWords (msgType &&& kDslClearEocMsgLengthMask)
        checkAvail size (avail - 3)
          ([kDslReceivedEocCommand, value, msgType] ++ dataPtr.move size)
      else some [kDslReceivedEocCommand, value, msgType, dataPtr.word]
  | .g997 code error =>
    some ([kDslG997Status, code] ++ if isFrameErr code then [error.getD 0] else [])
  | .atm code value param =>
    (flattenAtm code value param avail).map ([kAtmStatus, code, value] ++ ·)
  | .printf fmt args =>
    checkAvail (args.length + 2) (avail - 1)
      ([kDslPrintfStatus, fmt, UInt32.ofNat args.length] ++ args)
  | .exception stack args =>
    checkAvail (34 + args.length) (avail - 1)
      ([kDslExceptionStatus] ++ stack.take 31 ++ [UInt32.ofNat args.length] ++ args)
  | .oemDataAddr value => some [kDslOemDataAddrStatus, value]
  | .dataAvail dataPtr dataLen => some [kDslDataAvailStatus, dataPtr, dataLen]
  | .olr update msgType nCarrs l₀ l₁ b carrParamPtr =>
    some [if update then kDslOLRBitGainUpdateStatus else kDslOLRRequestStatus, msgType.toUInt32,
      nCarrs.toUInt32, l₀, l₁, b, carrParamPtr]
  | .pwrMgr msgType msgLen msgData => some [kDslPwrMgrStatus, msgType, msgLen, msgData]
  | .other code value _ => some [code, value]

/-! ## `UnflattenStatus` -/

structure HostAddr where
  sdramPhyImageAddr : UInt32
  sdramBaseAddr : UInt32
deriving DecidableEq, Repr

namespace HostAddr

def flattenAddrAdjust : UInt32 := 0xfff00000

def sdramAddrToHost (host : HostAddr) (a : UInt32) : UInt32 :=
  a - host.sdramPhyImageAddr + host.sdramBaseAddr

def adslAddrToHost (host : HostAddr) (a : UInt32) : UInt32 :=
  if a &&& 0x19000000 = 0x19000000 then a ||| flattenAddrAdjust else host.sdramAddrToHost a

def eocAddrToHost (host : HostAddr) (a : UInt32) : UInt32 :=
  if a = 0 then a else host.adslAddrToHost a

end HostAddr

structure StatData where
  ptr : UInt32
  len : UInt32
deriving DecidableEq, Repr

/-- What `UnflattenStatus` leaves behind: the status, the number of words read, the announced data,
and the word of the buffer that it overwrites. -/
structure Unflattened where
  status : DslStatusStruct
  words : Nat
  statData : StatData
  patch : Option (Nat × UInt32)

def takeData (sd : StatData) (src : Nat → UInt32) (i size : Nat) :
    UInt32 × BuffPtr × Option (Nat × UInt32) :=
  if sd.ptr ≠ 0 then (sd.len, .addr sd.ptr, some (i - 1, sd.len))
  else (src (i - 1), .words (load src i size), none)

def unflattenAtm (host : HostAddr) (src : Nat → UInt32) : DslStatusStruct × Nat :=
  let code := src 1
  let value := src 2
  match atmCase code with
  | .vcCreated => (.atm code (src 3) (.vcInfo (src 4) (src 5) (src 6) (src 7)), 8)
  | .oamCell => (.atm code value (.oamCmd (src 3)), 4)
  | .packet =>
    let length := src 5
    (.atm code (src 3) (.frame 0 (src 4) length (.words (load src 6 (frameWords length)))),
      6 + frameWords length)
  | .bertResult => (.atm code value (.errBits (src 3)), 4)
  | .counters => (.atm code (host.adslAddrToHost value) .none, 3)
  | .plain => (.atm code value .none, 3)

def unflattenConnectInfo (host : HostAddr) (sd : StatData) (src : Nat → UInt32) :
    DslStatusStruct × Nat × Option (Nat × UInt32) :=
  let code := src 1
  let value := src 2
  match connectCase code with
  | .bytes =>
    let size := byteWords value
    let (value, buffPtr, patch) := takeData sd src 3 size
    (.connectInfo code value buffPtr, 3 + size, patch)
  | .shorts =>
    let size := shortWords value
    let (value, buffPtr, patch) := takeData sd src 3 size
    (.connectInfo code value buffPtr, 3 + size, patch)
  | .codingParams =>
    (.connectInfo code value (.words (load src 3 g992CodingParamsWords)),
      3 + g992CodingParamsWords, none)
  | .carrEdge => (.connectInfo code value (.words (load src 3 2)), 3 + 2, none)
  | .monitoring =>
    (.connectInfo code value (.words (load src 3 kG992ShowtimeNumOfMonitorCounters)),
      3 + kG992ShowtimeNumOfMonitorCounters, none)
  | .p3CodingParams =>
    (.connectInfo code value (.words (load src 3 (byteWords value))), 3 + byteWords value, none)
  | .channel => (.connectInfo code value (.addr (host.adslAddrToHost (src 3))), 4, none)
  | .plain => (.connectInfo code value .unset, 3, none)

def unflattenEoc (host : HostAddr) (src : Nat → UInt32) : DslStatusStruct × Nat :=
  let value := src 1
  if signed value < signed kDslClearEocFirstCmd then (.eoc value none, 2)
  else
    let msgType := src 2
    if isVolatile msgType then
      let size := byteWords (msgType &&& kDslClearEocMsgLengthMask)
      (.eoc value (some (msgType, .words (load src 3 size))), 3 + size)
    else (.eoc value (some (msgType, .addr (host.eocAddrToHost (src 3)))), 4)

def unflattenBody (host : HostAddr) (sd : StatData) (src : Nat → UInt32) :
    DslStatusStruct × Nat × Option (Nat × UInt32) :=
  match statusCase (src 0) with
  | .training => (.training (src 1) (src 2), 3, none)
  | .dspControl => (.dspControl (src 1) (src 2) (host.adslAddrToHost (src 3)), 4, none)
  | .connectInfo => unflattenConnectInfo host sd src
  | .snrMargin =>
    let size := shortWords (src 6)
    let (nCarriers, buffPtr, patch) := takeData sd src 7 size
    (.snrMargin (src 1) (src 2) (src 3) (src 4) (src 5) nCarriers buffPtr, 7 + size, patch)
  | .eoc => ((unflattenEoc host src).1, (unflattenEoc host src).2, none)
  | .g997 =>
    if isFrameErr (src 1) then (.g997 (src 1) (some (src 2)), 3, none)
    else (.g997 (src 1) none, 2, none)
  | .atm => ((unflattenAtm host src).1, (unflattenAtm host src).2, none)
  | .printf =>
    let argNum := (src 2).toNat
    (.printf (host.adslAddrToHost (src 1)) (load src 3 argNum), 3 + argNum, none)
  | .exception =>
    let argc := (src 32).toNat
    (.exception (load src 1 31) (load src 33 argc), 33 + argc, none)
  | .oemDataAddr => (.oemDataAddr (host.sdramAddrToHost (src 1)), 2, none)
  | .dataAvail => (.dataAvail (src 1 ||| HostAddr.flattenAddrAdjust) (src 2), 3, none)
  | .olrRequest =>
    (.olr false (src 1).toUInt16 (src 2).toUInt16 (src 3) (src 4) (src 5)
      (host.adslAddrToHost (src 6)), 7, none)
  | .olrUpdate =>
    (.olr true (src 1).toUInt16 (src 2).toUInt16 (src 3) (src 4) (src 5)
      (host.adslAddrToHost (src 6)), 7, none)
  | .pwrMgr => (.pwrMgr (src 1) (src 2) (host.adslAddrToHost (src 3)), 4, none)
  | .other => (.other (src 0) (src 1) [], 2, none)

def announced : DslStatusStruct → StatData
  | .dspControl code value buffPtr =>
    if code = kDslStatusBufferInfo then ⟨buffPtr, value⟩ else ⟨0, 0⟩
  | _ => ⟨0, 0⟩

def unflattenStatus (host : HostAddr) (sd : StatData) (src : Nat → UInt32) : Unflattened :=
  let (status, words, patch) := unflattenBody host sd src
  ⟨status, words, announced status, patch⟩

/-! ## What the reader is to obtain -/

def HasData (buffPtr : BuffPtr) (size : Nat) : Prop :=
  ∃ data, buffPtr = .words data ∧ data.length = size

def IsLength (length : UInt32) : Prop := length.toNat < 2 ^ 31 - 3

def connectWellFormed (code value : UInt32) (buffPtr : BuffPtr) : Prop :=
  match connectCase code with
  | .bytes | .p3CodingParams => IsLength value ∧ HasData buffPtr (byteWords value)
  | .shorts => IsLength value ∧ HasData buffPtr (shortWords value)
  | .codingParams => HasData buffPtr g992CodingParamsWords
  | .carrEdge => HasData buffPtr 2
  | .monitoring => HasData buffPtr kG992ShowtimeNumOfMonitorCounters
  | .channel => ∃ a, buffPtr = .addr a
  | .plain => True

def atmWellFormed (code : UInt32) (param : AtmParam) : Prop :=
  match atmCase code with
  | .vcCreated => ∃ vci aalType fwd back, param = .vcInfo vci aalType fwd back
  | .oamCell => ∃ cmd, param = .oamCmd cmd
  | .packet => ∃ mid aalType length framePtr, param = .frame mid aalType length framePtr ∧
      IsLength length ∧ HasData framePtr (frameWords length)
  | .bertResult => ∃ bits, param = .errBits bits
  | .counters | .plain => True

def DslStatusStruct.WellFormed : DslStatusStruct → Prop
  | .connectInfo code value buffPtr => connectWellFormed code value buffPtr
  | .snrMargin _ _ _ _ _ nCarriers buffPtr =>
    IsLength nCarriers ∧ HasData buffPtr (shortWords nCarriers)
  | .eoc value msg => signed kDslClearEocFirstCmd ≤ signed value →
      ∃ msgType dataPtr, msg = some (msgType, dataPtr) ∧
        if isVolatile msgType then
          HasData dataPtr (byteWords (msgType &&& kDslClearEocMsgLengthMask))
        else ∃ a, dataPtr = .addr a
  | .g997 code error => isFrameErr code = true → ∃ e, error = some e
  | .atm code _ param => atmWellFormed code param
  | .exception stack _ => stack.length = 31
  | .other code _ _ => statusCase code = .other
  | _ => True

def AtmCase.Carried (c : AtmCase) : Prop := c ≠ .vcCreated ∧ c ≠ .oamCell ∧ c ≠ .packet

def DslStatusStruct.Carried : DslStatusStruct → Prop
  | .atm code _ _ => (atmCase code).Carried
  | _ => True

def delivered (host : HostAddr) (sd : StatData) : DslStatusStruct → DslStatusStruct
  | .dspControl code value buffPtr => .dspControl code value (host.adslAddrToHost buffPtr)
  | .connectInfo code value buffPtr =>
    match connectCase code with
    | .bytes | .shorts =>
      if sd.ptr ≠ 0 then .connectInfo code sd.len (.addr sd.ptr)
      else .connectInfo code value buffPtr
    | .channel => .connectInfo code value (.addr (host.adslAddrToHost buffPtr.word))
    | .plain => .connectInfo code value .unset
    | .codingParams | .carrEdge | .monitoring | .p3CodingParams => .connectInfo code value buffPtr
  | .snrMargin a b c d e nCarriers buffPtr =>
    if sd.ptr ≠ 0 then .snrMargin a b c d e sd.len (.addr sd.ptr)
    else .snrMargin a b c d e nCarriers buffPtr
  | .eoc value msg =>
    if signed value < signed kDslClearEocFirstCmd then .eoc value none
    else .eoc value (msg.map fun (msgType, dataPtr) =>
      (msgType, if isVolatile msgType then dataPtr else .addr (host.eocAddrToHost dataPtr.word)))
  | .g997 code error => .g997 code (if isFrameErr code then error else none)
  | .atm code value param =>
    match atmCase code with
    | .counters => .atm code (host.adslAddrToHost value) .none
    | .plain => .atm code value .none
    | .vcCreated | .oamCell | .packet | .bertResult => .atm code value param
  | .printf fmt args => .printf (host.adslAddrToHost fmt) args
  | .oemDataAddr value => .oemDataAddr (host.sdramAddrToHost value)
  | .dataAvail dataPtr dataLen => .dataAvail (dataPtr ||| HostAddr.flattenAddrAdjust) dataLen
  | .olr update msgType nCarrs l₀ l₁ b carrParamPtr =>
    .olr update msgType nCarrs l₀ l₁ b (host.adslAddrToHost carrParamPtr)
  | .pwrMgr msgType msgLen msgData => .pwrMgr msgType msgLen (host.adslAddrToHost msgData)
  | .other code value _ => .other code value []
  | .training code value => .training code value
  | .exception stack args => .exception stack args

/-! ## Reading words -/

def Reads (src : Nat → UInt32) (i : Nat) (words : List UInt32) : Prop :=
  load src i words.length = words

namespace Reads

variable {src : Nat → UInt32} {i : Nat}

@[simp]
theorem nil : Reads src i [] := rfl

@[simp]
theorem cons {word : UInt32} {words : List UInt32} :
    Reads src i (word :: words) ↔ src i = word ∧ Reads src (i + 1) words :=
  load_eq_cons_iff

theorem append {front back : List UInt32} :
    Reads src i (front ++ back) ↔ Reads src i front ∧ Reads src (i + front.length) back :=
  load_eq_append_iff

theorem load_eq {words : List UInt32} {n : Nat} (reads : Reads src i words)
    (len : words.length = n) : load src i n = words := by
  rw [← len]
  exact reads

end Reads

theorem HasData.move {buffPtr : BuffPtr} {size : Nat} (has : HasData buffPtr size) :
    buffPtr = .words (buffPtr.move size) ∧ (buffPtr.move size).length = size := by
  obtain ⟨data, rfl, len⟩ := has
  simp [BuffPtr.move, len]

theorem checkAvail_eq_some {required : Nat} {avail : Int} {words words' : List UInt32} :
    checkAvail required avail words = some words' ↔ (required : Int) ≤ avail ∧ words = words' := by
  rw [checkAvail]
  split
  next more => simp; omega
  next enough => simp; omega

end EchoLife.Dsl
