import Mathlib.Tactic

/-!
# Receive priority of the ATM processor

A packet is of high priority when it matches all the entries of a priority group, and the group is
one of those in the configuration of its VCC. `setVccCfg` copies the group numbers of a VCC to a
row of another table, where `isHighPriorityPkt` looks for them. The row is that of the field
`ucVcid`, which stays 0, while `Attach` keeps the number of the VCC elsewhere; and the copy has
`NUM_PRI_PKT_GROUPS` bytes, which are four numbers.
-/

namespace EchoLife.Atm

/-! ## The source -/

def numPriPktGroups : Nat := 16
def numEntriesPerPriPktGroup : Nat := 6
def maxVccInfos : Nat := 16
def bdRxVcidMask : UInt8 := 0x0f

def idAtmPriorityPacketEntry : UInt32 := 1
def idAtmVccCfg : UInt32 := 3

def admstsUp : UInt32 := 1
def oprstsUp : UInt32 := 1
def oprstsDown : UInt32 := 2

structure AtmPriorityPacketEntry where
  ulStructureId : UInt32
  ulPacketOffset : UInt32
  usPacketValue : UInt16
  usValueMask : UInt16
deriving DecidableEq, Repr

def zeroEntry : AtmPriorityPacketEntry := ⟨0, 0, 0, 0⟩

structure AtmVccAddr where
  ulInterfaceId : UInt32
  usVpi : UInt16
  usVci : UInt16
deriving DecidableEq, Repr

structure AtmVccCfg where
  ulStructureId : UInt32
  ulAtmVclAdminStatus : UInt32
  ulAtmVclOperStatus : UInt32
  ulAtmVclLastChange : UInt32
  ulPriorityPacketGroupNumbers : List Nat
deriving DecidableEq, Repr

structure AtmVccInfo where
  addr : AtmVccAddr
  cfg : AtmVccCfg
  pInterface : Nat
  ucVcid : Nat
deriving DecidableEq, Repr

structure AtmInterface where
  ulInterfaceId : UInt32
  isInterfaceUp : Bool
  isLinkUp : Bool
deriving DecidableEq, Repr

inductive AtmCfgStatus where
  | success
  | parameterError
  | allocError
  | notFound
deriving DecidableEq, Repr

/-- The tables of the processor: the rows of `priPktGroups` have seven entries, those of
`priPktNumbers` 17 words. -/
structure AtmProcessor where
  usFreePktQBufSize : UInt16
  interfaces : List AtmInterface
  priPktGroups : Nat → List AtmPriorityPacketEntry
  priPktNumbers : Nat → List Nat
  vccInfos : Nat → List AtmVccInfo

def memcpyWords (dst src : List Nat) (bytes : Nat) : List Nat :=
  src.take (bytes / 4) ++ dst.drop (bytes / 4)

def copyEntries (bufSize : UInt16) :
    List AtmPriorityPacketEntry → List AtmPriorityPacketEntry × AtmCfgStatus
  | [] => ([], .success)
  | entry :: rest =>
    if entry.ulStructureId = idAtmPriorityPacketEntry ∧
        entry.ulPacketOffset < bufSize.toUInt32 then
      (entry :: (copyEntries bufSize rest).1, (copyEntries bufSize rest).2)
    else ([], .parameterError)

def shiftLeft : List Nat → List Nat
  | [] => []
  | number :: rest => if number = 0 then 0 :: number :: rest else number :: shiftLeft rest

def removeGroup (ulGroupNumber : Nat) : List Nat → List Nat
  | [] => []
  | number :: rest =>
    if number = 0 then number :: rest
    else if number = ulGroupNumber then shiftLeft rest
    else number :: removeGroup ulGroupNumber rest

def packetValue (pucPkt : Nat → UInt8) (offset : UInt32) : UInt16 :=
  (pucPkt offset.toNat).toUInt16 <<< 8 ||| (pucPkt (offset.toNat + 1)).toUInt16

def AtmPriorityPacketEntry.matchesPkt (entry : AtmPriorityPacketEntry) (pucPkt : Nat → UInt8) :
    Bool :=
  packetValue pucPkt entry.ulPacketOffset &&& entry.usValueMask == entry.usPacketValue

def entriesMatch (pucPkt : Nat → UInt8) : List AtmPriorityPacketEntry → Bool
  | [] => true
  | entry :: rest =>
    if entry.ulStructureId = idAtmPriorityPacketEntry then
      if entry.matchesPkt pucPkt then entriesMatch pucPkt rest else false
    else true

def groupMatches (pucPkt : Nat → UInt8) (group : List AtmPriorityPacketEntry) : Bool :=
  match group with
  | [] => false
  | entry :: _ =>
    if entry.ulStructureId = idAtmPriorityPacketEntry then entriesMatch pucPkt group else false

def replaceInfo (addr : AtmVccAddr) (cfg : AtmVccCfg) (pInterface : Nat) :
    List AtmVccInfo → List AtmVccInfo
  | [] => []
  | info :: rest =>
    if info.addr = addr then
      { info with addr := addr, cfg := cfg, pInterface := pInterface } :: rest
    else info :: replaceInfo addr cfg pInterface rest

def removeInfo (addr : AtmVccAddr) : List AtmVccInfo → List AtmVccInfo
  | [] => []
  | info :: rest => if info.addr = addr then rest else info :: removeInfo addr rest

def AtmVccAddr.hashValue (addr : AtmVccAddr) : Nat := addr.usVci.toNat &&& (maxVccInfos - 1)

namespace AtmProcessor

def initial (usFreePktQBufSize : UInt16) (interfaces : List AtmInterface) : AtmProcessor where
  usFreePktQBufSize := usFreePktQBufSize
  interfaces := interfaces
  priPktGroups _ := List.replicate (numEntriesPerPriPktGroup + 1) zeroEntry
  priPktNumbers _ := List.replicate (numPriPktGroups + 1) 0
  vccInfos _ := []

def get (p : AtmProcessor) (addr : AtmVccAddr) : Option AtmVccInfo :=
  (p.vccInfos addr.hashValue).find? fun info => info.addr = addr

def addReplace (p : AtmProcessor) (addr : AtmVccAddr) (cfg : AtmVccCfg) (pInterface : Nat)
    (alloc : Bool) : AtmProcessor × AtmCfgStatus :=
  let bucket := p.vccInfos addr.hashValue
  let store (bucket : List AtmVccInfo) : AtmProcessor :=
    { p with vccInfos := Function.update p.vccInfos addr.hashValue bucket }
  if (p.get addr).isSome then (store (replaceInfo addr cfg pInterface bucket), .success)
  else if alloc then (store (⟨addr, cfg, pInterface, 0⟩ :: bucket), .success)
  else (p, .allocError)

def remove (p : AtmProcessor) (addr : AtmVccAddr) : AtmProcessor :=
  { p with
    vccInfos := Function.update p.vccInfos addr.hashValue
      (removeInfo addr (p.vccInfos addr.hashValue)) }

def getVccCfg (p : AtmProcessor) (addr : AtmVccAddr) : Option AtmVccCfg :=
  (p.get addr).map fun info =>
    let up := (p.interfaces[info.pInterface]?).any fun i => i.isInterfaceUp && i.isLinkUp
    { info.cfg with
      ulAtmVclOperStatus := if up then info.cfg.ulAtmVclOperStatus else oprstsDown
      ulPriorityPacketGroupNumbers := memcpyWords info.cfg.ulPriorityPacketGroupNumbers
        (p.priPktNumbers info.ucVcid) numPriPktGroups }

def datedCfg (p : AtmProcessor) (addr : AtmVccAddr) (cfg : AtmVccCfg) (tick : UInt32) :
    AtmVccCfg :=
  let same := (p.getVccCfg addr).any fun current =>
    current.ulAtmVclAdminStatus == cfg.ulAtmVclAdminStatus
  { cfg with
    ulAtmVclLastChange := if same then cfg.ulAtmVclLastChange else tick / 10
    ulAtmVclOperStatus := if cfg.ulAtmVclAdminStatus = admstsUp then oprstsUp else oprstsDown }

def copyNumbers (p : AtmProcessor) (addr : AtmVccAddr) (cfg : AtmVccCfg) : AtmProcessor :=
  match p.get addr with
  | none => p
  | some info =>
    { p with
      priPktNumbers := Function.update p.priPktNumbers info.ucVcid
        (memcpyWords (p.priPktNumbers info.ucVcid) cfg.ulPriorityPacketGroupNumbers
          numPriPktGroups) }

def setVccCfg (p : AtmProcessor) (addr : AtmVccAddr) (cfg : Option AtmVccCfg) (tick : UInt32)
    (alloc : Bool) : AtmProcessor × AtmCfgStatus :=
  match cfg with
  | none => (p.remove addr, .success)
  | some cfg =>
    if cfg.ulStructureId = idAtmVccCfg then
      match p.interfaces.findIdx? fun i => i.ulInterfaceId = addr.ulInterfaceId with
      | none => (p, .notFound)
      | some i =>
        let cfg := p.datedCfg addr cfg tick
        let added := p.addReplace addr cfg i alloc
        (added.1.copyNumbers addr cfg, added.2)
    else (p, .parameterError)

def setPriorityPacketGroup (p : AtmProcessor) (ulGroupNumber : Nat)
    (pPriorityPackets : Option (List AtmPriorityPacketEntry)) (ulPriorityPacketsSize : Nat) :
    AtmProcessor × AtmCfgStatus :=
  if 1 ≤ ulGroupNumber ∧ ulGroupNumber ≤ numPriPktGroups ∧
      ulPriorityPacketsSize ≤ numEntriesPerPriPktGroup then
    let copied := copyEntries p.usFreePktQBufSize
      ((pPriorityPackets.getD []).take ulPriorityPacketsSize)
    let row := copied.1 ++
      List.replicate (numEntriesPerPriPktGroup - copied.1.length) zeroEntry ++
      (p.priPktGroups (ulGroupNumber - 1)).drop numEntriesPerPriPktGroup
    let p := { p with priPktGroups := Function.update p.priPktGroups (ulGroupNumber - 1) row }
    if (row.head?.map AtmPriorityPacketEntry.ulStructureId) = some idAtmPriorityPacketEntry then
      (p, copied.2)
    else
      ({ p with priPktNumbers := fun i => removeGroup ulGroupNumber (p.priPktNumbers i) }, copied.2)
  else (p, .parameterError)

def anyGroup (p : AtmProcessor) (pucPkt : Nat → UInt8) : List Nat → Bool
  | [] => false
  | number :: rest =>
    if number = 0 then false
    else if groupMatches pucPkt (p.priPktGroups (number - 1)) then true
    else anyGroup p pucPkt rest

def isHighPriorityPkt (p : AtmProcessor) (ucRxPortIdVcid : UInt8) (pucPkt : Nat → UInt8) : Bool :=
  p.anyGroup pucPkt (p.priPktNumbers (ucRxPortIdVcid &&& bdRxVcidMask).toNat)

end AtmProcessor

inductive PriorityCall where
  | setPriorityPacketGroup (ulGroupNumber : Nat)
      (pPriorityPackets : Option (List AtmPriorityPacketEntry)) (ulPriorityPacketsSize : Nat)
  | setVccCfg (addr : AtmVccAddr) (cfg : Option AtmVccCfg) (tick : UInt32) (alloc : Bool)

def AtmProcessor.step (p : AtmProcessor) : PriorityCall → AtmProcessor
  | .setPriorityPacketGroup number packets size => (p.setPriorityPacketGroup number packets size).1
  | .setVccCfg addr cfg tick alloc => (p.setVccCfg addr cfg tick alloc).1

def AtmProcessor.run (calls : List PriorityCall) (p : AtmProcessor) : AtmProcessor :=
  calls.foldl AtmProcessor.step p

/-- The numbers that `Attach` has given to VCCs: `AssignVcid` takes one that is not in use. It does
not write the table of the VCCs. -/
structure Attachment where
  vcid : AtmVccAddr → Option Nat
  small : ∀ addr k, vcid addr = some k → k < 16
  unique : ∀ addr addr' k, vcid addr = some k → vcid addr' = some k → addr = addr'

end EchoLife.Atm
