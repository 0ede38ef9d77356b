import EchoLife.SoftSar.Calls
import EchoLife.Lib.ChainedTable

/-!
# Creating and destroying virtual circuits

A virtual circuit gets an identifier for its address (`assignVcid`), then a place in the channel
table, an item of a hash table, and pools for its packets (`createVc`). Nothing is undone when an
allocation fails, and an address that is found counts as created. `circuits_atomic_iff` says what
holds in every run, with `MeetsOwnAddress` as its condition, and `circuits_not_atomic` has a run for
each exception. The place that is handed out is never in use (`sound_createVc`,
`sound_destroyVc`).
-/

namespace EchoLife.SoftSar

open List Function ChainedTable History

/-! ## The source -/

structure VccAddr where
  usVpi : UInt16
  usVci : UInt16
  deriving Repr, DecidableEq

def VccAddr.vpivci (pAddr : VccAddr) : UInt32 :=
  (pAddr.usVpi.toUInt32 <<< 16) ||| pAddr.usVci.toUInt32

def vcTableItems : Nat := 8

def hashParam : Nat := vcTableItems - 1

def hashParamRecip : Nat := 0x8000 / hashParam

def getHashIndex (key : Nat) : Nat :=
  let x := (key ^^^ (key >>> 16)) &&& 0xFFFF
  let n := x - ((x * hashParamRecip) >>> 15) * hashParam
  if n ≥ vcTableItems then 0 else n

def vcTableInit : Table Nat := ⟨fun _ => [], fun _ => 0, (List.range vcTableItems).reverse⟩

def maxVcids : Nat := 8

inductive VcStatus where
  | success
  | parameterError
  | resourceError
  | allocError
  | inUse
  deriving Repr, DecidableEq

structure Circuits where
  sar : AtmSoftSar
  table : Table Nat
  vccAddrForVcid : Nat → Option VccAddr
  vcidMask : BitVec 32
  framePool : Nat → Bool
  bufferPool : Nat → Bool

def assignVcid (c : Circuits) (pAddr : VccAddr) : Nat × Circuits :=
  match (List.range maxVcids).find? fun i => !c.vcidMask.getLsbD i with
  | none => (0xff, c)
  | some i =>
    (i, { c with
      vcidMask := c.vcidMask ||| (1#32 <<< i)
      vccAddrForVcid := update c.vccAddrForVcid i (some pAddr) })

def unassignVcid (c : Circuits) (ucVcid : Nat) : Circuits :=
  if ucVcid < maxVcids then
    { c with
      vcidMask := c.vcidMask &&& ~~~(1#32 <<< ucVcid)
      vccAddrForVcid := update c.vccAddrForVcid ucVcid none }
  else c

/-- Take a place and allocate its pools, the frames first; `framesOk` and `buffersOk` say how the
allocations turn out. -/
def atmLayerVcAllocate (c : Circuits) (vpivci : UInt32) (framesOk buffersOk : Bool) :
    VcStatus × Option Nat × Circuits :=
  match c.table.findOrAdd getHashIndex vpivci.toNat with
  | (none, _) => (.resourceError, none, c)
  | (some (_, false), _) => (.inUse, none, c)
  | (some (pVc, true), table) =>
    let c := { c with table := table }
    if framesOk then
      let c := { c with framePool := update c.framePool pVc true }
      if buffersOk then
        (.success, some pVc, { c with bufferPool := update c.bufferPool pVc true })
      else (.allocError, none, c)
    else (.allocError, none, c)

namespace Circuits

def createVc (c : Circuits) (ucVcid ulTxPoolSize ulNumPriorities : Nat)
    (pEntry : TrafficDescrParmEntry) (framesOk buffersOk : Bool) : VcStatus × Circuits :=
  match c.vccAddrForVcid ucVcid with
  | none => (.parameterError, c)
  | some pAddr =>
    match atmLayerVcAllocate c pAddr.vpivci framesOk buffersOk with
    | (.success, some pVc, c) =>
      (.success, { c with
        sar := SoftSar.createVc c.sar ucVcid pVc pAddr.vpivci ulTxPoolSize ulNumPriorities
          pEntry })
    -- The function is called more than one time for the circuit if there are several queues.
    | (.inUse, _, c) => (.success, c)
    | (status, _, c) => (status, c)

def destroyVc (c : Circuits) (ucVcid : Nat) : VcStatus × Circuits :=
  match c.sar.vcStateForVcid ucVcid with
  | none => (.parameterError, c)
  | some pVc =>
    let sar := SoftSar.destroyVc c.sar ucVcid
    if AtmSoftSar.inUse
        { c.sar with vcStateForVcid := update c.sar.vcStateForVcid ucVcid none } pVc then
      (.success, { c with sar := sar })
    else
      (.success, { c with
        sar := sar
        framePool := update c.framePool pVc false
        bufferPool := update c.bufferPool pVc false
        table := c.table.delete getHashIndex (c.sar.vcTable pVc).vcParams.vpivci.toNat })

end Circuits

inductive CircuitCall where
  | assignVcid (pAddr : VccAddr)
  | unassignVcid (ucVcid : Nat)
  | createVc (ucVcid ulTxPoolSize ulNumPriorities : Nat) (pEntry : TrafficDescrParmEntry)
      (framesOk buffersOk : Bool)
  | destroyVc (ucVcid : Nat)
  deriving Repr, DecidableEq

inductive Reply where
  | vcid (ucVcid : Nat)
  | status (status : VcStatus)
  | done
  deriving Repr, DecidableEq

def circuitStep (c : Circuits) : CircuitCall → Reply × Circuits
  | .assignVcid pAddr => (.vcid (assignVcid c pAddr).1, (assignVcid c pAddr).2)
  | .unassignVcid ucVcid => (.done, unassignVcid c ucVcid)
  | .createVc ucVcid ulTxPoolSize ulNumPriorities pEntry framesOk buffersOk =>
    let made := c.createVc ucVcid ulTxPoolSize ulNumPriorities pEntry framesOk buffersOk
    (.status made.1, made.2)
  | .destroyVc ucVcid => (.status (c.destroyVc ucVcid).1, (c.destroyVc ucVcid).2)

def circuitsInit (cpuTick : Int) (connectRate cellTicks : Nat) : Circuits where
  sar := atmLayerInit cpuTick connectRate cellTicks
  table := vcTableInit
  vccAddrForVcid _ := none
  vcidMask := 0
  framePool _ := false
  bufferPool _ := false

/-! ## Sound states -/

def Circuits.keyOf (c : Circuits) (v : Nat) : Nat := (c.sar.vcTable v).vcParams.vpivci.toNat

structure Sound (c : Circuits) : Prop where
  wf : WellFormed getHashIndex c.table
  linkage : Linkage c.sar
  held : ∀ v ∈ c.sar.dlistAllVc, c.table.Holds getHashIndex (c.keyOf v) v
  pools : ∀ v ∈ c.sar.dlistAllVc, c.framePool v = true ∧ c.bufferPool v = true

section Steps

variable {c : Circuits} {ucVcid ulTxPoolSize ulNumPriorities : Nat} {pEntry : TrafficDescrParmEntry}
  {framesOk buffersOk : Bool} {pAddr : VccAddr}

theorem Sound.not_live_of_free (sound : Sound c) {v : Nat} (free : v ∈ c.table.free) :
    v ∉ c.sar.dlistAllVc :=
  fun live => sound.wf.not_free (sound.held v live) free

inductive Creates (c : Circuits) (ucVcid : Nat) (pAddr : VccAddr)
    (ulTxPoolSize ulNumPriorities : Nat)
    (pEntry : TrafficDescrParmEntry) : VcStatus × Circuits → Prop where
  | found {v : Nat} (holds : c.table.Holds getHashIndex pAddr.vpivci.toNat v) :
      Creates c ucVcid pAddr ulTxPoolSize ulNumPriorities pEntry (.success, c)
  | full (unheld : ∀ v, ¬ c.table.Holds getHashIndex pAddr.vpivci.toNat v) :
      Creates c ucVcid pAddr ulTxPoolSize ulNumPriorities pEntry (.resourceError, c)
  | failed {v : Nat} {table : Table Nat} {framePool : Nat → Bool}
      (unheld : ∀ w, ¬ c.table.Holds getHashIndex pAddr.vpivci.toNat w) (free : v ∈ c.table.free)
      (wf : WellFormed getHashIndex table)
      (holds : ∀ k w, table.Holds getHashIndex k w ↔
        k = pAddr.vpivci.toNat ∧ w = v ∨ c.table.Holds getHashIndex k w)
      (pools : ∀ w ≠ v, framePool w = c.framePool w) :
      Creates c ucVcid pAddr ulTxPoolSize ulNumPriorities pEntry
        (.allocError, { c with table := table, framePool := framePool })
  | created {v : Nat} {table : Table Nat}
      (unheld : ∀ w, ¬ c.table.Holds getHashIndex pAddr.vpivci.toNat w) (free : v ∈ c.table.free)
      (wf : WellFormed getHashIndex table)
      (holds : ∀ k w, table.Holds getHashIndex k w ↔
        k = pAddr.vpivci.toNat ∧ w = v ∨ c.table.Holds getHashIndex k w) :
      Creates c ucVcid pAddr ulTxPoolSize ulNumPriorities pEntry (.success, { c with
        sar := createVc c.sar ucVcid v pAddr.vpivci ulTxPoolSize ulNumPriorities pEntry
        table := table
        framePool := update c.framePool v true
        bufferPool := update c.bufferPool v true })

theorem creates_createVc (sound : Sound c) (address : c.vccAddrForVcid ucVcid = some pAddr) :
    Creates c ucVcid pAddr ulTxPoolSize ulNumPriorities pEntry
      (c.createVc ucVcid ulTxPoolSize ulNumPriorities pEntry framesOk buffersOk) := by
  rw [Circuits.createVc, address]
  dsimp only
  rw [atmLayerVcAllocate]
  rcases sound.wf.findOrAdd_cases pAddr.vpivci.toNat with
    ⟨v, holds, found⟩ | ⟨unheld, full⟩ | ⟨v, table, unheld, free, added, wf, holds⟩
  · rw [found]
    exact .found holds
  · rw [full]
    exact .full unheld
  · rw [added]
    cases framesOk with
    | false => exact .failed unheld free wf holds fun _ _ => rfl
    | true =>
      cases buffersOk with
      | false =>
        refine .failed unheld free wf holds fun w other => ?_
        exact update_of_ne other ..
      | true => exact .created unheld free wf holds

theorem createVc_noAddress (missing : c.vccAddrForVcid ucVcid = none) :
    c.createVc ucVcid ulTxPoolSize ulNumPriorities pEntry framesOk buffersOk =
      (.parameterError, c) := by
  rw [Circuits.createVc, missing]

theorem keyOf_createVc (s : AtmSoftSar) (ucVcid v w : Nat) (vpivci : UInt32)
    (ulTxPoolSize ulNumPriorities : Nat) (pEntry : TrafficDescrParmEntry) :
    ((createVc s ucVcid v vpivci ulTxPoolSize ulNumPriorities pEntry).vcTable w).vcParams.vpivci =
      if w = v then vpivci else (s.vcTable w).vcParams.vpivci := by
  split
  next same =>
    subst same
    have table : (createVc s ucVcid w vpivci ulTxPoolSize ulNumPriorities pEntry).vcTable w = _ :=
      setVc_self _ w _
    rw [table, setVc_self]
    rfl
  next other =>
    have table : (createVc s ucVcid v vpivci ulTxPoolSize ulNumPriorities pEntry).vcTable w = _ :=
      setVc_of_ne _ _ other
    rw [table, setVc_of_ne s _ other]

theorem Sound.creates (sound : Sound c) {made : VcStatus × Circuits}
    (creates : Creates c ucVcid pAddr ulTxPoolSize ulNumPriorities pEntry made) :
    Sound made.2 := by
  cases creates with
  | found => exact sound
  | full => exact sound
  | @failed v table framePool unheld free wf holds pools =>
    refine ⟨wf, sound.linkage, fun w live => (holds _ w).mpr (.inr (sound.held w live)), ?_⟩
    intro w live
    have other : w ≠ v := fun same => sound.not_live_of_free free (same ▸ live)
    exact ⟨(pools w other).trans (sound.pools w live).1, (sound.pools w live).2⟩
  | @created v table unheld free wf holds =>
    have fresh := sound.not_live_of_free free
    have listed (w : Nat) (live : w ∈ c.sar.dlistAllVc.filter (· ≠ v) ++ [v]) :
        w = v ∨ w ≠ v ∧ w ∈ c.sar.dlistAllVc := by
      rw [mem_append, mem_filter_ne, mem_singleton] at live
      tauto
    refine ⟨wf, (acts_createVc sound.linkage fresh ucVcid pAddr.vpivci ulTxPoolSize
      ulNumPriorities pEntry).1, fun w live => ?_, fun w live => ?_⟩
    · rw [Circuits.keyOf, keyOf_createVc, holds]
      rcases listed w live with rfl | ⟨other, before⟩
      · rw [if_pos rfl]
        exact .inl ⟨rfl, rfl⟩
      · rw [if_neg other]
        exact .inr (sound.held w before)
    · rcases listed w live with rfl | ⟨other, before⟩
      · exact ⟨update_self .., update_self ..⟩
      · obtain ⟨frames, buffers⟩ := sound.pools w before
        exact ⟨(update_of_ne other ..).trans frames,
          (update_of_ne other ..).trans buffers⟩

theorem sound_createVc (sound : Sound c) :
    Sound (c.createVc ucVcid ulTxPoolSize ulNumPriorities pEntry framesOk buffersOk).2 := by
  cases address : c.vccAddrForVcid ucVcid with
  | none =>
    rw [createVc_noAddress address]
    exact sound
  | some pAddr => exact sound.creates (creates_createVc sound address)

theorem destroyVc_some (sound : Sound c) {v : Nat} (found : c.sar.vcStateForVcid ucVcid = some v) :
    c.destroyVc ucVcid = (.success, { c with
      sar := AtmSoftSar.closeVc
        { c.sar with vcStateForVcid := update c.sar.vcStateForVcid ucVcid none } v
      framePool := update c.framePool v false
      bufferPool := update c.bufferPool v false
      table := c.table.delete getHashIndex (c.keyOf v) }) := by
  rw [Circuits.destroyVc, found]
  dsimp only
  rw [if_neg (sound.linkage.not_inUse found), sound.linkage.destroyVc_eq found]
  rfl

theorem keyOf_closeVc (s : AtmSoftSar) (v w : Nat) :
    ((s.closeVc v).vcTable w).vcParams = (s.vcTable w).vcParams := by
  by_cases same : w = v
  · subst same
    have table : (s.closeVc w).vcTable w = _ := setVc_self s w _
    rw [table]
  · have table : (s.closeVc v).vcTable w = _ := setVc_of_ne s _ same
    rw [table]

theorem sound_destroyVc (sound : Sound c) : Sound (c.destroyVc ucVcid).2 := by
  cases found : c.sar.vcStateForVcid ucVcid with
  | none =>
    rw [Circuits.destroyVc, found]
    exact sound
  | some v =>
    have held := sound.held v (sound.linkage.mapped ucVcid v found)
    obtain ⟨wf, holds⟩ := sound.wf.delete held
    have linkage := (acts_destroyVc sound.linkage ucVcid).1
    rw [sound.linkage.destroyVc_eq found] at linkage
    rw [destroyVc_some sound found]
    refine ⟨wf, linkage, fun w live => ?_, fun w live => ?_⟩
    · obtain ⟨before, other⟩ := mem_filter_ne.mp live
      have heldW := sound.held w before
      show Table.Holds _ _ ((AtmSoftSar.closeVc _ v).vcTable w).vcParams.vpivci.toNat w
      rw [keyOf_closeVc, holds]
      refine ⟨heldW, fun same => other ?_⟩
      have same : c.keyOf w = c.keyOf v := same
      rw [same] at heldW
      exact sound.wf.holds_unique heldW held
    · obtain ⟨before, other⟩ := mem_filter_ne.mp live
      obtain ⟨frames, buffers⟩ := sound.pools w before
      exact ⟨(update_of_ne other ..).trans frames,
        (update_of_ne other ..).trans buffers⟩

theorem assignVcid_same (c : Circuits) (pAddr : VccAddr) :
    (assignVcid c pAddr).2.sar = c.sar ∧ (assignVcid c pAddr).2.table = c.table ∧
      (assignVcid c pAddr).2.framePool = c.framePool ∧
      (assignVcid c pAddr).2.bufferPool = c.bufferPool := by
  rw [assignVcid]
  split
  · exact ⟨rfl, rfl, rfl, rfl⟩
  · exact ⟨rfl, rfl, rfl, rfl⟩

theorem unassignVcid_same (c : Circuits) (ucVcid : Nat) :
    (unassignVcid c ucVcid).sar = c.sar ∧ (unassignVcid c ucVcid).table = c.table ∧
      (unassignVcid c ucVcid).framePool = c.framePool ∧
      (unassignVcid c ucVcid).bufferPool = c.bufferPool := by
  rw [unassignVcid]
  split
  · exact ⟨rfl, rfl, rfl, rfl⟩
  · exact ⟨rfl, rfl, rfl, rfl⟩

theorem Sound.of_same {c' : Circuits} (sound : Sound c) (sar : c'.sar = c.sar)
    (table : c'.table = c.table) (framePool : c'.framePool = c.framePool)
    (bufferPool : c'.bufferPool = c.bufferPool) : Sound c' := by
  obtain ⟨wf, linkage, held, pools⟩ := sound
  refine ⟨table ▸ wf, sar ▸ linkage, fun v live => ?_, fun v live => ?_⟩
  · rw [table, Circuits.keyOf, sar]
    exact held v (sar ▸ live)
  · rw [framePool, bufferPool]
    exact pools v (sar ▸ live)

theorem Sound.step (sound : Sound c) (call : CircuitCall) : Sound (circuitStep c call).2 := by
  cases call with
  | assignVcid pAddr =>
    obtain ⟨sar, table, framePool, bufferPool⟩ := assignVcid_same c pAddr
    exact sound.of_same sar table framePool bufferPool
  | unassignVcid ucVcid =>
    obtain ⟨sar, table, framePool, bufferPool⟩ := unassignVcid_same c ucVcid
    exact sound.of_same sar table framePool bufferPool
  | createVc => exact sound_createVc sound
  | destroyVc => exact sound_destroyVc sound

theorem sound_init (cpuTick : Int) (connectRate cellTicks : Nat) :
    Sound (circuitsInit cpuTick connectRate cellTicks) :=
  ⟨wellFormed_empty _ (by decide) _, linkage_atmLayerInit cpuTick connectRate cellTicks,
    fun _ live => absurd live not_mem_nil, fun _ live => absurd live not_mem_nil⟩

end Steps

/-! ## Runs -/

/-- The circuits that have been created and not destroyed since, by identifier: the address that the
identifier had when `CreateVc` returned success. -/
def recordCreated (created : Nat → Option UInt32) (t : Transition Circuits CircuitCall Reply) :
    Nat → Option UInt32 :=
  match t.call with
  | .createVc ucVcid .. =>
    if t.out = .status .success then
      update created ucVcid ((t.before.vccAddrForVcid ucVcid).map VccAddr.vpivci)
    else created
  | .destroyVc ucVcid => update created ucVcid none
  | _ => created

def createdBy (run : List (Transition Circuits CircuitCall Reply)) : Nat → Option UInt32 :=
  run.foldl recordCreated fun _ => none

def MeetsOwnAddress (c : Circuits) : CircuitCall → Prop
  | .createVc ucVcid .. => ∀ pAddr v, c.vccAddrForVcid ucVcid = some pAddr →
      c.table.Holds getHashIndex pAddr.vpivci.toNat v → c.sar.vcStateForVcid ucVcid = some v
  | _ => True

structure LiveVc (c : Circuits) (v : Nat) (vpivci : UInt32) : Prop where
  listed : v ∈ c.sar.dlistAllVc
  address : (c.sar.vcTable v).vcParams.vpivci = vpivci
  held : c.table.Holds getHashIndex vpivci.toNat v
  framePool : c.framePool v = true
  bufferPool : c.bufferPool v = true

structure Assigned (c : Circuits) (created : Nat → Option UInt32) : Prop where
  sound : Sound c
  mapped : ∀ ucVcid vpivci, created ucVcid = some vpivci →
    ∃ v, c.sar.vcStateForVcid ucVcid = some v ∧ (c.sar.vcTable v).vcParams.vpivci = vpivci

section Runs

variable {c : Circuits} {created : Nat → Option UInt32}

theorem Assigned.live (assigned : Assigned c created) {ucVcid : Nat} {vpivci : UInt32}
    (made : created ucVcid = some vpivci) :
    ∃ v, c.sar.vcStateForVcid ucVcid = some v ∧ LiveVc c v vpivci := by
  obtain ⟨v, found, address⟩ := assigned.mapped ucVcid vpivci made
  have listed := assigned.sound.linkage.mapped ucVcid v found
  obtain ⟨frames, buffers⟩ := assigned.sound.pools v listed
  refine ⟨v, found, listed, address, ?_, frames, buffers⟩
  rw [← address]
  exact assigned.sound.held v listed

theorem Assigned.creates {ucVcid ulTxPoolSize ulNumPriorities : Nat}
    {pEntry : TrafficDescrParmEntry} {pAddr : VccAddr} {made : VcStatus × Circuits}
    (assigned : Assigned c created)
    (creates : Creates c ucVcid pAddr ulTxPoolSize ulNumPriorities pEntry made)
    (own : ∀ v, c.table.Holds getHashIndex pAddr.vpivci.toNat v →
      c.sar.vcStateForVcid ucVcid = some v) :
    Assigned made.2 (if made.1 = .success then
      update created ucVcid (some pAddr.vpivci) else created) := by
  have sound := assigned.sound.creates creates
  cases creates with
  | @found v holds =>
    refine ⟨sound, fun u vpivci entered => ?_⟩
    rw [if_pos rfl] at entered
    by_cases same : u = ucVcid
    · subst same
      rw [update_self, Option.some.injEq] at entered
      subst entered
      have mapped := own v holds
      have held := assigned.sound.held v (assigned.sound.linkage.mapped u v mapped)
      exact ⟨v, mapped, UInt32.toNat_inj.mp (held.2.symm.trans holds.2)⟩
    · rw [update_of_ne same] at entered
      exact assigned.mapped u vpivci entered
  | full | failed => exact ⟨sound, assigned.mapped⟩
  | @created v table unheld free wf holds =>
    refine ⟨sound, fun u vpivci entered => ?_⟩
    rw [if_pos rfl] at entered
    have keys (w : Nat) := keyOf_createVc c.sar ucVcid v w pAddr.vpivci ulTxPoolSize
      ulNumPriorities pEntry
    by_cases same : u = ucVcid
    · subst same
      rw [update_self, Option.some.injEq] at entered
      refine ⟨v, update_self .., ?_⟩
      show ((createVc c.sar u v _ _ _ _).vcTable v).vcParams.vpivci = _
      rw [keys v, if_pos rfl, entered]
    · rw [update_of_ne same] at entered
      obtain ⟨w, mapped, address⟩ := assigned.mapped u vpivci entered
      have other : w ≠ v := by
        rintro rfl
        exact assigned.sound.not_live_of_free free (assigned.sound.linkage.mapped u w mapped)
      refine ⟨w, (update_of_ne same ..).trans mapped, ?_⟩
      show ((createVc c.sar ucVcid v _ _ _ _).vcTable w).vcParams.vpivci = _
      rw [keys w, if_neg other, address]

theorem Assigned.destroyed (assigned : Assigned c created) (ucVcid : Nat) :
    Assigned (c.destroyVc ucVcid).2 (update created ucVcid none) := by
  refine ⟨sound_destroyVc assigned.sound, fun u vpivci entered => ?_⟩
  have other : u ≠ ucVcid := by
    rintro rfl
    rw [update_self] at entered
    cases entered
  rw [update_of_ne other] at entered
  obtain ⟨w, mapped, address⟩ := assigned.mapped u vpivci entered
  cases found : c.sar.vcStateForVcid ucVcid with
  | none =>
    rw [Circuits.destroyVc, found]
    exact ⟨w, mapped, address⟩
  | some v =>
    rw [destroyVc_some assigned.sound found]
    refine ⟨w, (update_of_ne other ..).trans mapped, ?_⟩
    show ((AtmSoftSar.closeVc _ v).vcTable w).vcParams.vpivci = vpivci
    rw [keyOf_closeVc]
    exact address

theorem Assigned.step (assigned : Assigned c created) {call : CircuitCall}
    (own : MeetsOwnAddress c call) :
    Assigned (circuitStep c call).2
      (recordCreated created ⟨c, call, (circuitStep c call).1, (circuitStep c call).2⟩) := by
  cases call with
  | assignVcid pAddr =>
    obtain ⟨sar, -⟩ := assignVcid_same c pAddr
    refine ⟨assigned.sound.step (.assignVcid pAddr), ?_⟩
    rw [show (circuitStep c (.assignVcid pAddr)).2.sar = c.sar from sar]
    exact assigned.mapped
  | unassignVcid ucVcid =>
    obtain ⟨sar, -⟩ := unassignVcid_same c ucVcid
    refine ⟨assigned.sound.step (.unassignVcid ucVcid), ?_⟩
    rw [show (circuitStep c (.unassignVcid ucVcid)).2.sar = c.sar from sar]
    exact assigned.mapped
  | createVc ucVcid ulTxPoolSize ulNumPriorities pEntry framesOk buffersOk =>
    rw [recordCreated, circuitStep]
    simp only [Reply.status.injEq]
    cases address : c.vccAddrForVcid ucVcid with
    | none =>
      rw [createVc_noAddress address]
      exact assigned
    | some pAddr =>
      exact assigned.creates (creates_createVc assigned.sound address)
        fun v holds => own pAddr v address holds
  | destroyVc ucVcid => exact assigned.destroyed ucVcid

end Runs

end EchoLife.SoftSar
