import EchoLife.SoftSar.Shaping
import EchoLife.Aal5.Packets

/-!
# The calls of the software SAR

`AtmSoftSar.act` says what a call is about for a channel: nothing, a packet, cells, a flush, or its
beginning or end. `ChannelStep` lists what the call then does to the channel, and `acts_sarStep`
says that nothing else happens in a SAR whose lists are in order (`Linkage`).
-/

namespace EchoLife.SoftSar

open AtmSoftSar List Function

open Aal5 (Cell Packet TxState Packets Steady CellStep BetweenPackets atmAal5TxCell atmAal5VcInit
  atmAal5VcTxFlush takeHighest maxTxPriorities)
open History

/-! ## The source -/

def AtmSoftSar.vcTxFlush (s : AtmSoftSar) (v : Nat) : AtmSoftSar :=
  s.setVc v { s.vcTable v with aal5State := atmAal5VcTxFlush (s.vcTable v).aal5State }

def txFlush (s : AtmSoftSar) : AtmSoftSar :=
  let s := { s.dlistTxVcWaiting.foldl AtmSoftSar.vcTxFlush s with dlistTxVcWaiting := [] }
  { s.dlistTxVcUbrWaiting.foldl AtmSoftSar.vcTxFlush s with dlistTxVcUbrWaiting := [] }

def setShapingValues (s : AtmSoftSar) (ucVcid : Nat) (pEntry : TrafficDescrParmEntry) :
    AtmSoftSar :=
  match s.vcStateForVcid ucVcid with
  | none => s
  | some v =>
    s.setVc v { s.vcTable v with
      txTrafficParams := atmLayerSetShapingValues (s.vcTable v).txTrafficParams pEntry }

def vcStateEntries : Nat := 32

def VcState.allocate (vc : VcState) (vpivci : UInt32) (ulTxPoolSize ulNumPriorities : Nat)
    (pEntry : TrafficDescrParmEntry) : VcState :=
  { vc with
    vcParams := ⟨vpivci, 0, 0, 0⟩
    txTrafficParams := atmLayerSetShapingValues vc.txTrafficParams pEntry
    aal5State := { vc.aal5State with
      txFrameList := ulTxPoolSize * ulNumPriorities
      txBufferList := ulTxPoolSize * ulNumPriorities * 2 }
    dlistTxWaitingMaxSize := ulTxPoolSize }

def createVc (s : AtmSoftSar) (ucVcid v : Nat) (vpivci : UInt32)
    (ulTxPoolSize ulNumPriorities : Nat) (pEntry : TrafficDescrParmEntry) : AtmSoftSar :=
  let vc := (s.vcTable v).allocate vpivci ulTxPoolSize ulNumPriorities pEntry
  { atmLayerVcActivate (s.setVc v vc) v with
    vcStateForVcid := update s.vcStateForVcid ucVcid (some v) }

def AtmSoftSar.closeVc (s : AtmSoftSar) (v : Nat) : AtmSoftSar :=
  let tx := atmAal5VcTxFlush (s.vcTable v).aal5State
  { s.setVc v { s.vcTable v with
      aal5State := { tx with txFrameList := 0, txBufferList := 0 } } with
    dlistAllVc := s.dlistAllVc.filter (· ≠ v)
    dlistTxVcWaiting := s.dlistTxVcWaiting.filter (· ≠ v)
    dlistTxVcUbrWaiting := s.dlistTxVcUbrWaiting.filter (· ≠ v) }

def AtmSoftSar.inUse (s : AtmSoftSar) (v : Nat) : Bool :=
  (List.range vcStateEntries).any fun i => s.vcStateForVcid i = some v

def destroyVc (s : AtmSoftSar) (ucVcid : Nat) : AtmSoftSar :=
  match s.vcStateForVcid ucVcid with
  | none => s
  | some v =>
    let s := { s with vcStateForVcid := update s.vcStateForVcid ucVcid none }
    -- Only clean up if no other identifier is using the channel.
    if s.inUse v then s else s.closeVc v

inductive TxCall where
  | call (c : Call)
  | txFlush
  deriving Repr, DecidableEq

def txStep (s : AtmSoftSar) : TxCall → Option Emitted × AtmSoftSar
  | .call c => call s c
  | .txFlush => (none, txFlush s)

inductive SarCall where
  | tx (c : TxCall)
  | setShapingValues (ucVcid : Nat) (pEntry : TrafficDescrParmEntry)
  | createVc (ucVcid v : Nat) (vpivci : UInt32) (ulTxPoolSize ulNumPriorities : Nat)
      (pEntry : TrafficDescrParmEntry)
  | destroyVc (ucVcid : Nat)
  deriving Repr, DecidableEq

def sarStep (s : AtmSoftSar) : SarCall → Option Emitted × AtmSoftSar
  | .tx c => txStep s c
  | .setShapingValues ucVcid pEntry => (none, setShapingValues s ucVcid pEntry)
  | .createVc ucVcid v vpivci ulTxPoolSize ulNumPriorities pEntry =>
    if v ∈ s.dlistAllVc then (none, s)
    else (none, createVc s ucVcid v vpivci ulTxPoolSize ulNumPriorities pEntry)
  | .destroyVc ucVcid => (none, destroyVc s ucVcid)

def atmLayerInit (cpuTick : Int) (connectRate cellTicks : Nat) : AtmSoftSar where
  vcTable _ := {
    vcParams := ⟨0, 0, 0, 0⟩
    txTrafficParams := ⟨.unset, 0, 0, 0, 0⟩
    aal5State := atmAal5VcInit
    dlistTxWaitingMaxSize := 0
    txPcrLCS := 0
    txScrLCS := 0 }
  vcStateForVcid _ := none
  dlistAllVc := []
  dlistTxVcWaiting := []
  dlistTxVcUbrWaiting := []
  timeCurrent := 0
  lastIdleTimerTime := cpuTick
  connectRate := connectRate
  cellTicks := cellTicks
  cellsToFill := 0
  cellHead := []

/-! ## What a call does to a channel -/

def AtmSoftSar.tx (s : AtmSoftSar) (v : Nat) : TxState := (s.vcTable v).aal5State

inductive ChannelAct where
  | kept
  | queued (ulPri : Nat) (packet : Packet)
  | served
  | flushed
  /-- The channel is created with pools for this number of packets. -/
  | created (ulSize : Nat)
  | closed
  deriving Repr, DecidableEq

def AtmSoftSar.act (s : AtmSoftSar) (c : SarCall) (v : Nat) : ChannelAct :=
  match c with
  | .tx (.call (.addPkt ucVcid ucSendPriority packet)) =>
    if s.vcStateForVcid ucVcid = some v ∧ (addPkt s ucVcid ucSendPriority packet).1 = .success then
      .queued (queueOf ucSendPriority) packet
    else .kept
  | .tx (.call .getNextTxCell) => .served
  | .tx (.call (.timer ..)) => .kept
  | .tx .txFlush => if s.entryLinked v then .flushed else .kept
  | .setShapingValues .. => .kept
  | .createVc _ w _ ulTxPoolSize ulNumPriorities _ =>
    if w = v ∧ v ∉ s.dlistAllVc then .created (ulTxPoolSize * ulNumPriorities) else .kept
  | .destroyVc ucVcid => if s.vcStateForVcid ucVcid = some v then .closed else .kept

inductive ChannelStep (s s' : AtmSoftSar) (v : Nat) : ChannelAct → Prop where
  | kept (same : s'.tx v = s.tx v) (linked : s'.entryLinked v ↔ s.entryLinked v)
      (live : v ∈ s'.dlistAllVc ↔ v ∈ s.dlistAllVc) : ChannelStep s s' v .kept
  | queued {packet : Packet} {ulPri : Nat} (inside : ulPri < maxTxPriorities)
      (frame : 0 < (s.tx v).txFrameList) (buffers : packet.length ≤ (s.tx v).txBufferList)
      (after : s'.tx v = TxState.enqueue { s.tx v with
        txFrameList := (s.tx v).txFrameList - 1
        txBufferList := (s.tx v).txBufferList - packet.length } ulPri packet)
      (links : s'.entryLinked v) : ChannelStep s s' v (.queued ulPri packet)
  | passedOver (same : s'.tx v = s.tx v) (linked : s'.entryLinked v ↔ s.entryLinked v)
      (live : v ∈ s'.dlistAllVc ↔ v ∈ s.dlistAllVc) : ChannelStep s s' v .served
  | sent {vc : Aal5.VcParams} {cell : Cell} (linked : s.entryLinked v)
      (made : atmAal5TxCell vc (s.tx v) = (some cell, s'.tx v)) (stays : s'.entryLinked v) :
      ChannelStep s s' v .served
  | unlinked {vc : Aal5.VcParams} (linked : s.entryLinked v)
      (made : atmAal5TxCell vc (s.tx v) = (none, s'.tx v)) (gone : ¬ s'.entryLinked v)
      (live : v ∈ s'.dlistAllVc ↔ v ∈ s.dlistAllVc) : ChannelStep s s' v .served
  | flushed (after : s'.tx v = atmAal5VcTxFlush (s.tx v)) (gone : ¬ s'.entryLinked v) :
      ChannelStep s s' v .flushed
  | created {ulSize : Nat} (free : v ∉ s.dlistAllVc)
      (after : s'.tx v = TxState.vcInit { s.tx v with
        txFrameList := ulSize
        txBufferList := ulSize * 2 }) (gone : ¬ s'.entryLinked v) :
      ChannelStep s s' v (.created ulSize)
  | closed (after : s'.tx v = { atmAal5VcTxFlush (s.tx v) with
      txFrameList := 0
      txBufferList := 0 }) (gone : ¬ s'.entryLinked v) : ChannelStep s s' v .closed

structure Linkage (s : AtmSoftSar) : Prop where
  nodup : (s.dlistTxVcWaiting ++ s.dlistTxVcUbrWaiting).Nodup
  live : ∀ v, s.entryLinked v → v ∈ s.dlistAllVc
  mapped : ∀ ucVcid v, s.vcStateForVcid ucVcid = some v → v ∈ s.dlistAllVc
  sole : ∀ c d v, s.vcStateForVcid c = some v → s.vcStateForVcid d = some v → c = d

section Scheduler

variable {s s' : AtmSoftSar} {v w : Nat}

theorem tx_setVc_self (s : AtmSoftSar) (v : Nat) (vc : VcState) :
    (s.setVc v vc).tx v = vc.aal5State := by
  rw [tx, setVc_self]

theorem tx_setVc_of_ne (s : AtmSoftSar) (vc : VcState) (other : v ≠ w) :
    (s.setVc w vc).tx v = s.tx v := by
  rw [tx, tx, setVc_of_ne s vc other]

theorem tx_setVc_same {vc : VcState} (same : vc.aal5State = s.tx w) (v : Nat) :
    (s.setVc w vc).tx v = s.tx v := by
  by_cases isW : v = w
  · subst isW
    rw [tx_setVc_self, same]
  · exact tx_setVc_of_ne s vc isW

structure SameBooks (s s' : AtmSoftSar) : Prop where
  all : s'.dlistAllVc = s.dlistAllVc
  vcids : s'.vcStateForVcid = s.vcStateForVcid
  time : s'.timeCurrent = s.timeCurrent

inductive Served (s s' : AtmSoftSar) (v : Nat) : Prop where
  | kept (params : (s'.vcTable v).vcParams = (s.vcTable v).vcParams) (same : s'.tx v = s.tx v)
      (linked : s'.entryLinked v ↔ s.entryLinked v)
  | sent {cell : Cell} (linked : s.entryLinked v)
      (made : s.txCell v = (some cell, s'.tx v)) (stays : s'.entryLinked v)
  | unlinked (linked : s.entryLinked v) (made : s.txCell v = (none, s'.tx v))
      (gone : ¬ s'.entryLinked v)

section Update

variable {vc : VcState} (table : s'.vcTable = (s.setVc w vc).vcTable)

include table

theorem tx_of_update : s'.tx w = vc.aal5State := by
  rw [tx, table, setVc_self]

theorem vcTable_of_update (other : v ≠ w) : s'.vcTable v = s.vcTable v := by
  rw [table, setVc_of_ne s vc other]

theorem served_of_update {cell : Cell} (waits : s.entryLinked w)
    (made : s.txCell w = (some cell, vc.aal5State))
    (linked : ∀ v, s'.entryLinked v ↔ s.entryLinked v) (v : Nat) : Served s s' v := by
  by_cases same : v = w
  · subst same
    rw [← tx_of_update table] at made
    exact .sent waits made ((linked v).mpr waits)
  · have unchanged := vcTable_of_update table same
    refine .kept (by rw [unchanged]) ?_ (linked v)
    rw [tx, tx, unchanged]

end Update

theorem perm_erase_append {vs : List Nat} (waits : w ∈ vs) : (vs.erase w ++ [w]).Perm vs :=
  (perm_append_singleton w _).trans (perm_cons_erase waits).symm

theorem served_sent {cell : Cell} (sent : round s = .sent w cell s') :
    (∀ v, Served s s' v) ∧ SameBooks s s' ∧
      (s'.dlistTxVcWaiting ++ s'.dlistTxVcUbrWaiting).Perm
        (s.dlistTxVcWaiting ++ s.dlistTxVcUbrWaiting) := by
  obtain ⟨tx, made, ⟨waits, -, rfl⟩ | ⟨waits, rfl⟩⟩ := round_sent sent
  · refine ⟨served_of_update rfl (.inl waits) made fun v => ?_, ⟨rfl, rfl, rfl⟩,
      (perm_erase_append waits).append_right _⟩
    exact or_congr_left (perm_erase_append waits).mem_iff
  · refine ⟨served_of_update rfl (.inr waits) made fun v => ?_, ⟨rfl, rfl, rfl⟩,
      (perm_erase_append waits).append_left _⟩
    exact or_congr_right (perm_erase_append waits).mem_iff

structure Dropped (s s' : AtmSoftSar) (w : Nat) : Prop where
  linked : s.entryLinked w
  made : s.txCell w = (none, s'.tx w)
  gone : ¬ s'.entryLinked w
  table : ∀ v ≠ w, s'.vcTable v = s.vcTable v
  shaped : ∀ v ≠ w, v ∈ s'.dlistTxVcWaiting ↔ v ∈ s.dlistTxVcWaiting
  ubr : ∀ v ≠ w, v ∈ s'.dlistTxVcUbrWaiting ↔ v ∈ s.dlistTxVcUbrWaiting

theorem dropped_unlinked (nodup : (s.dlistTxVcWaiting ++ s.dlistTxVcUbrWaiting).Nodup)
    (unlinked : round s = .unlinked s') :
    (∃ w, Dropped s s' w) ∧ SameBooks s s' ∧
      (s'.dlistTxVcWaiting ++ s'.dlistTxVcUbrWaiting).Nodup := by
  obtain ⟨shaped, ubr, apart⟩ := nodup_append.mp nodup
  obtain ⟨w, tx, made, ⟨waits, rfl⟩ | ⟨waits, rfl⟩⟩ := round_unlinked unlinked
  · refine ⟨⟨w, .inl waits, ?_, ?_, fun v other => setVc_of_ne s _ other,
      fun v other => mem_erase_of_ne other, fun _ _ => .rfl⟩, ⟨rfl, rfl, rfl⟩,
      nodup.sublist (erase_sublist.append_right _)⟩
    · have after : (unlinkShaped s w tx).tx w = tx := tx_setVc_self s w _
      rw [after, made]
    · rintro (stays | other)
      · exact shaped.not_mem_erase stays
      · exact apart w waits w other rfl
  · refine ⟨⟨w, .inr waits, ?_, ?_, fun v other => setVc_of_ne s _ other,
      fun _ _ => .rfl, fun v other => mem_erase_of_ne other⟩, ⟨rfl, rfl, rfl⟩,
      nodup.sublist (erase_sublist.append_left _)⟩
    · have after : (unlinkUbr s w tx).tx w = tx := tx_setVc_self s w _
      rw [after, made]
    · rintro (other | stays)
      · exact apart w other w waits rfl
      · exact ubr.not_mem_erase stays

theorem Dropped.served {t : AtmSoftSar} (dropped : Dropped s t w) (rest : Served t s' v) :
    Served s s' v := by
  by_cases same : v = w
  · subst same
    cases rest with
    | kept _ same linked =>
      exact .unlinked dropped.linked (by rw [dropped.made, same]) (mt linked.mp dropped.gone)
    | sent linked | unlinked linked => exact absurd linked dropped.gone
  · have table := dropped.table v same
    have linked : t.entryLinked v ↔ s.entryLinked v :=
      or_congr (dropped.shaped v same) (dropped.ubr v same)
    have sameCell : t.txCell v = s.txCell v := by
      rw [txCell, txCell, table]
    cases rest with
    | kept params kept linked' =>
      refine .kept (by rw [params, table]) ?_ (linked'.trans linked)
      rw [kept, tx, tx, table]
    | sent linked' made stays => exact .sent (linked.mp linked') (sameCell ▸ made) stays
    | unlinked linked' made gone => exact .unlinked (linked.mp linked') (sameCell ▸ made) gone

theorem SameBooks.trans {t : AtmSoftSar} (first : SameBooks s t) (second : SameBooks t s') :
    SameBooks s s' :=
  ⟨second.all.trans first.all, second.vcids.trans first.vcids, second.time.trans first.time⟩

theorem served_txLoop (rounds : Nat) (s : AtmSoftSar)
    (nodup : (s.dlistTxVcWaiting ++ s.dlistTxVcUbrWaiting).Nodup) :
    (∀ v, Served s (txLoop rounds s).2 v) ∧ SameBooks s (txLoop rounds s).2 ∧
      ((txLoop rounds s).2.dlistTxVcWaiting ++ (txLoop rounds s).2.dlistTxVcUbrWaiting).Nodup := by
  induction rounds generalizing s with
  | zero => exact ⟨fun v => .kept rfl rfl .rfl, ⟨rfl, rfl, rfl⟩, nodup⟩
  | succ rounds ih =>
    rw [txLoop]
    split
    next w cell s' sent =>
      obtain ⟨served, books, same⟩ := served_sent sent
      exact ⟨served, books, same.nodup_iff.mpr nodup⟩
    next t unlinked =>
      obtain ⟨⟨w, dropped⟩, books, nodup'⟩ := dropped_unlinked nodup unlinked
      obtain ⟨served, books', nodup''⟩ := ih t nodup'
      exact ⟨fun v => dropped.served (served v), books.trans books', nodup''⟩
    next => exact ⟨fun v => .kept rfl rfl .rfl, ⟨rfl, rfl, rfl⟩, nodup⟩

theorem Served.channelStep (served : Served s s' v) (all : s'.dlistAllVc = s.dlistAllVc) :
    ChannelStep s s' v .served := by
  have live : v ∈ s'.dlistAllVc ↔ v ∈ s.dlistAllVc := by rw [all]
  cases served with
  | kept _ same linked => exact .passedOver same linked live
  | sent linked made stays => exact .sent linked made stays
  | unlinked linked made gone => exact .unlinked linked made gone live

theorem Served.congr {t : AtmSoftSar} (served : Served s t v) (table : s'.vcTable = t.vcTable)
    (shaped : s'.dlistTxVcWaiting = t.dlistTxVcWaiting)
    (ubr : s'.dlistTxVcUbrWaiting = t.dlistTxVcUbrWaiting) : Served s s' v := by
  have linked : s'.entryLinked v ↔ t.entryLinked v := by
    rw [entryLinked, entryLinked, shaped, ubr]
  have tx : s'.tx v = t.tx v := by rw [tx, tx, table]
  cases served with
  | kept params same linked' =>
    exact .kept (by rw [table, params]) (tx.trans same) (linked.trans linked')
  | sent linked' made stays => exact .sent linked' (by rw [made, tx]) (linked.mpr stays)
  | unlinked linked' made gone => exact .unlinked linked' (by rw [made, tx]) (mt linked.mp gone)

theorem served_getNextTxCell (nodup : (s.dlistTxVcWaiting ++ s.dlistTxVcUbrWaiting).Nodup) :
    let s' := (atmLayerGetNextTxCell s).2
    (∀ v, Served s s' v) ∧ s'.dlistAllVc = s.dlistAllVc ∧ s'.vcStateForVcid = s.vcStateForVcid ∧
      (s'.dlistTxVcWaiting ++ s'.dlistTxVcUbrWaiting).Nodup := by
  have idle (v : Nat) : Served s s v := .kept rfl rfl .rfl
  obtain ⟨served, books, nodup'⟩ := served_txLoop (s.linked + 1) s nodup
  rw [atmLayerGetNextTxCell]
  split
  · split
    · exact ⟨fun v => (idle v).congr rfl rfl rfl, rfl, rfl, nodup⟩
    · dsimp only
      split
      all_goals
        next made =>
          rw [made] at served books nodup'
          split
          all_goals
            exact ⟨fun v => (served v).congr rfl rfl rfl, books.all, books.vcids, nodup'⟩
  · exact ⟨fun v => (idle v).congr rfl rfl rfl, rfl, rfl, nodup⟩

end Scheduler

/-! ## Packets, the timer and the flush -/

section Calls

variable {s s' : AtmSoftSar} {v w : Nat}

theorem linkVc_tx (s : AtmSoftSar) (v w : Nat) : (linkVc s w).tx v = s.tx v := by
  rw [linkVc]
  split
  · rfl
  · split
    · exact tx_setVc_same (s := s) (w := w) (by rfl) v
    · rfl

theorem linkVc_lists (s : AtmSoftSar) (w : Nat) :
    ((linkVc s w).dlistTxVcWaiting ++ (linkVc s w).dlistTxVcUbrWaiting).Perm
        (w :: (s.dlistTxVcWaiting ++ s.dlistTxVcUbrWaiting)) ∧
      (linkVc s w).dlistAllVc = s.dlistAllVc ∧ (linkVc s w).vcStateForVcid = s.vcStateForVcid := by
  rw [linkVc]
  split
  · refine ⟨?_, rfl, rfl⟩
    show (s.dlistTxVcWaiting ++ (s.dlistTxVcUbrWaiting ++ [w])).Perm _
    rw [← append_assoc]
    exact perm_append_singleton w _
  · have shaped : (s.dlistTxVcWaiting ++ [w] ++ s.dlistTxVcUbrWaiting).Perm
        (w :: (s.dlistTxVcWaiting ++ s.dlistTxVcUbrWaiting)) := by
      rw [append_assoc]
      exact perm_middle
    split
    · exact ⟨shaped, rfl, rfl⟩
    · exact ⟨shaped, rfl, rfl⟩

theorem entryLinked_iff : s.entryLinked v ↔ v ∈ s.dlistTxVcWaiting ++ s.dlistTxVcUbrWaiting :=
  mem_append.symm

theorem queueFrame_lists (nodup : (s.dlistTxVcWaiting ++ s.dlistTxVcUbrWaiting).Nodup)
    (packet : Packet) (ulPri : Nat) :
    let s' := atmLayerQueueFrame s w packet ulPri
    s'.tx w = (s.tx w).enqueue ulPri packet ∧ (∀ v ≠ w, s'.tx v = s.tx v) ∧
      (∀ v, s'.entryLinked v ↔ s.entryLinked v ∨ v = w) ∧
      (s'.dlistTxVcWaiting ++ s'.dlistTxVcUbrWaiting).Nodup ∧
      s'.dlistAllVc = s.dlistAllVc ∧ s'.vcStateForVcid = s.vcStateForVcid := by
  have linked : let t := if s.entryLinked w then s else linkVc s w
      (∀ v, t.tx v = s.tx v) ∧ (∀ v, t.entryLinked v ↔ s.entryLinked v ∨ v = w) ∧
        (t.dlistTxVcWaiting ++ t.dlistTxVcUbrWaiting).Nodup ∧
        t.dlistAllVc = s.dlistAllVc ∧ t.vcStateForVcid = s.vcStateForVcid := by
    split
    next already =>
      refine ⟨fun _ => rfl, fun v => ?_, nodup, rfl, rfl⟩
      exact (or_iff_left_of_imp fun same => same ▸ already).symm
    next unlinked =>
      obtain ⟨lists, all, vcids⟩ := linkVc_lists s w
      refine ⟨fun v => linkVc_tx s v w, fun v => ?_, ?_, all, vcids⟩
      · rw [entryLinked_iff, lists.mem_iff, mem_cons, ← entryLinked_iff, or_comm]
      · rw [lists.nodup_iff, nodup_cons, ← entryLinked_iff]
        exact ⟨unlinked, nodup⟩
  obtain ⟨same, lists, nodup', all, vcids⟩ := linked
  refine ⟨?_, fun v other => ?_, lists, nodup', all, vcids⟩
  · refine (tx_setVc_self _ w _).trans ?_
    exact congrArg (TxState.enqueue · ulPri packet) (same w)
  · exact (tx_setVc_of_ne _ _ other).trans (same v)

def Acts (s s' : AtmSoftSar) (act : Nat → ChannelAct) : Prop :=
  Linkage s' ∧ ∀ v, ChannelStep s s' v (act v)

theorem Linkage.acts (linkage : Linkage s) : Acts s s fun _ => .kept :=
  ⟨linkage, fun _ => .kept rfl .rfl .rfl⟩

theorem Linkage.relinked (linkage : Linkage s)
    (nodup : (s'.dlistTxVcWaiting ++ s'.dlistTxVcUbrWaiting).Nodup)
    (live : ∀ v, s'.entryLinked v → v ∈ s.dlistAllVc) (all : s'.dlistAllVc = s.dlistAllVc)
    (vcids : s'.vcStateForVcid = s.vcStateForVcid) : Linkage s' := by
  refine ⟨nodup, fun v links => ?_, fun c v => ?_, fun c d v => ?_⟩
  · rw [all]
    exact live v links
  · rw [all, vcids]
    exact linkage.mapped c v
  · rw [vcids]
    exact linkage.sole c d v

theorem acts_addPkt (linkage : Linkage s) (ucVcid ucSendPriority : Nat) (packet : Packet) :
    Acts s (addPkt s ucVcid ucSendPriority packet).2
      (s.act (.tx (.call (.addPkt ucVcid ucSendPriority packet)))) := by
  rcases addPkt_cases s ucVcid ucSendPriority packet with
    ⟨failed, refused⟩ | ⟨w, tx, found, frame, buffers, rfl, accepted⟩
  · have kept : s.act (.tx (.call (.addPkt ucVcid ucSendPriority packet))) = fun _ => .kept :=
      funext fun v => if_neg fun success => failed success.2
    rw [refused, kept]
    exact linkage.acts
  · obtain ⟨queued, others, linked, nodup, all, vcids⟩ :=
      queueFrame_lists (s := s.setVc w _) (w := w) linkage.nodup packet (queueOf ucSendPriority)
    rw [tx_setVc_self] at queued
    have inside : queueOf ucSendPriority < maxTxPriorities := by
      rw [queueOf, maxTxPriorities]
      split <;> omega
    have status : (addPkt s ucVcid ucSendPriority packet).1 = .success := by rw [accepted]
    rw [accepted]
    refine ⟨linkage.relinked nodup (fun v links => ?_) all vcids, fun v => ?_⟩
    · rcases (linked v).mp links with before | rfl
      · exact linkage.live v before
      · exact linkage.mapped ucVcid v found
    · by_cases same : v = w
      · subst same
        rw [act, if_pos ⟨found, status⟩]
        exact .queued inside frame buffers queued ((linked v).mpr (.inr rfl))
      · have other : ¬ s.vcStateForVcid ucVcid = some v := by
          rw [found]
          exact fun isV => same (Option.some.inj isV).symm
        rw [act, if_neg fun success => other success.1]
        refine .kept ((others v same).trans (tx_setVc_of_ne s _ same)) ?_ (by rw [all]; rfl)
        exact (linked v).trans (or_iff_left same)

theorem acts_getNextTxCell (linkage : Linkage s) :
    Acts s (atmLayerGetNextTxCell s).2 fun _ => .served := by
  obtain ⟨served, all, vcids, nodup⟩ := served_getNextTxCell linkage.nodup
  refine ⟨linkage.relinked nodup (fun v links => linkage.live v ?_) all vcids,
    fun v => (served v).channelStep all⟩
  cases served v with
  | kept _ _ linked => exact linked.mp links
  | sent linked => exact linked
  | unlinked linked => exact linked

theorem foldl_idleOut_tx (vs : List Nat) (s : AtmSoftSar) (now : Int) :
    let s' := vs.foldl (fun s w => s.setVc w ((s.vcTable w).idleOut now)) s
    (∀ v, s'.tx v = s.tx v) ∧ s'.dlistTxVcWaiting = s.dlistTxVcWaiting ∧
      s'.dlistTxVcUbrWaiting = s.dlistTxVcUbrWaiting ∧ s'.dlistAllVc = s.dlistAllVc ∧
      s'.vcStateForVcid = s.vcStateForVcid := by
  induction vs generalizing s with
  | nil => exact ⟨fun _ => rfl, rfl, rfl, rfl, rfl⟩
  | cons w vs ih =>
    obtain ⟨same, lists⟩ := ih (s.setVc w ((s.vcTable w).idleOut now))
    exact ⟨fun v => (same v).trans (tx_setVc_same (by rfl) v), lists⟩

theorem acts_of_same (linkage : Linkage s) (same : ∀ v, s'.tx v = s.tx v)
    (shaped : s'.dlistTxVcWaiting = s.dlistTxVcWaiting)
    (ubr : s'.dlistTxVcUbrWaiting = s.dlistTxVcUbrWaiting) (all : s'.dlistAllVc = s.dlistAllVc)
    (vcids : s'.vcStateForVcid = s.vcStateForVcid) : Acts s s' fun _ => .kept := by
  have linked (v : Nat) : s'.entryLinked v ↔ s.entryLinked v := by
    rw [entryLinked, entryLinked, shaped, ubr]
  refine ⟨linkage.relinked ?_ (fun v links => linkage.live v ((linked v).mp links)) all vcids,
    fun v => .kept (same v) (linked v) (by rw [all])⟩
  rw [shaped, ubr]
  exact linkage.nodup

theorem acts_timer (linkage : Linkage s) (cpuTick : Int) (ulIntervalMs : Nat) :
    Acts s (atmLayerTimer s cpuTick ulIntervalMs) fun _ => .kept := by
  simp only [atmLayerTimer]
  split
  · obtain ⟨same, shaped, ubr, all, vcids⟩ := foldl_idleOut_tx s.dlistAllVc { s with
      timeCurrent := cpuTick
      cellsToFill := if s.cellsToFill + ((ulIntervalMs + 2) * s.connectRate / 424000 + 1) >
          atmAdslTxDescrTblSize then atmAdslTxDescrTblSize
        else s.cellsToFill + ((ulIntervalMs + 2) * s.connectRate / 424000 + 1) } cpuTick
    exact acts_of_same linkage same shaped ubr all vcids
  · exact acts_of_same linkage (fun _ => rfl) rfl rfl rfl rfl

theorem foldl_vcTxFlush (vs : List Nat) (s : AtmSoftSar) (nodup : vs.Nodup) :
    let s' := vs.foldl vcTxFlush s
    (∀ v ∈ vs, s'.tx v = atmAal5VcTxFlush (s.tx v)) ∧ (∀ v ∉ vs, s'.tx v = s.tx v) ∧
      s'.dlistTxVcWaiting = s.dlistTxVcWaiting ∧
      s'.dlistTxVcUbrWaiting = s.dlistTxVcUbrWaiting ∧ s'.dlistAllVc = s.dlistAllVc ∧
      s'.vcStateForVcid = s.vcStateForVcid := by
  induction vs generalizing s with
  | nil => exact ⟨nofun, fun _ _ => rfl, rfl, rfl, rfl, rfl⟩
  | cons w vs ih =>
    obtain ⟨first, nodup⟩ := nodup_cons.mp nodup
    obtain ⟨flushed, others, lists⟩ := ih (s.vcTxFlush w) nodup
    refine ⟨fun v listed => ?_, fun v other => ?_, lists⟩
    · by_cases isW : v = w
      · subst isW
        exact (others v first).trans (tx_setVc_self s v _)
      · have later := (mem_cons.mp listed).resolve_left isW
        refine (flushed v later).trans (congrArg _ ?_)
        exact tx_setVc_of_ne s _ isW
    · obtain ⟨notW, later⟩ := not_or.mp (mt mem_cons.mpr other)
      exact (others v later).trans (tx_setVc_of_ne s _ notW)

theorem acts_txFlush (linkage : Linkage s) : Acts s (txFlush s) (s.act (.tx .txFlush)) := by
  obtain ⟨nodupShaped, nodupUbr, apart⟩ := nodup_append.mp linkage.nodup
  obtain ⟨flushed, others, -, ubr, all, vcids⟩ :=
    foldl_vcTxFlush s.dlistTxVcWaiting s nodupShaped
  obtain ⟨flushed', others', shaped', -, all', vcids'⟩ := foldl_vcTxFlush
    (s.dlistTxVcWaiting.foldl vcTxFlush s).dlistTxVcUbrWaiting
    { s.dlistTxVcWaiting.foldl vcTxFlush s with dlistTxVcWaiting := [] }
    (by rw [ubr]; exact nodupUbr)
  have waits (v : Nat) : v ∈ (s.dlistTxVcWaiting.foldl vcTxFlush
      s).dlistTxVcUbrWaiting ↔ v ∈ s.dlistTxVcUbrWaiting := by rw [ubr]
  have empty : (txFlush s).dlistTxVcWaiting = [] := shaped'
  have gone (v : Nat) : ¬ (txFlush s).entryLinked v := by
    rw [entryLinked, empty]
    exact not_or.mpr ⟨not_mem_nil, not_mem_nil⟩
  have kept : (txFlush s).dlistAllVc = s.dlistAllVc := all'.trans all
  refine ⟨linkage.relinked ?_ (fun v links => absurd links (gone v)) kept (vcids'.trans vcids),
    fun v => ?_⟩
  · rw [empty]
    exact nodup_nil
  · rw [act]
    by_cases shaped : v ∈ s.dlistTxVcWaiting
    · rw [if_pos (.inl shaped)]
      refine .flushed ?_ (gone v)
      exact (others' v fun listed => apart v shaped v ((waits v).mp listed) rfl).trans
        (flushed v shaped)
    · by_cases listed : v ∈ s.dlistTxVcUbrWaiting
      · rw [if_pos (.inr listed)]
        refine .flushed ((flushed' v ((waits v).mpr listed)).trans ?_) (gone v)
        exact congrArg _ (others v shaped)
      · have unlinked : ¬ s.entryLinked v := not_or.mpr ⟨shaped, listed⟩
        rw [if_neg unlinked]
        exact .kept ((others' v (mt (waits v).mp listed)).trans (others v shaped))
          (iff_of_false (gone v) unlinked) (by rw [kept])

theorem acts_setShapingValues (linkage : Linkage s) (ucVcid : Nat)
    (pEntry : TrafficDescrParmEntry) :
    Acts s (setShapingValues s ucVcid pEntry) fun _ => .kept := by
  rw [setShapingValues]
  split
  · exact linkage.acts
  next w found =>
    exact acts_of_same linkage (tx_setVc_same (by rfl)) rfl rfl rfl rfl

/-! ## Channels are created and destroyed -/

theorem mem_filter_ne {vs : List Nat} : v ∈ vs.filter (· ≠ w) ↔ v ∈ vs ∧ v ≠ w := by
  rw [mem_filter, decide_eq_true_iff]

theorem filtered_lists (linkage : Linkage s)
    (shaped : s'.dlistTxVcWaiting = s.dlistTxVcWaiting.filter (· ≠ w))
    (ubr : s'.dlistTxVcUbrWaiting = s.dlistTxVcUbrWaiting.filter (· ≠ w)) :
    (s'.dlistTxVcWaiting ++ s'.dlistTxVcUbrWaiting).Nodup ∧
      ∀ v, s'.entryLinked v ↔ s.entryLinked v ∧ v ≠ w := by
  constructor
  · rw [shaped, ubr, ← filter_append]
    exact linkage.nodup.filter _
  · intro v
    rw [entryLinked, entryLinked, or_and_right, shaped, ubr, mem_filter_ne,
      mem_filter_ne]

theorem update_some {vcids : Nat → Option Nat} {ucVcid c : Nat}
    (maps : update vcids ucVcid (some w) c = some v) :
    c = ucVcid ∧ v = w ∨ vcids c = some v := by
  by_cases same : c = ucVcid
  · subst same
    rw [update_self] at maps
    exact .inl ⟨rfl, (Option.some.inj maps).symm⟩
  · rw [update_of_ne same] at maps
    exact .inr maps

theorem update_none {vcids : Nat → Option Nat} {ucVcid c : Nat}
    (maps : update vcids ucVcid none c = some v) : vcids c = some v := by
  by_cases same : c = ucVcid
  · subst same
    rw [update_self] at maps
    cases maps
  · rwa [update_of_ne same] at maps

section

variable (linkage : Linkage s)
include linkage

theorem acts_createVc (free : w ∉ s.dlistAllVc) (ucVcid : Nat) (vpivci : UInt32)
    (ulTxPoolSize ulNumPriorities : Nat) (pEntry : TrafficDescrParmEntry) :
    Acts s (createVc s ucVcid w vpivci ulTxPoolSize ulNumPriorities pEntry)
      (s.act (.createVc ucVcid w vpivci ulTxPoolSize ulNumPriorities pEntry)) := by
  obtain ⟨nodup, lists⟩ := @filtered_lists s
    (createVc s ucVcid w vpivci ulTxPoolSize ulNumPriorities pEntry) w linkage rfl rfl
  have unmapped {c : Nat} (maps : s.vcStateForVcid c = some w) : False :=
    free (linkage.mapped c w maps)
  refine ⟨⟨nodup, fun v links => ?_, fun c v maps => ?_, fun c d v first second => ?_⟩, fun v => ?_⟩
  · obtain ⟨before, other⟩ := (lists v).mp links
    exact mem_append_left _ (mem_filter_ne.mpr ⟨linkage.live v before, other⟩)
  · by_cases same : v = w
    · exact mem_append_right _ (mem_singleton.mpr same)
    · have before := (update_some maps).resolve_left fun new => same new.2
      exact mem_append_left _ (mem_filter_ne.mpr ⟨linkage.mapped c v before, same⟩)
  · rcases update_some first with ⟨rfl, rfl⟩ | before
    · rcases update_some second with ⟨rfl, -⟩ | earlier
      · rfl
      · exact (unmapped earlier).elim
    · rcases update_some second with ⟨rfl, rfl⟩ | earlier
      · exact (unmapped before).elim
      · exact linkage.sole c d v before earlier
  · by_cases same : v = w
    · subst same
      have after : (createVc s ucVcid v vpivci ulTxPoolSize ulNumPriorities pEntry).tx v =
          TxState.vcInit { s.tx v with
            txFrameList := ulTxPoolSize * ulNumPriorities
            txBufferList := ulTxPoolSize * ulNumPriorities * 2 } := by
        refine (tx_setVc_self _ v _).trans ?_
        rw [setVc_self]
        rfl
      rw [act, if_pos ⟨rfl, free⟩]
      exact .created free after fun links => ((lists v).mp links).2 rfl
    · have listed : v ∈ s.dlistAllVc.filter (· ≠ w) ++ [w] ↔ v ∈ s.dlistAllVc := by
        rw [mem_append, mem_filter_ne, mem_singleton, or_iff_left same,
          and_iff_left same]
      rw [act, if_neg fun isV => same isV.1.symm]
      refine .kept ?_ ((lists v).trans (and_iff_left same)) listed
      exact (tx_setVc_of_ne _ _ same).trans (tx_setVc_of_ne s _ same)

theorem Linkage.not_inUse {ucVcid : Nat} (found : s.vcStateForVcid ucVcid = some w) :
    ¬ inUse
      { s with vcStateForVcid := update s.vcStateForVcid ucVcid none } w := by
  intro used
  obtain ⟨c, -, maps⟩ := any_eq_true.mp used
  have maps : update s.vcStateForVcid ucVcid none c = some w := of_decide_eq_true maps
  obtain rfl := linkage.sole c ucVcid w (update_none maps) found
  rw [update_self] at maps
  cases maps

theorem Linkage.destroyVc_eq {ucVcid : Nat} (found : s.vcStateForVcid ucVcid = some w) :
    destroyVc s ucVcid = closeVc
      { s with vcStateForVcid := update s.vcStateForVcid ucVcid none } w := by
  simp only [destroyVc, found]
  exact if_neg (linkage.not_inUse found)

theorem acts_destroyVc (ucVcid : Nat) :
    Acts s (destroyVc s ucVcid) (s.act (.destroyVc ucVcid)) := by
  cases found : s.vcStateForVcid ucVcid with
  | none =>
    have kept : s.act (.destroyVc ucVcid) = fun _ => .kept :=
      funext fun v => if_neg (by rw [found]; exact nofun)
    rw [kept, destroyVc, found]
    exact linkage.acts
  | some w =>
    rw [linkage.destroyVc_eq found]
    let t : AtmSoftSar :=
      { s with vcStateForVcid := update s.vcStateForVcid ucVcid none }
    obtain ⟨nodup, lists⟩ := @filtered_lists s (t.closeVc w) w linkage rfl rfl
    refine ⟨⟨nodup, fun v links => ?_, fun c v maps => ?_, fun c d v first second => ?_⟩,
      fun v => ?_⟩
    · obtain ⟨before, other⟩ := (lists v).mp links
      exact mem_filter_ne.mpr ⟨linkage.live v before, other⟩
    · refine mem_filter_ne.mpr ⟨linkage.mapped c v (update_none maps), ?_⟩
      rintro rfl
      obtain rfl := linkage.sole c ucVcid v (update_none maps) found
      exact absurd (maps.symm.trans (update_self ..)) nofun
    · exact linkage.sole c d v (update_none first) (update_none second)
    · by_cases same : v = w
      · subst same
        rw [act, if_pos found]
        exact .closed (tx_setVc_self t v _) fun links => ((lists v).mp links).2 rfl
      · have other : ¬ s.vcStateForVcid ucVcid = some v := by
          rw [found]
          exact fun isV => same (Option.some.inj isV).symm
        rw [act, if_neg other]
        exact .kept (tx_setVc_of_ne t _ same) ((lists v).trans (and_iff_left same))
          (mem_filter_ne.trans (and_iff_left same))

theorem acts_sarStep (c : SarCall) : Acts s (sarStep s c).2 (s.act c) := by
  cases c with
  | tx c =>
    cases c with
    | call c =>
      cases c with
      | addPkt ucVcid ucSendPriority packet =>
        exact acts_addPkt linkage ucVcid ucSendPriority packet
      | getNextTxCell => exact acts_getNextTxCell linkage
      | timer cpuTick ulIntervalMs => exact acts_timer linkage cpuTick ulIntervalMs
    | txFlush => exact acts_txFlush linkage
  | setShapingValues ucVcid pEntry => exact acts_setShapingValues linkage ucVcid pEntry
  | createVc ucVcid w vpivci ulTxPoolSize ulNumPriorities pEntry =>
    rw [sarStep]
    split
    next used =>
      have kept : s.act (.createVc ucVcid w vpivci ulTxPoolSize ulNumPriorities pEntry) =
          fun _ => .kept :=
        funext fun v => if_neg fun isV => isV.2 (isV.1 ▸ used)
      rw [kept]
      exact linkage.acts
    next free => exact acts_createVc linkage free ucVcid vpivci _ _ pEntry
  | destroyVc ucVcid => exact acts_destroyVc linkage ucVcid

end

theorem linkage_atmLayerInit (cpuTick : Int) (connectRate cellTicks : Nat) :
    Linkage (atmLayerInit cpuTick connectRate cellTicks) :=
  ⟨nodup_nil, fun _ links => absurd links (not_or.mpr ⟨not_mem_nil, not_mem_nil⟩),
    nofun, nofun⟩

end Calls

end EchoLife.SoftSar
