import EchoLife.SoftSar.Scheduler
import EchoLife.Lib.VirtualSchedule

/-!
# The sustained rate

`txScrLCS` is the virtual time of the sustained rate. Every call keeps the invariant `ScrShaped`
(`ScrShaped.step`), except that a packet for a channel that has gone idle sets `txScrLCS` to the
clock, whatever it was. `scr_bound_run` bounds the cells of every run in which this never takes the
time back (`RequeueKeepsCredit`), and `scr_bound_requeued` is a run in which it does.
-/

namespace EchoLife.SoftSar

open List Function VcState

open Aal5 (Cell Packet TxState BetweenPackets atmAal5TxCell atmAal5VcInit takeHighest)
open VirtualSchedule (Paced)
open History

/-! ## What shaping knows of a channel -/

def VcState.shaping (vc : VcState) : TrafficParams × Int × Int :=
  (vc.txTrafficParams, vc.txPcrLCS, vc.txScrLCS)

theorem setVc_self (s : AtmSoftSar) (v : Nat) (vc : VcState) : (s.setVc v vc).vcTable v = vc := by
  show update s.vcTable v vc v = vc
  exact update_self ..

theorem setVc_of_ne (s : AtmSoftSar) {v w : Nat} (vc : VcState) (other : v ≠ w) :
    (s.setVc w vc).vcTable v = s.vcTable v := by
  show update s.vcTable w vc v = s.vcTable v
  exact update_of_ne other ..

theorem shaping_setVc (s : AtmSoftSar) (v w : Nat) (tx : TxState) :
    ((s.setVc w { s.vcTable w with aal5State := tx }).vcTable v).shaping =
      (s.vcTable v).shaping := by
  by_cases same : v = w
  · subst same
    rw [setVc_self]
    rfl
  · rw [setVc_of_ne s _ same]

structure KeepsShaping (v : Nat) (s s' : AtmSoftSar) : Prop where
  shaping : (s'.vcTable v).shaping = (s.vcTable v).shaping
  time : s'.timeCurrent = s.timeCurrent
  unlinked : v ∉ s.dlistTxVcUbrWaiting → v ∉ s'.dlistTxVcUbrWaiting

def VcState.advanced (vc : VcState) : TrafficParams × Int × Int :=
  (vc.txTrafficParams, vc.txPcrLCS + vc.txTrafficParams.tPCR,
    vc.txScrLCS + vc.txTrafficParams.tSCR)

def cellsOf (v : Nat) : Option Emitted → Nat
  | some (.data w _) => if w = v then 1 else 0
  | _ => 0

structure Serves (v : Nat) (s : AtmSoftSar) (out : Option Emitted) (s' : AtmSoftSar) : Prop where
  unlinked : v ∉ s'.dlistTxVcUbrWaiting
  cell : cellsOf v out = 1 ∧ (s.vcTable v).Conforms s.timeCurrent ∧
      (s'.vcTable v).shaping = (s.vcTable v).advanced ∨
    cellsOf v out = 0 ∧ (s'.vcTable v).shaping = (s.vcTable v).shaping

section Scheduler

variable {v : Nat} {s s' : AtmSoftSar}

theorem keepsShaping_unlinked (unlinked : round s = .unlinked s') : KeepsShaping v s s' := by
  obtain ⟨w, tx, -, ⟨-, rfl⟩ | ⟨-, rfl⟩⟩ := round_unlinked unlinked
  · exact ⟨shaping_setVc s v w tx, rfl, id⟩
  · exact ⟨shaping_setVc s v w tx, rfl, fun absent => absent ∘ mem_of_mem_erase⟩

theorem conforms_congr {vc vc' : VcState} {now : Int} (same : vc'.shaping = vc.shaping) :
    vc'.Conforms now ↔ vc.Conforms now := by
  simp only [shaping, Prod.mk.injEq] at same
  obtain ⟨params, pcr, scr⟩ := same
  rw [VcState.Conforms, VcState.Conforms, tmPcr, tmPcr, tmScr,
    tmScr, params, pcr, scr]

theorem serves_sent {w : Nat} {cell : Cell} (absent : v ∉ s.dlistTxVcUbrWaiting)
    (sent : round s = .sent w cell s') :
    s'.timeCurrent = s.timeCurrent ∧ Serves v s (some (.data w cell)) s' := by
  obtain ⟨tx, -, ⟨waits, conforms, rfl⟩ | ⟨waits, rfl⟩⟩ := round_sent sent
  · refine ⟨rfl, absent, ?_⟩
    by_cases same : v = w
    · subst same
      refine .inl ⟨if_pos rfl, conforms, ?_⟩
      show ((s.setVc v _).vcTable v).shaping = _
      rw [setVc_self]
      rfl
    · refine .inr ⟨if_neg (Ne.symm same), ?_⟩
      show ((s.setVc w _).vcTable v).shaping = _
      rw [setVc_of_ne s _ same]
  · have other : w ≠ v := by
      rintro rfl
      exact absent waits
    refine ⟨rfl, ?_, .inr ⟨if_neg other, shaping_setVc s v w tx⟩⟩
    intro listed
    rcases mem_append.mp listed with earlier | last
    · exact absent (mem_of_mem_erase earlier)
    · exact other (mem_singleton.mp last).symm

theorem serves_txLoop (rounds : Nat) (absent : v ∉ s.dlistTxVcUbrWaiting) :
    (txLoop rounds s).2.timeCurrent = s.timeCurrent ∧
      Serves v s (txLoop rounds s).1 (txLoop rounds s).2 := by
  induction rounds generalizing s with
  | zero => exact ⟨rfl, absent, .inr ⟨rfl, rfl⟩⟩
  | succ rounds ih =>
    rw [txLoop]
    split
    · rename_i w cell s' sent
      exact serves_sent absent sent
    · rename_i s' unlinked
      have keeps : KeepsShaping v s s' := keepsShaping_unlinked unlinked
      obtain ⟨time, absent', cell⟩ := ih (keeps.unlinked absent)
      refine ⟨time.trans keeps.time, absent', ?_⟩
      rcases cell with ⟨one, conforms, moved⟩ | ⟨none_sent, kept⟩
      · refine .inl ⟨one, ?_, ?_⟩
        · rw [← keeps.time]
          exact (conforms_congr keeps.shaping).mp conforms
        · have same := keeps.shaping
          simp only [shaping, Prod.mk.injEq] at same
          obtain ⟨params, pcr, scr⟩ := same
          rw [moved, advanced, advanced, params, pcr, scr]
      · exact .inr ⟨none_sent, kept.trans keeps.shaping⟩
    · exact ⟨rfl, absent, .inr ⟨rfl, rfl⟩⟩

theorem serves_getNextTxCell (absent : v ∉ s.dlistTxVcUbrWaiting) :
    Serves v s (atmLayerGetNextTxCell s).1 (atmLayerGetNextTxCell s).2 := by
  have nothing : Serves v s none s := ⟨absent, .inr ⟨rfl, rfl⟩⟩
  rw [atmLayerGetNextTxCell]
  split
  · split
    · exact ⟨absent, .inr ⟨rfl, rfl⟩⟩
    · have loop := (serves_txLoop (s.linked + 1) absent).2
      dsimp only
      split
      · rename_i emitted s' made
        rw [made] at loop
        split
        · exact ⟨loop.unlinked, loop.cell⟩
        · exact loop
      · rename_i s' made
        rw [made] at loop
        split
        · exact ⟨loop.unlinked, loop.cell⟩
        · exact ⟨loop.unlinked, loop.cell⟩
  · exact nothing

end Scheduler

/-! ## Packets and the timer -/

theorem linkVc_shaping (s : AtmSoftSar) (v w : Nat) :
    ((linkVc s w).vcTable v).shaping = (s.vcTable v).shaping ∨
      w = v ∧ s.timeCurrent - (s.vcTable v).txPcrLCS > (s.vcTable v).txTrafficParams.tPCR ∧
      ((linkVc s w).vcTable v).shaping =
        ((s.vcTable v).txTrafficParams, s.timeCurrent, s.timeCurrent) := by
  rw [linkVc]
  split
  · exact .inl rfl
  · split
    · rename_i passed
      by_cases same : v = w
      · subst same
        refine .inr ⟨rfl, passed, ?_⟩
        show ((s.setVc v _).vcTable v).shaping = _
        rw [setVc_self]
        rfl
      · refine .inl ?_
        show ((s.setVc w _).vcTable v).shaping = _
        rw [setVc_of_ne s _ same]
    · exact .inl rfl

theorem linkVc_absent {s : AtmSoftSar} {v w : Nat} (absent : v ∉ s.dlistTxVcUbrWaiting)
    (contract : (s.vcTable v).txTrafficParams.serviceType ≠ .ubrNoPcr) :
    v ∉ (linkVc s w).dlistTxVcUbrWaiting := by
  rw [linkVc]
  split
  · grind
  · split
    · exact absent
    · exact absent

theorem addPkt_cases (s : AtmSoftSar) (ucVcid ucSendPriority : Nat) (packet : Packet) :
    (addPkt s ucVcid ucSendPriority packet).1 ≠ .success ∧
        (addPkt s ucVcid ucSendPriority packet).2 = s ∨
      ∃ w tx, s.vcStateForVcid ucVcid = some w ∧
        0 < (s.vcTable w).aal5State.txFrameList ∧
        packet.length ≤ (s.vcTable w).aal5State.txBufferList ∧
        tx = { (s.vcTable w).aal5State with
          txFrameList := (s.vcTable w).aal5State.txFrameList - 1
          txBufferList := (s.vcTable w).aal5State.txBufferList - packet.length } ∧
        addPkt s ucVcid ucSendPriority packet = (.success,
          atmLayerQueueFrame (s.setVc w { s.vcTable w with aal5State := tx }) w packet
            (queueOf ucSendPriority)) := by
  rw [addPkt]
  dsimp only
  split
  · exact .inl ⟨nofun, rfl⟩
  next w found =>
    split
    · grind
    · exact .inl ⟨nofun, rfl⟩

theorem VcState.idleOut_later (vc : VcState) (now : Int) :
    vc.txPcrLCS ≤ (vc.idleOut now).txPcrLCS ∧ vc.txScrLCS ≤ (vc.idleOut now).txScrLCS := by
  have timeout : 0 ≤ txIdleTimeOut := by decide
  constructor
  all_goals
    simp only [idleOut]
    split
    · omega
    · exact le_refl _

theorem foldl_idleOut (vs : List Nat) (s : AtmSoftSar) (v : Nat) (now : Int) :
    let s' := vs.foldl (fun s w => s.setVc w ((s.vcTable w).idleOut now)) s
    (s'.vcTable v).txTrafficParams = (s.vcTable v).txTrafficParams ∧
      (s.vcTable v).txPcrLCS ≤ (s'.vcTable v).txPcrLCS ∧
      (s.vcTable v).txScrLCS ≤ (s'.vcTable v).txScrLCS ∧
      s'.timeCurrent = s.timeCurrent ∧ s'.dlistTxVcUbrWaiting = s.dlistTxVcUbrWaiting := by
  induction vs generalizing s with
  | nil => exact ⟨rfl, le_refl _, le_refl _, rfl, rfl⟩
  | cons w vs ih =>
    obtain ⟨params, pcr, scr, time, lists⟩ := ih (s.setVc w ((s.vcTable w).idleOut now))
    by_cases same : v = w
    · subst same
      rw [setVc_self] at params pcr scr
      obtain ⟨pcrLater, scrLater⟩ := (s.vcTable v).idleOut_later now
      exact ⟨params, pcrLater.trans pcr, scrLater.trans scr, time, lists⟩
    · rw [setVc_of_ne s _ same] at params pcr scr
      exact ⟨params, pcr, scr, time, lists⟩

theorem atmLayerTimer_shaping (s : AtmSoftSar) (v : Nat) (cpuTick : Int) (ulIntervalMs : Nat) :
    let s' := atmLayerTimer s cpuTick ulIntervalMs
    (s'.vcTable v).txTrafficParams = (s.vcTable v).txTrafficParams ∧
      (s.vcTable v).txPcrLCS ≤ (s'.vcTable v).txPcrLCS ∧
      (s.vcTable v).txScrLCS ≤ (s'.vcTable v).txScrLCS ∧
      s'.timeCurrent = cpuTick ∧ s'.dlistTxVcUbrWaiting = s.dlistTxVcUbrWaiting := by
  simp only [atmLayerTimer]
  split
  · exact foldl_idleOut _ _ v cpuTick
  · exact ⟨rfl, le_refl _, le_refl _, rfl, rfl⟩

/-! ## What a call does to the times of a channel -/

inductive ShapingStep (v : Nat) (s : AtmSoftSar) (c : Call) (out : Option Emitted)
    (s' : AtmSoftSar) : Prop where
  | kept (noCell : cellsOf v out = 0) (same : (s'.vcTable v).shaping = (s.vcTable v).shaping)
  | sent (oneCell : cellsOf v out = 1) (conforms : (s.vcTable v).Conforms s.timeCurrent)
      (moved : (s'.vcTable v).shaping = (s.vcTable v).advanced)
  /-- A packet comes when the channel is on no list and a peak cell time has passed. -/
  | requeued {ucVcid ucSendPriority : Nat} {packet : Packet} (noCell : cellsOf v out = 0)
      (queues : c = .addPkt ucVcid ucSendPriority packet)
      (found : s.vcStateForVcid ucVcid = some v) (unlinked : ¬ s.entryLinked v)
      (passed : s.timeCurrent - (s.vcTable v).txPcrLCS > (s.vcTable v).txTrafficParams.tPCR)
      (reset : (s'.vcTable v).shaping =
        ((s.vcTable v).txTrafficParams, s.timeCurrent, s.timeCurrent))
  | idledOut (noCell : cellsOf v out = 0)
      (params : (s'.vcTable v).txTrafficParams = (s.vcTable v).txTrafficParams)
      (pcr : (s.vcTable v).txPcrLCS ≤ (s'.vcTable v).txPcrLCS)
      (scr : (s.vcTable v).txScrLCS ≤ (s'.vcTable v).txScrLCS)

theorem shapingStep_call {v : Nat} {s : AtmSoftSar} (absent : v ∉ s.dlistTxVcUbrWaiting)
    (contract : (s.vcTable v).txTrafficParams.serviceType ≠ .ubrNoPcr) (c : Call) :
    v ∉ (call s c).2.dlistTxVcUbrWaiting ∧ ShapingStep v s c (call s c).1 (call s c).2 := by
  cases c with
  | addPkt ucVcid ucSendPriority packet =>
    rcases addPkt_cases s ucVcid ucSendPriority packet with
      ⟨-, refused⟩ | ⟨w, tx, found, -, -, -, accepted⟩
    · rw [call, refused]
      exact ⟨absent, .kept rfl rfl⟩
    · rw [call, accepted]
      have same := shaping_setVc s v w tx
      have framed := same
      simp only [shaping, Prod.mk.injEq] at framed
      obtain ⟨params, pcr, -⟩ := framed
      -- the frame is taken before the channel is linked
      generalize framed : s.setVc w { s.vcTable w with aal5State := tx } = t at same params pcr ⊢
      have lists : t.dlistTxVcUbrWaiting = s.dlistTxVcUbrWaiting := by rw [← framed]; rfl
      have linked : t.entryLinked w ↔ s.entryLinked w := by rw [← framed]; exact .rfl
      have time : t.timeCurrent = s.timeCurrent := by rw [← framed]; rfl
      have queued := shaping_setVc (if t.entryLinked w then t else linkVc t w) v w
        (TxState.enqueue ((if t.entryLinked w then t else linkVc t w).vcTable w).aal5State
          (queueOf ucSendPriority) packet)
      by_cases already : t.entryLinked w
      · rw [if_pos already] at queued
        rw [atmLayerQueueFrame, if_pos already]
        exact ⟨lists ▸ absent, .kept rfl (queued.trans same)⟩
      · rw [if_neg already] at queued
        rw [atmLayerQueueFrame, if_neg already]
        refine ⟨linkVc_absent (lists ▸ absent) (params ▸ contract), ?_⟩
        rcases linkVc_shaping t v w with kept | ⟨rfl, passed, reset⟩
        · exact .kept rfl (queued.trans (kept.trans same))
        · rw [time, pcr, params] at passed
          rw [time, params] at reset
          exact .requeued rfl rfl found (mt linked.mpr already) passed (queued.trans reset)
  | getNextTxCell =>
    obtain ⟨absent', cell⟩ := serves_getNextTxCell absent
    refine ⟨absent', ?_⟩
    rcases cell with ⟨oneCell, conforms, moved⟩ | ⟨noCell, kept⟩
    · exact .sent oneCell conforms moved
    · exact .kept noCell kept
  | timer cpuTick ulIntervalMs =>
    obtain ⟨params, pcr, scr, -, lists⟩ := atmLayerTimer_shaping s v cpuTick ulIntervalMs
    refine ⟨?_, .idledOut rfl params pcr scr⟩
    show v ∉ (atmLayerTimer s cpuTick ulIntervalMs).dlistTxVcUbrWaiting
    rw [lists]
    exact absent

/-! ## The invariant -/

structure ScrShaped (v : Nat) (params : TrafficParams) (start : Int) (s : AtmSoftSar)
    (count : Nat) : Prop where
  params_eq : (s.vcTable v).txTrafficParams = params
  absent : v ∉ s.dlistTxVcUbrWaiting
  paced : Paced params.tSCR params.bt start (s.vcTable v).txScrLCS count s.timeCurrent

def RequeueKeepsCredit (v : Nat) (s : AtmSoftSar) : Call → Prop
  | .addPkt ucVcid _ _ =>
    s.vcStateForVcid ucVcid = some v → ¬ s.entryLinked v →
      s.timeCurrent - (s.vcTable v).txPcrLCS > (s.vcTable v).txTrafficParams.tPCR →
      (s.vcTable v).txScrLCS ≤ s.timeCurrent
  | _ => True

section Invariant

variable {v : Nat} {params : TrafficParams} {start : Int} {s s' : AtmSoftSar} {count : Nat}

theorem vcTable_activate (s : AtmSoftSar) (v : Nat) :
    (atmLayerVcActivate s v).vcTable v = { s.vcTable v with
      aal5State := (s.vcTable v).aal5State.vcInit
      txPcrLCS := s.timeCurrent
      txScrLCS := s.timeCurrent } :=
  setVc_self s v _

theorem scrShaped_activate (s : AtmSoftSar) (v : Nat)
    (tolerable : (s.vcTable v).txTrafficParams.bt ≤ (s.vcTable v).txTrafficParams.tSCR) :
    ScrShaped v (s.vcTable v).txTrafficParams s.timeCurrent (atmLayerVcActivate s v) 0 := by
  refine ⟨by rw [vcTable_activate], by simp [atmLayerVcActivate], ?_⟩
  rw [vcTable_activate]
  exact Paced.initial tolerable

theorem ScrShaped.step (shaped : ScrShaped v params start s count)
    (contract : params.serviceType ≠ .ubrNoPcr) (burst : params.bt ≠ 0) (c : Call)
    (clock : s.timeCurrent ≤ (call s c).2.timeCurrent) (credit : RequeueKeepsCredit v s c) :
    ScrShaped v params start (call s c).2 (count + cellsOf v (call s c).1) := by
  obtain ⟨absent, step⟩ := shapingStep_call shaped.absent (shaped.params_eq ▸ contract) c
  cases step with
  | kept noCell same =>
    simp only [shaping, Prod.mk.injEq] at same
    refine ⟨same.1.trans shaped.params_eq, absent, ?_⟩
    rw [noCell, same.2.2]
    exact shaped.paced.wait clock
  | sent oneCell conforms moved =>
    simp only [shaping, advanced, Prod.mk.injEq] at moved
    have tolerated := conforms.2
    rw [tmScr, shaped.params_eq, if_pos burst] at tolerated
    refine ⟨moved.1.trans shaped.params_eq, absent, ?_⟩
    rw [oneCell, moved.2.2, shaped.params_eq]
    exact (shaped.paced.send tolerated).wait clock
  | requeued noCell queues found unlinked passed reset =>
    subst queues
    simp only [shaping, Prod.mk.injEq] at reset
    refine ⟨reset.1.trans shaped.params_eq, absent, ?_⟩
    rw [noCell, reset.2.2]
    exact (shaped.paced.skip (credit found unlinked passed)).wait clock
  | idledOut noCell params_eq _ scr =>
    rw [noCell]
    exact ⟨params_eq.trans shaped.params_eq, absent, (shaped.paced.wait clock).skip scr⟩

end Invariant

/-! ## Runs -/

def sinceActivation (s : AtmSoftSar) (v : Nat) (calls : List Call) :
    List (Transition AtmSoftSar Call (Option Emitted)) :=
  history call (atmLayerVcActivate s v) calls

def cellsSent (v : Nat) (run : List (Transition AtmSoftSar Call (Option Emitted))) : Nat :=
  (run.map fun t => cellsOf v t.out).sum

/-- **The sustained rate.** Since the activation of a channel, in every run whose clock does not go
back and in which no packet takes the sustained-rate time back, the cells but one need `tSCR` ticks
each, up to the burst tolerance. -/
theorem scr_bound_run (s : AtmSoftSar) (v : Nat) (calls : List Call)
    (vbr : (s.vcTable v).txTrafficParams.serviceType = .vbr)
    (peak : 0 < (s.vcTable v).txTrafficParams.tPCR)
    (sustained : (s.vcTable v).txTrafficParams.tPCR < (s.vcTable v).txTrafficParams.tSCR)
    (burst : (s.vcTable v).txTrafficParams.bt < 0)
    (clock : ∀ t ∈ sinceActivation s v calls, t.before.timeCurrent ≤ t.after.timeCurrent)
    (credit : ∀ t ∈ sinceActivation s v calls, RequeueKeepsCredit v t.before t.call) :
    ((cellsSent v (sinceActivation s v calls) : Int) - 1) * (s.vcTable v).txTrafficParams.tSCR ≤
      ((final call (atmLayerVcActivate s v) calls).timeCurrent - s.timeCurrent) -
        (s.vcTable v).txTrafficParams.bt := by
  have shaped : ScrShaped v (s.vcTable v).txTrafficParams s.timeCurrent
      (final call (atmLayerVcActivate s v) calls)
      (0 + cellsSent v (sinceActivation s v calls)) := by
    refine counted_final (cellsOf v) (scrShaped_activate s v (by omega)) ?_
    intro t mem count shaped
    have stepped := step_of_mem mem
    have out : (call t.before t.call).1 = t.out := by rw [stepped]
    have after : (call t.before t.call).2 = t.after := by rw [stepped]
    rw [← out, ← after]
    refine shaped.step (by rw [vbr]; decide) (by omega) t.call ?_ (credit t mem)
    rw [after]
    exact clock t mem
  rw [Nat.zero_add] at shaped
  exact shaped.paced.bound

/-! ## A run that breaks the contract -/

def burstyParams : TrafficParams :=
  atmLayerSetShapingValues ⟨.unset, 0, 0, 0, 0⟩ ⟨.noClpScr, 2400, 240, 2, .nrtVbr⟩

def oneChannel : AtmSoftSar where
  vcTable _ := {
    vcParams := ⟨5, 0, 0, 0⟩
    txTrafficParams := burstyParams
    aal5State := { atmAal5VcInit with txFrameList := 4, txBufferList := 8 }
    dlistTxWaitingMaxSize := 4
    txPcrLCS := 0
    txScrLCS := 0 }
  vcStateForVcid _ := some 0
  dlistAllVc := []
  dlistTxVcWaiting := []
  dlistTxVcUbrWaiting := []
  timeCurrent := 0
  lastIdleTimerTime := 0
  connectRate := 1200000
  cellTicks := 42400
  cellsToFill := 0
  cellHead := []

def oneByte : Packet := [[7]]

def requeueCycle (a : Int) : List Call :=
  [.timer a 1, .addPkt 0 1 oneByte, .timer (a + 50000) 1, .getNextTxCell, .timer (a + 100000) 1,
    .getNextTxCell]

set_option maxRecDepth 100000 in
/-- One packet after the activation. -/
theorem scr_bound_run_onePacket :
    cellsSent 0 (sinceActivation oneChannel 0 (requeueCycle 60000)) = 1 ∧
      ((cellsSent 0 (sinceActivation oneChannel 0 (requeueCycle 60000)) : Int) - 1) *
          (oneChannel.vcTable 0).txTrafficParams.tSCR ≤
        ((final call (atmLayerVcActivate oneChannel 0) (requeueCycle 60000)).timeCurrent -
          oneChannel.timeCurrent) - (oneChannel.vcTable 0).txTrafficParams.bt := by
  have cells : cellsSent 0 (sinceActivation oneChannel 0 (requeueCycle 60000)) = 1 := by cbv
  have clock : (sinceActivation oneChannel 0 (requeueCycle 60000)).all
      (fun t => t.before.timeCurrent ≤ t.after.timeCurrent) = true := by cbv
  refine ⟨cells, scr_bound_run oneChannel 0 (requeueCycle 60000) (by decide) (by decide)
    (by decide) (by decide) (fun t mem => of_decide_eq_true (all_eq_true.mp clock t mem)) ?_⟩
  simp only [sinceActivation, requeueCycle, history, call, forall_mem_cons, not_mem_nil,
    false_imp_iff, implies_true, and_true]
  refine ⟨trivial, ?_, trivial, trivial, trivial, trivial⟩
  intro _ _ _
  decide

set_option maxRecDepth 100000 in
/-- Three cells within 487200 ticks of the activation, where the contract asks for 550000. -/
theorem scr_bound_requeued :
    let params := (oneChannel.vcTable 0).txTrafficParams
    let calls := requeueCycle 60000 ++ (requeueCycle 202400 ++ requeueCycle 344800)
    params = ⟨.vbr, 50000, 500000, -450000, 4⟩ ∧
      (∀ t ∈ sinceActivation oneChannel 0 calls, t.before.timeCurrent ≤ t.after.timeCurrent) ∧
      ¬ (((cellsSent 0 (sinceActivation oneChannel 0 calls) : Int) - 1) * params.tSCR ≤
        ((final call (atmLayerVcActivate oneChannel 0) calls).timeCurrent -
          oneChannel.timeCurrent) - params.bt) := by
  intro params calls
  have cells : cellsSent 0 (sinceActivation oneChannel 0 calls) = 3 := by cbv
  have ended : (final call (atmLayerVcActivate oneChannel 0) calls).timeCurrent = 487200 := by cbv
  have clock : (sinceActivation oneChannel 0 calls).all
      (fun t => t.before.timeCurrent ≤ t.after.timeCurrent) = true := by cbv
  refine ⟨by decide, fun t mem => of_decide_eq_true (all_eq_true.mp clock t mem), ?_⟩
  rw [cells, ended]
  decide

end EchoLife.SoftSar
