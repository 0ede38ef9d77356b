import EchoLife.SoftSar.Calls

/-!
# The peak rate

`txPcrLCS` is the virtual time of the peak rate: a cell moves it on by `tPCR`, and is sent only when
the clock has passed it by that much. The clock itself may go back, so the cells are bounded by its
largest value: `PcrShaped` is the invariant (`PcrShaped.step`), and `pcr_bound_run` the bound.
-/

namespace EchoLife.SoftSar

open List

open VirtualSchedule (Paced)
open History

def txSinceActivation (s : AtmSoftSar) (v : Nat) (calls : List TxCall) :
    List (Transition AtmSoftSar TxCall (Option Emitted)) :=
  history txStep (atmLayerVcActivate s v) calls

def clockValues (s : AtmSoftSar) (v : Nat) (calls : List TxCall) : Set Int :=
  {now | now = (atmLayerVcActivate s v).timeCurrent ∨
    ∃ t ∈ txSinceActivation s v calls, now = t.after.timeCurrent}

/-- A shaped channel since its activation at `start`: `count` cells were sent on it, and the clock
was never past `latest`. -/
structure PcrShaped (v : Nat) (params : TrafficParams) (start latest : Int) (s : AtmSoftSar)
    (count : Nat) : Prop where
  params_eq : (s.vcTable v).txTrafficParams = params
  absent : v ∉ s.dlistTxVcUbrWaiting
  clock : s.timeCurrent ≤ latest
  paced : Paced params.tPCR params.tPCR start (s.vcTable v).txPcrLCS count latest

section Invariant

variable {v : Nat} {params : TrafficParams} {start latest : Int} {s s' : AtmSoftSar} {count : Nat}

theorem pcrShaped_activate (s : AtmSoftSar) (v : Nat) (clock : s.timeCurrent ≤ latest) :
    PcrShaped v (s.vcTable v).txTrafficParams s.timeCurrent latest (atmLayerVcActivate s v) 0 := by
  refine ⟨by rw [vcTable_activate], by simp [atmLayerVcActivate], clock, ?_⟩
  rw [vcTable_activate]
  exact (Paced.initial le_rfl).wait clock

theorem foldl_vcTxFlush_shaping (vs : List Nat) (s : AtmSoftSar) (v : Nat) :
    ((vs.foldl AtmSoftSar.vcTxFlush s).vcTable v).shaping = (s.vcTable v).shaping := by
  induction vs generalizing s with
  | nil => rfl
  | cons w vs ih => exact (ih (s.vcTxFlush w)).trans (shaping_setVc s v w _)

theorem txFlush_shaping (s : AtmSoftSar) (v : Nat) :
    ((txFlush s).vcTable v).shaping = (s.vcTable v).shaping :=
  (foldl_vcTxFlush_shaping _ _ v).trans (foldl_vcTxFlush_shaping s.dlistTxVcWaiting s v)

theorem PcrShaped.kept (shaped : PcrShaped v params start latest s count)
    (same : (s'.vcTable v).shaping = (s.vcTable v).shaping) (absent : v ∉ s'.dlistTxVcUbrWaiting)
    (clock : s'.timeCurrent ≤ latest) : PcrShaped v params start latest s' count := by
  simp only [VcState.shaping, Prod.mk.injEq] at same
  exact ⟨same.1.trans shaped.params_eq, absent, clock, same.2.1 ▸ shaped.paced⟩

theorem PcrShaped.step (shaped : PcrShaped v params start latest s count)
    (contract : params.serviceType ≠ .ubrNoPcr) (peak : 0 < params.tPCR) (c : TxCall)
    (clock : (txStep s c).2.timeCurrent ≤ latest) :
    PcrShaped v params start latest (txStep s c).2 (count + cellsOf v (txStep s c).1) := by
  cases c with
  | txFlush => exact shaped.kept (txFlush_shaping s v) not_mem_nil clock
  | call c =>
    obtain ⟨absent, step⟩ := shapingStep_call shaped.absent (shaped.params_eq ▸ contract) c
    have before := shaped.clock
    cases step with
    | kept noCell same =>
      rw [txStep, noCell]
      exact shaped.kept same absent clock
    | sent oneCell conforms moved =>
      simp only [VcState.shaping, VcState.advanced, Prod.mk.injEq] at moved
      have passed := conforms.1
      rw [VcState.tmPcr, shaped.params_eq] at passed
      refine ⟨moved.1.trans shaped.params_eq, absent, clock, ?_⟩
      rw [txStep, oneCell, moved.2.1, shaped.params_eq]
      exact shaped.paced.send (by omega)
    | requeued noCell queues found unlinked passed reset =>
      simp only [VcState.shaping, Prod.mk.injEq] at reset
      rw [shaped.params_eq] at passed
      refine ⟨reset.1.trans shaped.params_eq, absent, clock, ?_⟩
      rw [txStep, noCell, reset.2.1]
      exact shaped.paced.skip (by omega)
    | idledOut noCell params_eq pcr _ =>
      rw [txStep, noCell]
      exact ⟨params_eq.trans shaped.params_eq, absent, clock, shaped.paced.skip pcr⟩

end Invariant

/-- **The peak rate.** Since the activation of a shaped channel, in every run, each cell that was
sent on it needs `tPCR` ticks of the time up to the largest value that the clock has had. -/
theorem pcr_bound_run (s : AtmSoftSar) (v : Nat) (calls : List TxCall) (latest : Int)
    (contract : (s.vcTable v).txTrafficParams.serviceType ≠ .ubrNoPcr)
    (peak : 0 < (s.vcTable v).txTrafficParams.tPCR)
    (largest : IsGreatest (clockValues s v calls) latest) :
    (((txSinceActivation s v calls).map fun t => cellsOf v t.out).sum : Int) *
      (s.vcTable v).txTrafficParams.tPCR ≤ latest - s.timeCurrent := by
  have shaped : PcrShaped v (s.vcTable v).txTrafficParams s.timeCurrent latest
      (final txStep (atmLayerVcActivate s v) calls)
      (0 + ((txSinceActivation s v calls).map fun t => cellsOf v t.out).sum) := by
    refine counted_final (cellsOf v) (pcrShaped_activate s v (largest.2 (.inl rfl))) ?_
    intro t mem count shaped
    have stepped := step_of_mem mem
    have out : (txStep t.before t.call).1 = t.out := by rw [stepped]
    have after : (txStep t.before t.call).2 = t.after := by rw [stepped]
    rw [← out, ← after]
    refine shaped.step contract peak t.call ?_
    rw [after]
    exact largest.2 (.inr ⟨t, mem, rfl⟩)
  rw [Nat.zero_add] at shaped
  have bound := shaped.paced.bound
  linarith

def clockGoesBack : List TxCall :=
  [.call (.timer 60000 1), .call (.addPkt 0 1 oneByte), .call (.timer 110000 1),
    .call .getNextTxCell, .call (.timer 70000 1)]

set_option maxRecDepth 100000 in
theorem pcr_bound_run_clockGoesBack :
    ((txSinceActivation oneChannel 0 clockGoesBack).map fun t => cellsOf 0 t.out).sum = 1 ∧
      IsGreatest (clockValues oneChannel 0 clockGoesBack) 152400 ∧
      (((txSinceActivation oneChannel 0 clockGoesBack).map fun t => cellsOf 0 t.out).sum : Int) *
        (oneChannel.vcTable 0).txTrafficParams.tPCR ≤ 152400 - oneChannel.timeCurrent := by
  have cells : ((txSinceActivation oneChannel 0 clockGoesBack).map fun t =>
      cellsOf 0 t.out).sum = 1 := by cbv
  have clock : (txSinceActivation oneChannel 0 clockGoesBack).all
      (fun t => t.after.timeCurrent ≤ 152400) = true := by cbv
  have largest : IsGreatest (clockValues oneChannel 0 clockGoesBack) 152400 := by
    constructor
    · exact .inr ⟨_, .tail _ (.tail _ (.tail _ (.head _))), by cbv⟩
    · rintro now (rfl | ⟨t, mem, rfl⟩)
      · exact show (0 : Int) ≤ 152400 by decide
      · exact of_decide_eq_true (all_eq_true.mp clock t mem)
  exact ⟨cells, largest,
    pcr_bound_run oneChannel 0 clockGoesBack 152400 (by decide) (by decide) largest⟩

end EchoLife.SoftSar
