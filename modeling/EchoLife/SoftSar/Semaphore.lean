import EchoLife.SoftSar.Conservation
import EchoLife.Lib.Semaphore

/-!
# The semaphore of the software SAR

The calls of the SAR are guarded by a semaphore with one permit. Every call of every run takes and
gives back the permit (`semaphore_free_iff`), except a `DestroyVc` that closes a channel with a
packet: it flushes the channel while it holds the semaphore, and waits for itself
(`destroyVc_blocks`).
-/

namespace EchoLife.SoftSar

open Aal5 (TxState atmAal5TxCell)
open Semaphore History

/-! ## The operations of a call -/

def sendCompleteOps : List Op := critical []

def vcTxFlushOps (tx : TxState) : List Op := tx.held.flatMap fun _ => sendCompleteOps

def txCellOps (vc : VcState) : List Op :=
  ((atmAal5TxCell vc.vcParams vc.aal5State).2.completed.drop
    vc.aal5State.completed.length).flatMap fun _ => sendCompleteOps

def AtmSoftSar.pVc0 (s : AtmSoftSar) : Option Nat :=
  match selectShaped s with
  | some v => some v
  | none => selectUbr s

def txLoopOps : Nat → AtmSoftSar → List Op
  | 0, _ => []
  | rounds + 1, s =>
    s.pVc0.toList.flatMap (fun v => txCellOps (s.vcTable v)) ++
      match round s with
      | .unlinked s' => txLoopOps rounds s'
      | _ => []

def getNextTxCellOps (s : AtmSoftSar) : List Op :=
  if s.connectRate ≠ 0 ∧ s.cellsToFill > 0 then
    match s.cellHead with
    | _ :: _ => []
    | [] => txLoopOps (s.linked + 1) s
  else []

def txFlushOps (s : AtmSoftSar) : List Op :=
  (s.dlistTxVcWaiting ++ s.dlistTxVcUbrWaiting).flatMap fun v => vcTxFlushOps (s.tx v)

def destroyVcOps (s : AtmSoftSar) (ucVcid : Nat) : List Op :=
  match s.vcStateForVcid ucVcid with
  | none => critical []
  | some v =>
    critical (if AtmSoftSar.inUse
      { s with vcStateForVcid := Function.update s.vcStateForVcid ucVcid none } v then []
    else vcTxFlushOps (s.tx v))

def semOps (s : AtmSoftSar) : SarCall → List Op
  | .tx (.call (.addPkt ..)) => critical []
  | .tx (.call .getNextTxCell) => getNextTxCellOps s
  | .tx (.call (.timer ..)) => []
  | .tx .txFlush => txFlushOps s
  | .setShapingValues .. => []
  | .createVc .. => critical []
  | .destroyVc ucVcid => destroyVcOps s ucVcid

/-! ## Calls -/

def ClosesBusy (s : AtmSoftSar) : SarCall → Prop
  | .destroyVc ucVcid => ∃ v, s.vcStateForVcid ucVcid = some v ∧ (s.tx v).held ≠ []
  | _ => False

section Calls

variable {s : AtmSoftSar}

theorem run_sendComplete : run 1 sendCompleteOps = some 1 := rfl

theorem run_vcTxFlush (tx : TxState) : run 1 (vcTxFlushOps tx) = some 1 :=
  run_flatMap fun _ _ => run_sendComplete

theorem run_vcTxFlush_held {tx : TxState} (busy : tx.held ≠ []) :
    run 0 (vcTxFlushOps tx) = none := by
  obtain ⟨packet, rest, held⟩ := List.exists_cons_of_ne_nil busy
  rw [vcTxFlushOps, held, List.flatMap_cons]
  exact run_critical_held [] _

theorem run_txLoop (rounds : Nat) (s : AtmSoftSar) : run 1 (txLoopOps rounds s) = some 1 := by
  induction rounds generalizing s with
  | zero => rfl
  | succ rounds ih =>
    have cell : run 1 (s.pVc0.toList.flatMap fun v => txCellOps (s.vcTable v)) = some 1 :=
      run_flatMap fun _ _ => run_flatMap fun _ _ => run_sendComplete
    rw [txLoopOps, run_append, cell]
    split
    next s' _ => exact ih s'
    next => rfl

theorem run_getNextTxCell (s : AtmSoftSar) : run 1 (getNextTxCellOps s) = some 1 := by
  rw [getNextTxCellOps]
  split
  · split
    · rfl
    · exact run_txLoop _ s
  · rfl

theorem run_destroyVc_iff (linkage : Linkage s) (ucVcid : Nat) :
    run 1 (destroyVcOps s ucVcid) = some 1 ↔ ¬ ClosesBusy s (.destroyVc ucVcid) := by
  rw [destroyVcOps, ClosesBusy]
  cases found : s.vcStateForVcid ucVcid with
  | none => exact iff_of_true rfl fun ⟨v, closes, _⟩ => nomatch closes
  | some v =>
    dsimp only
    rw [if_neg (linkage.not_inUse found)]
    by_cases busy : (s.tx v).held = []
    · have noOps : vcTxFlushOps (s.tx v) = [] := by rw [vcTxFlushOps, busy]; rfl
      refine iff_of_true (run_critical (by rw [noOps]; rfl)) ?_
      rintro ⟨w, closes, busyW⟩
      obtain rfl := Option.some.inj closes
      exact busyW busy
    · have blocks := run_critical_blocks (run_vcTxFlush_held busy)
      refine iff_of_false ?_ (not_not.mpr ⟨v, rfl, busy⟩)
      rw [blocks]
      exact nofun

theorem run_semOps_iff (linkage : Linkage s) (c : SarCall) :
    run 1 (semOps s c) = some 1 ↔ ¬ ClosesBusy s c := by
  cases c with
  | tx c =>
    cases c with
    | call c =>
      cases c with
      | addPkt | timer => exact iff_of_true rfl id
      | getNextTxCell => exact iff_of_true (run_getNextTxCell s) id
    | txFlush => exact iff_of_true (run_flatMap fun v _ => run_vcTxFlush (s.tx v)) id
  | setShapingValues | createVc => exact iff_of_true rfl id
  | destroyVc ucVcid => exact run_destroyVc_iff linkage ucVcid

end Calls

/-- **The semaphore.** After every run, a call finds the permit whenever it asks for it and gives
it back, exactly when it does not close a channel that still has a packet. -/
theorem semaphore_free_iff (cpuTick : Int) (connectRate cellTicks : Nat) (calls : List SarCall)
    (c : SarCall) :
    let s := final sarStep (atmLayerInit cpuTick connectRate cellTicks) calls
    run 1 (semOps s c) = some 1 ↔ ¬ ClosesBusy s c :=
  run_semOps_iff (accounted_run cpuTick connectRate cellTicks calls 0).linkage c

/-- **A channel with a packet cannot be closed**: the thread blocks on the permit that it holds. -/
theorem destroyVc_blocks :
    let s := final sarStep (atmLayerInit 0 1200000 42400)
      [.createVc 0 0 5 1 4 ⟨.noClpNoScr, 0, 0, 0, .cbr⟩, .tx (.call (.addPkt 0 1 [[7]]))]
    semOps s (.destroyVc 0) = [.request, .request, .release, .release] ∧
      run 1 (semOps s (.destroyVc 0)) = none := by
  decide

end EchoLife.SoftSar
