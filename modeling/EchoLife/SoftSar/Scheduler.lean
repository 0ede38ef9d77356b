import EchoLife.Aal5.Segmentation
import EchoLife.Lib.History

/-!
# The cell scheduler of the software SAR

The software SAR decides which channel sends the next cell. A shaped channel remembers when its
last cell was due at the peak rate (`txPcrLCS`) and at the sustained rate (`txScrLCS`), and may send
when the clock has passed both. Times are unbounded integers here, so that the difference of two
times is their `TimeDiff`.

The loop of `atmLayerGetNextTxCell` is cut into rounds (`round_sent`, `round_unlinked`); a round for
every linked channel and one more are always enough (`txLoop_fuel`).
-/

namespace EchoLife.SoftSar

open List

open Aal5 (Cell Packet TxState atmAal5TxCell maxTxPriorities atmCellDataSize)

/-! ## Traffic parameters -/

def cpuSpeed : Nat := 240000000

def timeSecToAtm (t : Nat) : Int := t * (cpuSpeed / 2 : Nat)

inductive ServiceType where
  | unset
  | cbr
  | vbr
  | ubr
  | ubrNoPcr
  deriving Repr, DecidableEq

structure TrafficParams where
  serviceType : ServiceType
  tPCR : Int
  tSCR : Int
  bt : Int
  priority : Int
  deriving Repr, DecidableEq

inductive TrafficDescrType where
  | noClpNoScr
  | noClpNoScrCdvt
  | clpTransparentNoScr
  | noClpTaggingNoScr
  | noClpScr
  | noClpScrCdvt
  | clpTransparentScr
  | other
  deriving Repr, DecidableEq

inductive ServiceCategory where
  | cbr
  | rtVbr
  | nrtVbr
  | ubr
  | other
  deriving Repr, DecidableEq

structure TrafficDescrParmEntry where
  ulTrafficDescrType : TrafficDescrType
  ulTrafficDescrParm1 : Nat
  ulTrafficDescrParm2 : Nat
  ulTrafficDescrParm3 : Nat
  ulServiceCategory : ServiceCategory
  deriving Repr, DecidableEq

def cellTime (rate : Nat) : Int :=
  if rate > 0 then timeSecToAtm 1 / rate else 0

def priorityCbr : Int := 12

def priorityRtVbr : Int := 8

def priorityNrtVbr : Int := 4

def priorityUbr : Int := 0

def TrafficParams.peakOnly (params : TrafficParams) (entry : TrafficDescrParmEntry) :
    TrafficParams :=
  let params := { params with tPCR := cellTime entry.ulTrafficDescrParm1, tSCR := 0, bt := 0 }
  match entry.ulServiceCategory with
  | .ubr => { params with serviceType := .ubr, priority := priorityUbr }
  | .cbr => { params with serviceType := .cbr, priority := priorityCbr }
  | _ => params

def TrafficParams.sustained (params : TrafficParams) (entry : TrafficDescrParmEntry) :
    TrafficParams :=
  let tPCR := cellTime entry.ulTrafficDescrParm1
  let tSCR := cellTime entry.ulTrafficDescrParm2
  let bt : Int :=
    if entry.ulTrafficDescrParm3 > 0 then
      -1 * ((entry.ulTrafficDescrParm3 - 1) * (tSCR - tPCR))
    else 0
  let params := { params with tPCR := if bt = 0 then tSCR else tPCR, tSCR := tSCR, bt := bt }
  match entry.ulServiceCategory with
  | .rtVbr => { params with serviceType := .vbr, priority := priorityRtVbr }
  | .nrtVbr => { params with serviceType := .vbr, priority := priorityNrtVbr }
  | _ => params

def atmLayerSetShapingValues (params : TrafficParams) (entry : TrafficDescrParmEntry) :
    TrafficParams :=
  match entry.ulTrafficDescrType with
  | .noClpNoScr | .noClpNoScrCdvt | .clpTransparentNoScr | .noClpTaggingNoScr =>
    params.peakOnly entry
  | .noClpScr | .noClpScrCdvt | .clpTransparentScr => params.sustained entry
  | .other =>
    { params with
      tPCR := 0, tSCR := 0, bt := 0, serviceType := .ubrNoPcr, priority := priorityUbr }

/-! ## Channels and the SAR -/

structure VcState where
  vcParams : Aal5.VcParams
  txTrafficParams : TrafficParams
  aal5State : TxState
  dlistTxWaitingMaxSize : Nat
  txPcrLCS : Int
  txScrLCS : Int

structure AtmSoftSar where
  vcTable : Nat → VcState
  vcStateForVcid : Nat → Option Nat
  dlistAllVc : List Nat
  dlistTxVcWaiting : List Nat
  /-- Channels without shaping that have something to send. -/
  dlistTxVcUbrWaiting : List Nat
  timeCurrent : Int
  lastIdleTimerTime : Int
  connectRate : Nat
  cellTicks : Nat
  /-- Number of cells that may be sent until the next timer call. -/
  cellsToFill : Nat
  cellHead : List Cell

def AtmSoftSar.setVc (s : AtmSoftSar) (v : Nat) (vc : VcState) : AtmSoftSar :=
  { s with vcTable := Function.update s.vcTable v vc }

def AtmSoftSar.entryLinked (s : AtmSoftSar) (v : Nat) : Prop :=
  v ∈ s.dlistTxVcWaiting ∨ v ∈ s.dlistTxVcUbrWaiting

instance (s : AtmSoftSar) (v : Nat) : Decidable (s.entryLinked v) :=
  inferInstanceAs (Decidable (_ ∨ _))

def atmLayerVcActivate (s : AtmSoftSar) (v : Nat) : AtmSoftSar :=
  let vc := s.vcTable v
  { s.setVc v { vc with
      aal5State := vc.aal5State.vcInit
      txPcrLCS := s.timeCurrent
      txScrLCS := s.timeCurrent } with
    dlistAllVc := s.dlistAllVc.filter (· ≠ v) ++ [v]
    dlistTxVcWaiting := s.dlistTxVcWaiting.filter (· ≠ v)
    dlistTxVcUbrWaiting := s.dlistTxVcUbrWaiting.filter (· ≠ v) }

/-! ## Packets come in -/

def linkVc (s : AtmSoftSar) (v : Nat) : AtmSoftSar :=
  let vc := s.vcTable v
  if vc.txTrafficParams.serviceType = .ubrNoPcr then
    { s with dlistTxVcUbrWaiting := s.dlistTxVcUbrWaiting ++ [v] }
  else if s.timeCurrent - vc.txPcrLCS > vc.txTrafficParams.tPCR then
    -- At least one peak cell time has passed since the last packet.
    { s.setVc v { vc with txPcrLCS := s.timeCurrent, txScrLCS := s.timeCurrent } with
      dlistTxVcWaiting := s.dlistTxVcWaiting ++ [v] }
  else { s with dlistTxVcWaiting := s.dlistTxVcWaiting ++ [v] }

def atmLayerQueueFrame (s : AtmSoftSar) (v : Nat) (packet : Packet) (ulPri : Nat) : AtmSoftSar :=
  let s := if s.entryLinked v then s else linkVc s v
  let vc := s.vcTable v
  s.setVc v { vc with aal5State := vc.aal5State.enqueue ulPri packet }

inductive Status where
  | success
  | resourceError
  | parameterError
  deriving Repr, DecidableEq

def queueOf (ucSendPriority : Nat) : Nat :=
  if 1 ≤ ucSendPriority ∧ ucSendPriority ≤ maxTxPriorities then ucSendPriority - 1 else 0

def addPkt (s : AtmSoftSar) (ucVcid ucSendPriority : Nat) (packet : Packet) : Status × AtmSoftSar :=
  let ulPri := queueOf ucSendPriority
  match s.vcStateForVcid ucVcid with
  | none => (.parameterError, s)
  | some v =>
    let vc := s.vcTable v
    let tx := vc.aal5State
    if (tx.dlistTxWaiting.getD ulPri []).length < vc.dlistTxWaitingMaxSize then
      if tx.txFrameList > 0 ∧ packet.length ≤ tx.txBufferList then
        let tx := { tx with
          txFrameList := tx.txFrameList - 1
          txBufferList := tx.txBufferList - packet.length }
        (.success, atmLayerQueueFrame (s.setVc v { vc with aal5State := tx }) v packet ulPri)
      else (.resourceError, s)
    else (.parameterError, s)

/-! ## Cells go out -/

inductive Emitted where
  | oam (cell : Cell)
  | data (v : Nat) (cell : Cell)
  | idle
  deriving Repr, DecidableEq

def Emitted.cell : Emitted → Cell
  | .oam cell => cell
  | .data _ cell => cell
  | .idle => ⟨0, replicate atmCellDataSize 0x6a⟩

def VcState.tmPcr (vc : VcState) (now : Int) : Int := now - vc.txPcrLCS

def VcState.tmScr (vc : VcState) (now : Int) : Int :=
  if vc.txTrafficParams.bt ≠ 0 then now - vc.txScrLCS else 0

def VcState.Conforms (vc : VcState) (now : Int) : Prop :=
  vc.tmPcr now ≥ vc.txTrafficParams.tPCR ∧ vc.tmScr now ≥ vc.txTrafficParams.bt

instance (vc : VcState) (now : Int) : Decidable (vc.Conforms now) :=
  inferInstanceAs (Decidable (_ ∧ _))

structure Best where
  vc0 : Option Nat
  tDiffMax : Int
  tDiffPri : Int
  tDiffSubPri : Int
  deriving Repr, DecidableEq

def Best.start : Best := ⟨none, -1, -1, -1⟩

def considerShaped (s : AtmSoftSar) (best : Best) (v : Nat) : Best :=
  let vc := s.vcTable v
  let late := vc.tmPcr s.timeCurrent - vc.txTrafficParams.tPCR
  let priority := vc.txTrafficParams.priority
  let subPri : Int := vc.aal5State.currHighSubPri
  if vc.Conforms s.timeCurrent then
    if priority > best.tDiffPri ∨ (priority = best.tDiffPri ∧ subPri > best.tDiffSubPri) ∨
        (priority = best.tDiffPri ∧ subPri = best.tDiffSubPri ∧ late > best.tDiffMax) then
      ⟨some v, late, priority, subPri⟩
    else best
  else best

def considerUbr (s : AtmSoftSar) (best : Best) (v : Nat) : Best :=
  let subPri : Int := (s.vcTable v).aal5State.currHighSubPri
  if subPri > best.tDiffSubPri then { best with vc0 := some v, tDiffSubPri := subPri } else best

def selectShaped (s : AtmSoftSar) : Option Nat :=
  (s.dlistTxVcWaiting.foldl (considerShaped s) .start).vc0

def selectUbr (s : AtmSoftSar) : Option Nat :=
  (s.dlistTxVcUbrWaiting.foldl (considerUbr s) .start).vc0

inductive Round where
  | sent (v : Nat) (cell : Cell) (s : AtmSoftSar)
  /-- The chosen channel had nothing to send and was unlinked. -/
  | unlinked (s : AtmSoftSar)
  | nothing

def sentShaped (s : AtmSoftSar) (v : Nat) (tx : TxState) : AtmSoftSar :=
  let vc := s.vcTable v
  { s.setVc v { vc with
      aal5State := tx
      txPcrLCS := vc.txPcrLCS + vc.txTrafficParams.tPCR
      txScrLCS := vc.txScrLCS + vc.txTrafficParams.tSCR } with
    dlistTxVcWaiting := s.dlistTxVcWaiting.erase v ++ [v] }

def sentUbr (s : AtmSoftSar) (v : Nat) (tx : TxState) : AtmSoftSar :=
  { s.setVc v { s.vcTable v with aal5State := tx } with
    dlistTxVcUbrWaiting := s.dlistTxVcUbrWaiting.erase v ++ [v] }

def unlinkShaped (s : AtmSoftSar) (v : Nat) (tx : TxState) : AtmSoftSar :=
  { s.setVc v { s.vcTable v with aal5State := tx } with
    dlistTxVcWaiting := s.dlistTxVcWaiting.erase v }

def unlinkUbr (s : AtmSoftSar) (v : Nat) (tx : TxState) : AtmSoftSar :=
  { s.setVc v { s.vcTable v with aal5State := tx } with
    dlistTxVcUbrWaiting := s.dlistTxVcUbrWaiting.erase v }

def AtmSoftSar.txCell (s : AtmSoftSar) (v : Nat) : Option Cell × TxState :=
  atmAal5TxCell (s.vcTable v).vcParams (s.vcTable v).aal5State

def round (s : AtmSoftSar) : Round :=
  match selectShaped s with
  | some v =>
    match s.txCell v with
    | (some cell, tx) => .sent v cell (sentShaped s v tx)
    | (none, tx) => .unlinked (unlinkShaped s v tx)
  | none =>
    match selectUbr s with
    | some v =>
      match s.txCell v with
      | (some cell, tx) => .sent v cell (sentUbr s v tx)
      | (none, tx) => .unlinked (unlinkUbr s v tx)
    | none => .nothing

def AtmSoftSar.linked (s : AtmSoftSar) : Nat :=
  s.dlistTxVcWaiting.length + s.dlistTxVcUbrWaiting.length

def txLoop : Nat → AtmSoftSar → Option Emitted × AtmSoftSar
  | 0, s => (none, s)
  | rounds + 1, s =>
    match round s with
    | .sent v cell s' => (some (.data v cell), s')
    | .unlinked s' => txLoop rounds s'
    | .nothing => (none, s)

def AtmSoftSar.countCell (s : AtmSoftSar) : AtmSoftSar :=
  { s with
    cellsToFill := s.cellsToFill - 1
    timeCurrent := s.timeCurrent + s.cellTicks }

def atmLayerGetNextTxCell (s : AtmSoftSar) : Option Emitted × AtmSoftSar :=
  if s.connectRate ≠ 0 ∧ s.cellsToFill > 0 then
    match s.cellHead with
    | cell :: cells => (some (.oam cell), { s with cellHead := cells }.countCell)
    | [] =>
      let haveShapedPkt := s.dlistTxVcWaiting ≠ []
      match txLoop (s.linked + 1) s with
      | (some emitted, s') => (some emitted, if haveShapedPkt then s'.countCell else s')
      | (none, s') =>
        -- A shaped packet has to wait: an idle cell takes the slot.
        if haveShapedPkt then (some .idle, s'.countCell)
        else (none, { s' with cellsToFill := 0 })
  else (none, s)

/-! ## The timer -/

def atmAdslTxDescrTblSize : Nat := 20

def txIdleTimeOut : Int := timeSecToAtm 10

def VcState.idleOut (vc : VcState) (now : Int) : VcState :=
  { vc with
    txPcrLCS := if now - vc.txPcrLCS > txIdleTimeOut then now else vc.txPcrLCS
    txScrLCS := if now - vc.txScrLCS > txIdleTimeOut then now else vc.txScrLCS }

def atmLayerTimer (s : AtmSoftSar) (cpuTick : Int) (ulIntervalMs : Nat) : AtmSoftSar :=
  let granted := s.cellsToFill + ((ulIntervalMs + 2) * s.connectRate / 424000 + 1)
  let s := { s with
    timeCurrent := cpuTick
    cellsToFill := if granted > atmAdslTxDescrTblSize then atmAdslTxDescrTblSize else granted }
  if cpuTick - s.lastIdleTimerTime ≥ txIdleTimeOut then
    { s.dlistAllVc.foldl (fun s v => s.setVc v ((s.vcTable v).idleOut cpuTick)) s with
      lastIdleTimerTime := cpuTick }
  else s

/-! ## Calls -/

inductive Call where
  | addPkt (ucVcid ucSendPriority : Nat) (packet : Packet)
  | getNextTxCell
  | timer (cpuTick : Int) (ulIntervalMs : Nat)
  deriving Repr, DecidableEq

def call (s : AtmSoftSar) : Call → Option Emitted × AtmSoftSar
  | .addPkt ucVcid ucSendPriority packet => (none, (addPkt s ucVcid ucSendPriority packet).2)
  | .getNextTxCell => atmLayerGetNextTxCell s
  | .timer cpuTick ulIntervalMs => (none, atmLayerTimer s cpuTick ulIntervalMs)

/-! ## What a round does -/

section Rounds

variable {s s' : AtmSoftSar} {v : Nat} {cell : Cell}

theorem foldl_considerShaped (vs : List Nat) (best : Best)
    (chosen : (vs.foldl (considerShaped s) best).vc0 = some v) :
    best.vc0 = some v ∨ v ∈ vs ∧ (s.vcTable v).Conforms s.timeCurrent := by
  induction vs generalizing best with
  | nil => exact .inl chosen
  | cons w vs ih =>
    rcases ih _ chosen with before | ⟨later, conforms⟩
    · rw [considerShaped] at before
      split at before
      · rename_i conforms
        split at before
        · cases before
          exact .inr ⟨mem_cons_self, conforms⟩
        · exact .inl before
      · exact .inl before
    · exact .inr ⟨mem_cons_of_mem _ later, conforms⟩

theorem selectShaped_spec (chosen : selectShaped s = some v) :
    v ∈ s.dlistTxVcWaiting ∧ (s.vcTable v).Conforms s.timeCurrent :=
  (foldl_considerShaped _ _ chosen).resolve_left (by rintro ⟨⟩)

theorem foldl_considerUbr (vs : List Nat) (best : Best)
    (chosen : (vs.foldl (considerUbr s) best).vc0 = some v) : best.vc0 = some v ∨ v ∈ vs := by
  induction vs generalizing best with
  | nil => exact .inl chosen
  | cons w vs ih =>
    rcases ih _ chosen with before | later
    · rw [considerUbr] at before
      split at before
      · cases before
        exact .inr mem_cons_self
      · exact .inl before
    · exact .inr (mem_cons_of_mem _ later)

theorem selectUbr_spec (chosen : selectUbr s = some v) : v ∈ s.dlistTxVcUbrWaiting :=
  (foldl_considerUbr _ _ chosen).resolve_left (by rintro ⟨⟩)

theorem round_sent (sent : round s = .sent v cell s') :
    ∃ tx, s.txCell v = (some cell, tx) ∧
      (v ∈ s.dlistTxVcWaiting ∧ (s.vcTable v).Conforms s.timeCurrent ∧ s' = sentShaped s v tx ∨
        v ∈ s.dlistTxVcUbrWaiting ∧ s' = sentUbr s v tx) := by
  rw [round] at sent
  split at sent
  · rename_i w chosen
    split at sent
    · rename_i tx made
      cases sent
      obtain ⟨waits, conforms⟩ := selectShaped_spec chosen
      exact ⟨tx, made, .inl ⟨waits, conforms, rfl⟩⟩
    · cases sent
  · split at sent
    · rename_i w chosen
      split at sent
      · rename_i tx made
        cases sent
        exact ⟨tx, made, .inr ⟨selectUbr_spec chosen, rfl⟩⟩
      · cases sent
    · cases sent

theorem round_unlinked (unlinked : round s = .unlinked s') :
    ∃ v tx, s.txCell v = (none, tx) ∧
      (v ∈ s.dlistTxVcWaiting ∧ s' = unlinkShaped s v tx ∨
        v ∈ s.dlistTxVcUbrWaiting ∧ s' = unlinkUbr s v tx) := by
  rw [round] at unlinked
  split at unlinked
  · rename_i w chosen
    split at unlinked
    · cases unlinked
    · rename_i tx made
      cases unlinked
      exact ⟨w, tx, made, .inl ⟨(selectShaped_spec chosen).1, rfl⟩⟩
  · split at unlinked
    · rename_i w chosen
      split at unlinked
      · cases unlinked
      · rename_i tx made
        cases unlinked
        exact ⟨w, tx, made, .inr ⟨selectUbr_spec chosen, rfl⟩⟩
    · cases unlinked

open AtmSoftSar

theorem linked_of_unlinked (unlinked : round s = .unlinked s') : s'.linked + 1 = s.linked := by
  obtain ⟨v, tx, -, ⟨waits, rfl⟩ | ⟨waits, rfl⟩⟩ := round_unlinked unlinked
  · have shorter := length_erase_of_mem waits
    have some_entry := length_pos_of_mem waits
    simp only [linked, unlinkShaped, setVc]
    omega
  · have shorter := length_erase_of_mem waits
    have some_entry := length_pos_of_mem waits
    simp only [linked, unlinkUbr, setVc]
    omega

theorem txLoop_fuel {rounds : Nat} (enough : s.linked < rounds) :
    txLoop rounds s = txLoop (s.linked + 1) s := by
  induction rounds generalizing s with
  | zero => exact absurd enough (Nat.not_lt_zero _)
  | succ rounds ih =>
    rw [txLoop, txLoop]
    split
    · rfl
    · rename_i s' unlinked
      have fewer := linked_of_unlinked unlinked
      rw [ih (by omega), fewer]
    · rfl

end Rounds

end EchoLife.SoftSar
