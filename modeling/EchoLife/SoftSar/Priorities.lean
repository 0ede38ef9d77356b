import EchoLife.SoftSar.Stranded

/-!
# Priorities

The scheduler reads the priority of packets from `currHighSubPri`, which is raised when a packet is
queued and set when the next one is taken. A cell comes from a channel of the highest rank by the
values that are read (`txLoop_rank`), and `cached_run` compares these with the packets that are
really left. So `priority_respected` needs that the value of the sending channel is up to date; in
`priority_inverted` it is not.
-/

namespace EchoLife.SoftSar

open List AtmSoftSar

open Aal5 (Cell Packet TxState Steady Cached CellStep sendingAfter txCell_cases highestWaiting
  highestWaiting_eq_none_iff takeHighest takeHighest_eq_none_iff maxTxPriorities)
open History

/-! ## Ranks -/

def AtmSoftSar.rank (s : AtmSoftSar) (v : Nat) : Int ×ₗ Int :=
  toLex ((s.vcTable v).txTrafficParams.priority, ((s.tx v).currHighSubPri : Int))

def Best.rank (best : Best) : Int ×ₗ Int := toLex (best.tDiffPri, best.tDiffSubPri)

section Choice

variable {s s' : AtmSoftSar} {v w : Nat} {cell : Cell}

theorem rank_considerShaped (s : AtmSoftSar) (best : Best) (v : Nat) :
    best.rank ≤ (considerShaped s best v).rank ∧
      ((s.vcTable v).Conforms s.timeCurrent → s.rank v ≤ (considerShaped s best v).rank) := by
  simp only [considerShaped, Best.rank, rank, tx, Prod.Lex.toLex_le_toLex]
  split
  next conforms =>
    split
    next better =>
      dsimp only
      refine ⟨?_, fun _ => .inr ⟨rfl, le_rfl⟩⟩
      omega
    next worse =>
      refine ⟨.inr ⟨rfl, le_rfl⟩, fun _ => ?_⟩
      omega
  next fails => exact ⟨.inr ⟨rfl, le_rfl⟩, fun conforms => absurd conforms fails⟩

theorem foldl_considerShaped_rank (vs : List Nat) (best : Best) :
    best.rank ≤ (vs.foldl (considerShaped s) best).rank ∧
      ∀ w ∈ vs, (s.vcTable w).Conforms s.timeCurrent →
        s.rank w ≤ (vs.foldl (considerShaped s) best).rank := by
  induction vs generalizing best with
  | nil => exact ⟨le_rfl, fun w mem => absurd mem not_mem_nil⟩
  | cons u vs ih =>
    obtain ⟨kept, considered⟩ := rank_considerShaped s best u
    obtain ⟨later, others⟩ := ih (considerShaped s best u)
    rw [foldl_cons]
    refine ⟨kept.trans later, fun w mem conforms => ?_⟩
    rcases mem_cons.mp mem with rfl | mem
    · exact (considered conforms).trans later
    · exact others w mem conforms

theorem foldl_considerShaped_chosen (vs : List Nat) (best : Best)
    (start : ∀ w, best.vc0 = some w → best.rank = s.rank w)
    (chosen : (vs.foldl (considerShaped s) best).vc0 = some v) :
    (vs.foldl (considerShaped s) best).rank = s.rank v := by
  induction vs generalizing best with
  | nil => exact start v chosen
  | cons u vs ih =>
    refine ih (considerShaped s best u) (fun w before => ?_) chosen
    rw [considerShaped] at before ⊢
    split at before
    next conforms =>
      rw [if_pos conforms]
      split at before
      next better =>
        rw [if_pos better]
        cases before
        rfl
      next worse =>
        rw [if_neg worse]
        exact start w before
    next fails =>
      rw [if_neg fails]
      exact start w before

theorem selectShaped_rank (chosen : selectShaped s = some v) (waits : w ∈ s.dlistTxVcWaiting)
    (conforms : (s.vcTable w).Conforms s.timeCurrent) : s.rank w ≤ s.rank v := by
  rw [← foldl_considerShaped_chosen _ _ (by rintro w ⟨⟩) chosen]
  exact (foldl_considerShaped_rank _ _).2 w waits conforms

theorem round_sent_shaped (sent : round s = .sent v cell s') (absent : v ∉ s.dlistTxVcUbrWaiting) :
    selectShaped s = some v := by
  rw [round] at sent
  split at sent
  next w chosen =>
    split at sent
    · cases sent
      exact chosen
    · cases sent
  next =>
    split at sent
    next w chosen =>
      split at sent
      · cases sent
        exact absurd (selectUbr_spec chosen) absent
      · cases sent
    next => cases sent

/-- **A cell comes from a channel of the highest rank** among the shaped ones that may send a cell
and have one. -/
theorem txLoop_rank (rounds : Nat) (s : AtmSoftSar)
    (nodup : (s.dlistTxVcWaiting ++ s.dlistTxVcUbrWaiting).Nodup)
    (emits : (txLoop rounds s).1 = some (.data v cell)) (absent : v ∉ s.dlistTxVcUbrWaiting)
    (waits : w ∈ s.dlistTxVcWaiting) (conforms : (s.vcTable w).Conforms s.timeCurrent)
    (hasCell : (s.txCell w).1 ≠ none) : v ∈ s.dlistTxVcWaiting ∧ s.rank w ≤ s.rank v := by
  induction rounds generalizing s with
  | zero => cases emits
  | succ rounds ih =>
    rw [txLoop] at emits
    split at emits
    next u cell' s' sent =>
      cases emits
      have chosen := round_sent_shaped sent absent
      exact ⟨(selectShaped_spec chosen).1, selectShaped_rank chosen waits conforms⟩
    next t unlinked =>
      obtain ⟨⟨u, dropped⟩, books, nodup'⟩ := dropped_unlinked nodup unlinked
      have other : w ≠ u := by
        rintro rfl
        rw [dropped.made] at hasCell
        exact hasCell rfl
      have table := dropped.table w other
      -- the channel that sends is still linked, so it is not the one that was dropped
      have sends : v ≠ u := by
        rintro rfl
        refine dropped.gone (.inl ?_)
        refine (ih t nodup' emits ?_ ((dropped.shaped w other).mpr waits) ?_ ?_).1
        · exact fun listed => dropped.gone (.inr listed)
        · rw [table, books.time]
          exact conforms
        · rw [txCell, table]
          exact hasCell
      obtain ⟨waits', le⟩ := ih t nodup' emits (mt (dropped.ubr v sends).mp absent)
        ((dropped.shaped w other).mpr waits)
        (by rw [table, books.time]; exact conforms)
        (by rw [txCell, table]; exact hasCell)
      refine ⟨(dropped.shaped v sends).mp waits', ?_⟩
      simp only [rank, tx, table, dropped.table v sends] at le
      exact le
    next => cases emits

theorem getNextTxCell_data (emits : (atmLayerGetNextTxCell s).1 = some (.data v cell)) :
    (txLoop (s.linked + 1) s).1 = some (.data v cell) := by
  rw [atmLayerGetNextTxCell] at emits
  split at emits
  · grind
  · cases emits

end Choice

/-! ## The packets that are left -/

def sendingOf (v : Nat) (run : List (Transition AtmSoftSar SarCall (Option Emitted))) :
    Option Nat :=
  run.foldl (fun sending t => sendingAfter (t.before.tx v) (t.after.tx v) sending) none

def unsentOf (cpuTick : Int) (connectRate cellTicks : Nat) (calls : List SarCall) (v : Nat) :
    Option Nat :=
  ((final sarStep (atmLayerInit cpuTick connectRate cellTicks) calls).tx v).unsent
    (sendingOf v (history sarStep (atmLayerInit cpuTick connectRate cellTicks) calls))

section Packets

variable {s s' : AtmSoftSar} {v : Nat} {sending : Option Nat}

theorem cached_step {act : ChannelAct} (steady : Steady (s.tx v)) (cached : Cached (s.tx v) sending)
    (step : ChannelStep s s' v act) :
    Cached (s'.tx v) (sendingAfter (s.tx v) (s'.tx v) sending) := by
  cases step with
  | kept same | passedOver same =>
    rw [same]
    exact cached.next id rfl rfl
  | @queued packet ulPri inside _ _ after =>
    have reserved : Cached { s.tx v with
        txFrameList := (s.tx v).txFrameList - 1
        txBufferList := (s.tx v).txBufferList - packet.length } sending :=
      ⟨cached.idle, cached.upper, cached.busy⟩
    rw [after]
    exact reserved.enqueue (steady.lists.symm ▸ inside)
  | @sent vc cell _ made =>
    rcases txCell_cases vc steady with ⟨-, -, none_made⟩ | ⟨cell', tx, made', step, -⟩
    · exact absurd (Prod.mk.inj (made.symm.trans none_made)).1 nofun
    · rw [(Prod.mk.inj (made.symm.trans made')).2]
      exact cached.cell step
  | @unlinked vc _ made =>
    rcases txCell_cases vc steady with ⟨between, empty, none_made⟩ | ⟨cell', tx, made', -⟩
    · rw [(Prod.mk.inj (made.symm.trans none_made)).2]
      exact .emptied ⟨between.idle, between.noPad⟩ (takeHighest_eq_none_iff.mp empty)
    · exact absurd (Prod.mk.inj (made.symm.trans made')).1 nofun
  | flushed after | closed after =>
    rw [after]
    exact .emptied ⟨rfl, rfl⟩ (nothingToSend_txFlush (s.tx v)).noneWaits
  | created _ after =>
    rw [after]
    exact .emptied ⟨rfl, rfl⟩ (nothingToSend_vcInit _).noneWaits

theorem cached_run (cpuTick : Int) (connectRate cellTicks : Nat) (calls : List SarCall)
    (buffers : ∀ c ∈ calls, c.HasBuffer) (v : Nat) :
    let s := final sarStep (atmLayerInit cpuTick connectRate cellTicks) calls
    Orderly s ∧ Cached (s.tx v)
      (sendingOf v (history sarStep (atmLayerInit cpuTick connectRate cellTicks) calls)) := by
  refine folded_final (I := fun s sending => Orderly s ∧ Cached (s.tx v) sending) _ ?_
    fun t mem sending ⟨orderly, cached⟩ => ?_
  · refine ⟨orderly_atmLayerInit cpuTick connectRate cellTicks, ?_⟩
    exact ⟨iff_of_true rfl ⟨rfl, rfl⟩, nofun, nofun⟩
  · have after : (sarStep t.before t.call).2 = t.after := by rw [step_of_mem mem]
    have steps := (acts_sarStep orderly.linkage t.call).2 v
    rw [after] at steps
    exact ⟨after ▸ orderly.step (buffers t.call (call_mem mem)),
      cached_step (orderly.steady v) cached steps⟩

theorem hasCell_of_unsent {tx : TxState} (steady : Steady tx) (cached : Cached tx sending)
    {priority : Nat} (unsent : tx.unsent sending = some priority) (vc : Aal5.VcParams) :
    (Aal5.atmAal5TxCell vc tx).1 ≠ none := by
  rcases txCell_cases vc steady with ⟨between, empty, -⟩ | ⟨cell, tx', made, -⟩
  · have none_sent : sending = none := cached.idle.mpr ⟨between.idle, between.noPad⟩
    rw [none_sent, TxState.unsent,
      highestWaiting_eq_none_iff.mpr (takeHighest_eq_none_iff.mp empty)] at unsent
    cases unsent
  · rw [made]
    exact Option.some_ne_none _

end Packets

/-! ## The result -/

def AtmSoftSar.Shaped (s : AtmSoftSar) (v : Nat) : Prop :=
  (s.vcTable v).txTrafficParams.serviceType ≠ .ubrNoPcr

instance (s : AtmSoftSar) (v : Nat) : Decidable (s.Shaped v) := inferInstanceAs (Decidable (¬ _))

/-- **Priorities are respected** by a channel whose packet priority is up to date. In every run
whose packets have a buffer, when a cell of a shaped channel is sent, no shaped channel that may
send and has a packet left is before it, by the priority of the service and then by the highest
priority of the packets that are not completely sent. -/
theorem priority_respected (cpuTick : Int) (connectRate cellTicks : Nat) (calls : List SarCall)
    (buffers : ∀ c ∈ calls, c.HasBuffer) (v : Nat) (cell : Cell) (s : AtmSoftSar)
    (reached : s = final sarStep (atmLayerInit cpuTick connectRate cellTicks) calls)
    (emits : (atmLayerGetNextTxCell s).1 = some (.data v cell)) (shaped : s.Shaped v)
    (listed : ∀ w ∈ s.dlistTxVcUbrWaiting, ¬ s.Shaped w)
    (fresh : unsentOf cpuTick connectRate cellTicks calls v = some (s.tx v).currHighSubPri)
    (w priority : Nat) (competes : s.Shaped w)
    (conforms : (s.vcTable w).Conforms s.timeCurrent)
    (left : unsentOf cpuTick connectRate cellTicks calls w = some priority) :
    ∃ highest, unsentOf cpuTick connectRate cellTicks calls v = some highest ∧
      toLex ((s.vcTable w).txTrafficParams.priority, (priority : Int)) ≤
        toLex ((s.vcTable v).txTrafficParams.priority, (highest : Int)) := by
  obtain ⟨orderly, cached⟩ := cached_run cpuTick connectRate cellTicks calls buffers w
  rw [unsentOf] at left
  rw [← reached] at orderly cached left
  have waits : w ∈ s.dlistTxVcWaiting := by
    have linked : s.entryLinked w := by
      by_contra gone
      obtain ⟨noPacket, noneWaits, noPad⟩ := orderly.unlinked w gone
      rw [cached.idle.mpr ⟨noPacket, noPad⟩, TxState.unsent,
        highestWaiting_eq_none_iff.mpr noneWaits] at left
      cases left
    exact linked.resolve_right fun free => listed w free competes
  have rank := (txLoop_rank (s.linked + 1) s orderly.linkage.nodup (getNextTxCell_data emits)
    (fun free => listed v free shaped) waits conforms
    (hasCell_of_unsent (orderly.steady w) cached left _)).2
  have lower : priority ≤ (s.tx w).currHighSubPri := cached.upper priority left
  refine ⟨(s.tx v).currHighSubPri, fresh, le_trans ?_ rank⟩
  rw [AtmSoftSar.rank, Prod.Lex.toLex_le_toLex]
  exact .inr ⟨rfl, Int.ofNat_le.mpr lower⟩

/-! ## A packet that goes ahead -/

theorem data_of_cellsOf {v : Nat} {out : Option Emitted} (one : cellsOf v out = 1) :
    ∃ cell, out = some (.data v cell) := by
  rcases out with - | cell | ⟨w, cell⟩ | -
  · cases one
  · cases one
  · by_cases same : w = v
    · exact ⟨cell, same ▸ rfl⟩
    · rw [cellsOf, if_neg same] at one
      cases one
  · cases one

def constantRate : TrafficDescrParmEntry := ⟨.noClpNoScr, 0, 0, 0, .cbr⟩

def threePackets : List SarCall :=
  [.createVc 0 0 5 2 4 constantRate, .createVc 1 1 6 2 4 constantRate,
    .tx (.call (.addPkt 0 4 [[7]])), .tx (.call (.addPkt 0 1 [[8]])),
    .tx (.call (.addPkt 1 3 [[9]])), .tx (.call (.timer 0 1))]

def waitingSar : AtmSoftSar := final sarStep (atmLayerInit 0 1200000 42400) threePackets

theorem threePackets_hasBuffer : ∀ c ∈ threePackets, c.HasBuffer := by
  simp [threePackets, SarCall.HasBuffer]

set_option maxRecDepth 100000 in
/-- The first cell comes from the channel whose packet has the highest priority. -/
theorem priority_respected_first :
    ∃ cell, (atmLayerGetNextTxCell waitingSar).1 = some (.data 0 cell) ∧
      unsentOf 0 1200000 42400 threePackets 1 = some 2 ∧
      ∃ highest, unsentOf 0 1200000 42400 threePackets 0 = some highest ∧
        toLex ((waitingSar.vcTable 1).txTrafficParams.priority, (2 : Int)) ≤
          toLex ((waitingSar.vcTable 0).txTrafficParams.priority, (highest : Int)) := by
  have sent : cellsOf 0 (atmLayerGetNextTxCell waitingSar).1 = 1 := by cbv
  obtain ⟨cell, out⟩ := data_of_cellsOf sent
  refine ⟨cell, out, by decide, ?_⟩
  exact priority_respected 0 1200000 42400 threePackets threePackets_hasBuffer 0 cell waitingSar rfl
    out (by decide) (by decide) (by decide) 1 2 (by decide) (by decide) (by decide)

def servedSar : AtmSoftSar :=
  final sarStep (atmLayerInit 0 1200000 42400) (threePackets ++ [.tx (.call .getNextTxCell)])

section Served

set_option maxRecDepth 100000

theorem servedSar_sends : cellsOf 0 (atmLayerGetNextTxCell servedSar).1 = 1 := by cbv

theorem servedSar_first : (servedSar.vcTable 0).txTrafficParams = ⟨.cbr, 0, 0, 0, 12⟩ := by cbv

theorem servedSar_second :
    (servedSar.vcTable 1).shaping = (⟨.cbr, 0, 0, 0, 12⟩, 0, 0) := by cbv

theorem servedSar_time : servedSar.timeCurrent = 42400 := by cbv

theorem servedSar_ubrList : servedSar.dlistTxVcUbrWaiting = [] := by cbv

theorem unsentOf_first :
    unsentOf 0 1200000 42400 (threePackets ++ [.tx (.call .getNextTxCell)]) 0 = some 0 := by cbv

theorem unsentOf_second :
    unsentOf 0 1200000 42400 (threePackets ++ [.tx (.call .getNextTxCell)]) 1 = some 2 := by cbv

end Served

/-- **A packet of the lowest priority goes ahead.** After the first cell both channels may send and
have the same service. The first one has a packet of priority 0 left, the second one a packet of
priority 2, and the next cell comes from the first. -/
theorem priority_inverted :
    let calls := threePackets ++ [.tx (.call .getNextTxCell)]
    let s := final sarStep (atmLayerInit 0 1200000 42400) calls
    (∀ c ∈ calls, c.HasBuffer) ∧ (∃ cell, (atmLayerGetNextTxCell s).1 = some (.data 0 cell)) ∧
      s.Shaped 0 ∧ s.Shaped 1 ∧ s.dlistTxVcUbrWaiting = [] ∧
      (s.vcTable 1).Conforms s.timeCurrent ∧
      unsentOf 0 1200000 42400 calls 0 = some 0 ∧ unsentOf 0 1200000 42400 calls 1 = some 2 ∧
      ¬ toLex ((s.vcTable 1).txTrafficParams.priority, (2 : Int)) ≤
        toLex ((s.vcTable 0).txTrafficParams.priority, (0 : Int)) := by
  intro calls s
  have buffers : ∀ c ∈ calls, c.HasBuffer := by
    simp [calls, threePackets, SarCall.HasBuffer]
  have first : (s.vcTable 0).txTrafficParams = _ := servedSar_first
  have second : (s.vcTable 1).shaping = _ := servedSar_second
  have time : s.timeCurrent = _ := servedSar_time
  simp only [VcState.shaping, Prod.mk.injEq] at second
  refine ⟨buffers, data_of_cellsOf servedSar_sends, ?_, ?_, servedSar_ubrList, ?_,
    unsentOf_first, unsentOf_second, ?_⟩
  · rw [AtmSoftSar.Shaped, first]
    decide
  · rw [AtmSoftSar.Shaped, second.1]
    decide
  · simp only [VcState.Conforms, VcState.tmPcr, VcState.tmScr, second, time]
    decide
  · rw [first, second.1]
    decide

end EchoLife.SoftSar
