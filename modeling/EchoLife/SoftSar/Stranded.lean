import EchoLife.SoftSar.Calls

/-!
# No packet is stranded

A channel is asked for cells only while it is on a waiting list. `Orderly` says that a channel on
no list has nothing to send, which every call keeps (`Orderly.step`) if packets have at least one
buffer. `Rounds` is the loop of `atmLayerGetNextTxCell`, and `rounds_txLoop` says that it ends
after as many rounds as `no_packet_stranded` states.
-/

namespace EchoLife.SoftSar

open List AtmSoftSar

open Aal5 (TxState Steady atmAal5VcTxFlush takeHighest maxTxPriorities txCell_cases steady_vcInit
  takeHighest_eq_none_iff)
open History

/-! ## Nothing to send -/

structure NothingToSend (tx : TxState) : Prop where
  noPacket : tx.pTxPacket = none
  noneWaits : ∀ queue ∈ tx.dlistTxWaiting, queue = []
  noPad : tx.bTxPadNext = false

structure Orderly (s : AtmSoftSar) : Prop where
  linkage : Linkage s
  steady : ∀ v, Steady (s.tx v)
  unlinked : ∀ v, ¬ s.entryLinked v → NothingToSend (s.tx v)

def SarCall.HasBuffer : SarCall → Prop
  | .tx (.call (.addPkt _ _ packet)) => packet ≠ []
  | _ => True

section Step

variable {s s' : AtmSoftSar} {v : Nat}

theorem nothingToSend_vcInit (tx : TxState) : NothingToSend tx.vcInit :=
  ⟨rfl, fun _ mem => eq_of_mem_replicate mem, rfl⟩

theorem nothingToSend_txFlush (tx : TxState) : NothingToSend (atmAal5VcTxFlush tx) :=
  nothingToSend_vcInit _

theorem steady_pools {tx : TxState} (steady : Steady tx) (frames buffers : Nat) :
    Steady { tx with txFrameList := frames, txBufferList := buffers } :=
  ⟨steady.lists, ⟨steady.consistent.noBytes, steady.consistent.fresh⟩, steady.window,
    steady.buffers⟩

theorem channel_step {act : ChannelAct} (steady : Steady (s.tx v))
    (unlinked : ¬ s.entryLinked v → NothingToSend (s.tx v))
    (buffer : ∀ ulPri packet, act = .queued ulPri packet → packet ≠ [])
    (step : ChannelStep s s' v act) :
    Steady (s'.tx v) ∧ (¬ s'.entryLinked v → NothingToSend (s'.tx v)) := by
  cases step with
  | kept same linked
  | passedOver same linked => exact same ▸ ⟨steady, fun gone => unlinked (mt linked.mpr gone)⟩
  | @queued packet ulPri inside _ _ after links =>
    rw [after]
    refine ⟨(steady_pools steady _ _).enqueue inside (buffer ulPri packet rfl), ?_⟩
    exact fun gone => absurd links gone
  | @sent vc cell _ made stays =>
    have next := steady.txCell vc
    rw [made] at next
    exact ⟨next, fun gone => absurd stays gone⟩
  | @unlinked vc _ made =>
    have next := steady.txCell vc
    rw [made] at next
    refine ⟨next, fun _ => ?_⟩
    rcases txCell_cases vc steady with ⟨between, none_waits, idle⟩ | ⟨cell, tx, made', -⟩
    · have after : s'.tx v = { s.tx v with pTxCellBuffer := [], currHighSubPri := 0 } :=
        (Prod.mk.inj (made.symm.trans idle)).2
      rw [after]
      exact ⟨between.idle, takeHighest_eq_none_iff.mp none_waits, between.noPad⟩
    · exact absurd (Prod.mk.inj (made.symm.trans made')).1 nofun
  | flushed after =>
    rw [after]
    exact ⟨steady_vcInit _, fun _ => nothingToSend_txFlush (s.tx v)⟩
  | created _ after =>
    rw [after]
    exact ⟨steady_vcInit _, fun _ => nothingToSend_vcInit _⟩
  | closed after =>
    rw [after]
    refine ⟨steady_pools (steady_vcInit _) 0 0, fun _ => ?_⟩
    obtain ⟨noPacket, noneWaits, noPad⟩ := nothingToSend_txFlush (s.tx v)
    exact ⟨noPacket, noneWaits, noPad⟩

theorem act_hasBuffer {c : SarCall} (buffer : c.HasBuffer) {ulPri : Nat} {packet : Aal5.Packet}
    (queued : s.act c v = .queued ulPri packet) : packet ≠ [] := by
  cases c with
  | tx c =>
    cases c with
    | call c =>
      cases c with
      | addPkt ucVcid ucSendPriority packet' =>
        rw [act] at queued
        split at queued
        · cases queued
          exact buffer
        · cases queued
      | getNextTxCell => cases queued
      | timer => cases queued
    | txFlush =>
      rw [act] at queued
      split at queued <;> cases queued
  | setShapingValues => cases queued
  | createVc | destroyVc =>
    rw [act] at queued
    split at queued <;> cases queued

theorem Orderly.step (orderly : Orderly s) {c : SarCall} (buffer : c.HasBuffer) :
    Orderly (sarStep s c).2 := by
  obtain ⟨linkage, steps⟩ := acts_sarStep orderly.linkage c
  have channels (v : Nat) := channel_step (orderly.steady v) (orderly.unlinked v)
    (fun _ _ => act_hasBuffer buffer) (steps v)
  exact ⟨linkage, fun v => (channels v).1, fun v => (channels v).2⟩

theorem orderly_atmLayerInit (cpuTick : Int) (connectRate cellTicks : Nat) :
    Orderly (atmLayerInit cpuTick connectRate cellTicks) :=
  ⟨linkage_atmLayerInit cpuTick connectRate cellTicks, fun _ => steady_vcInit Aal5.atmAal5VcInit,
    fun _ _ => nothingToSend_vcInit Aal5.atmAal5VcInit⟩

end Step

/-! ## The loop -/

inductive Rounds : AtmSoftSar → Nat → Option Emitted × AtmSoftSar → Prop where
  | sent {s s' : AtmSoftSar} {v : Nat} {cell : Aal5.Cell} (sent : round s = .sent v cell s') :
      Rounds s 1 (some (.data v cell), s')
  | nothing {s : AtmSoftSar} (nothing : round s = .nothing) : Rounds s 1 (none, s)
  | unlinked {s s' : AtmSoftSar} {n : Nat} {out : Option Emitted × AtmSoftSar}
      (unlinked : round s = .unlinked s') (rest : Rounds s' n out) : Rounds s (n + 1) out

theorem rounds_txLoop (s : AtmSoftSar) :
    ∃ n ≤ s.linked + 1, Rounds s n (txLoop (s.linked + 1) s) := by
  -- a round that goes on takes an entry off the lists
  induction entries : s.linked generalizing s with
  | zero =>
    rw [txLoop]
    split
    next sent => exact ⟨1, le_rfl, .sent sent⟩
    next unlinked =>
      have fewer := linked_of_unlinked unlinked
      omega
    next nothing => exact ⟨1, le_rfl, .nothing nothing⟩
  | succ entries ih =>
    rw [txLoop]
    split
    next sent => exact ⟨1, by omega, .sent sent⟩
    next s' unlinked =>
      have fewer := linked_of_unlinked unlinked
      obtain ⟨n, most, rounds⟩ := ih s' (by omega)
      exact ⟨n + 1, Nat.succ_le_succ most, .unlinked unlinked rounds⟩
    next nothing => exact ⟨1, by omega, .nothing nothing⟩

def AtmSoftSar.linkedVcs (s : AtmSoftSar) : Finset Nat :=
  (s.dlistTxVcWaiting ++ s.dlistTxVcUbrWaiting).toFinset

theorem Linkage.card_linkedVcs {s : AtmSoftSar} (linkage : Linkage s) :
    s.linkedVcs.card = s.linked := by
  rw [linkedVcs, toFinset_card_of_nodup linkage.nodup, length_append]
  rfl

/-- **No packet is stranded.** After every run whose packets have a buffer, a channel on no waiting
list has nothing to send, and the loop of the next cell ends within one round more than there are
channels on the lists. -/
theorem no_packet_stranded (cpuTick : Int) (connectRate cellTicks : Nat) (calls : List SarCall)
    (buffers : ∀ c ∈ calls, c.HasBuffer) :
    let s := final sarStep (atmLayerInit cpuTick connectRate cellTicks) calls
    (∀ v, ¬ s.entryLinked v → NothingToSend (s.tx v)) ∧
      ∃ n ≤ s.linkedVcs.card + 1, Rounds s n (txLoop (s.linked + 1) s) := by
  intro s
  have orderly : Orderly s := by
    refine holds_final (I := Orderly) (orderly_atmLayerInit cpuTick connectRate cellTicks)
      fun t mem before => ?_
    have after : (sarStep t.before t.call).2 = t.after := by rw [step_of_mem mem]
    exact after ▸ before.step (buffers t.call (call_mem mem))
  refine ⟨orderly.unlinked, ?_⟩
  rw [orderly.linkage.card_linkedVcs]
  exact rounds_txLoop s

/-- A channel that is created and gets a packet, which then waits on the list. -/
theorem no_packet_stranded_onePacket :
    let s := final sarStep (atmLayerInit 0 1200000 42400)
      [.createVc 0 0 5 1 4 ⟨.noClpNoScr, 0, 0, 0, .cbr⟩, .tx (.call (.addPkt 0 1 [[7]]))]
    s.linkedVcs = {0} ∧ NothingToSend (s.tx 1) ∧
      ∃ n ≤ 2, Rounds s n (txLoop (s.linked + 1) s) := by
  intro s
  have run := no_packet_stranded 0 1200000 42400
    [.createVc 0 0 5 1 4 ⟨.noClpNoScr, 0, 0, 0, .cbr⟩, .tx (.call (.addPkt 0 1 [[7]]))]
    (by simp [SarCall.HasBuffer])
  have one : s.linkedVcs = {0} := by decide
  refine ⟨one, run.1 1 (by decide), ?_⟩
  have bound := run.2
  rwa [show AtmSoftSar.linkedVcs (final sarStep (atmLayerInit 0 1200000 42400) _) = {0} from one]
    at bound

end EchoLife.SoftSar
