import EchoLife.Aal5.Format

/-!
# Packets on a channel

`Packets` is a channel as far as its packets go, without the bytes in them. `txCell_cases` says
what one cell does to them, and `Cached` relates the priority that the scheduler reads to that of
the packets that are really left: it may be too high when a packet has just ended. A channel never
loses a packet (`releases_txCell`, `releases_txFlush`).
-/

namespace EchoLife.Aal5

open List Option TxState

/-! ## The next packet -/

variable {priority : Nat}

section Waiting

variable {waiting rest : List (List Packet)} {packet : Packet}

theorem takeHighest_eq_none_iff : takeHighest waiting = none ↔ ∀ queue ∈ waiting, queue = [] := by
  induction waiting with
  | nil => simp [takeHighest]
  | cons queue higher ih =>
    unfold takeHighest
    rcases found : takeHighest higher with _ | ⟨packet, higher'⟩
    · have empty := ih.mp found
      cases queue with
      | nil => simpa using empty
      | cons packet queue => simp
    · have some_queue := mt ih.mpr (by simp [found])
      simp only [reduceCtorEq, mem_cons, forall_eq_or_imp, false_iff, not_and]
      exact fun _ => some_queue

section

variable (took : takeHighest waiting = some (packet, rest))
include took

theorem takeHighest_perm : waiting.flatten.Perm (packet :: rest.flatten) := by
  induction waiting generalizing rest with
  | nil => cases took
  | cons queue higher ih =>
    unfold takeHighest at took
    split at took
    next packet' higher' found =>
      cases took
      exact ((ih found).append_left queue).trans perm_middle
    next found =>
      split at took
      next => cases took
      next packet' queue' =>
        cases took
        exact .rfl

theorem takeHighest_sublist (i : Nat) : (rest.getD i []).Sublist (waiting.getD i []) := by
  induction waiting generalizing rest i with
  | nil => cases took
  | cons queue higher ih =>
    unfold takeHighest at took
    split at took
    next packet' higher' found =>
      cases took
      cases i with
      | zero => exact Sublist.refl _
      | succ i => exact ih found i
    next found =>
      split at took
      next => cases took
      next packet' queue' =>
        cases took
        cases i with
        | zero => exact sublist_cons_self ..
        | succ i => exact Sublist.refl _

theorem length_takeHighest : rest.length = waiting.length := by
  induction waiting generalizing rest with
  | nil => cases took
  | cons queue higher ih =>
    unfold takeHighest at took
    split at took
    next packet' higher' found =>
      cases took
      exact congrArg (· + 1) (ih found)
    next found =>
      split at took
      next => cases took
      next packet' queue' =>
        cases took
        rfl

end

theorem le_highestWaiting {i : Nat} (waits : waiting.getD i [] ≠ []) :
    ∃ priority, highestWaiting waiting = some priority ∧ i ≤ priority := by
  induction waiting generalizing i with
  | nil => exact absurd rfl waits
  | cons queue higher ih =>
    rw [highestWaiting]
    cases i with
    | zero =>
      rcases highestWaiting higher with _ | priority
      · have some_packet : ¬ queue.isEmpty := fun empty => waits (isEmpty_iff.mp empty)
        exact ⟨0, if_neg some_packet, le_rfl⟩
      · exact ⟨priority + 1, rfl, Nat.zero_le _⟩
    | succ i =>
      obtain ⟨priority, found, most⟩ := ih waits
      rw [found]
      exact ⟨priority + 1, rfl, Nat.succ_le_succ most⟩

theorem waits_highestWaiting (highest : highestWaiting waiting = some priority) :
    waiting.getD priority [] ≠ [] := by
  induction waiting generalizing priority with
  | nil => cases highest
  | cons queue higher ih =>
    rw [highestWaiting] at highest
    split at highest
    next priority' found =>
      cases highest
      exact ih found
    next found =>
      split at highest
      next => cases highest
      next some_packet =>
        cases highest
        exact fun empty => some_packet (isEmpty_iff.mpr empty)

theorem highestWaiting_eq_none_iff :
    highestWaiting waiting = none ↔ ∀ queue ∈ waiting, queue = [] := by
  induction waiting with
  | nil => simp [highestWaiting]
  | cons queue higher ih =>
    rw [highestWaiting, forall_mem_cons, ← ih]
    cases highestWaiting higher with
    | none => simp
    | some priority => simp

theorem highestWaiting_took (took : takeHighest waiting = some (packet, rest)) :
    ∃ priority, highestWaiting waiting = some priority ∧
      (highestWaiting rest).getD 0 ≤ priority := by
  cases highest : highestWaiting waiting with
  | none =>
    rw [takeHighest_eq_none_iff.mpr (highestWaiting_eq_none_iff.mp highest)] at took
    cases took
  | some priority =>
    refine ⟨priority, rfl, ?_⟩
    cases next : highestWaiting rest with
    | none => exact Nat.zero_le _
    | some lower =>
      have waits : waiting.getD lower [] ≠ [] := by
        intro empty
        have fewer := takeHighest_sublist took lower
        rw [empty] at fewer
        exact waits_highestWaiting next (sublist_nil.mp fewer)
      obtain ⟨priority', found, most⟩ := le_highestWaiting waits
      rw [highest] at found
      cases found
      exact most

theorem highestWaiting_modify (inside : priority < waiting.length) :
    highestWaiting (waiting.modify priority (· ++ [packet])) =
      some (max priority ((highestWaiting waiting).getD 0)) := by
  induction waiting generalizing priority with
  | nil => exact absurd inside (Nat.not_lt_zero _)
  | cons queue higher ih =>
    cases priority with
    | zero =>
      rw [modify_zero_cons, highestWaiting, highestWaiting]
      cases highestWaiting higher with
      | none => cases queue <;> simp
      | some priority => simp
    | succ priority =>
      rw [modify_succ_cons, highestWaiting, highestWaiting,
        ih (Nat.lt_of_succ_lt_succ inside)]
      cases highestWaiting higher with
      | none => cases queue <;> simp
      | some priority' => simp [Nat.succ_max_succ]

end Waiting

/-! ## Packets -/

structure Packets where
  account : Account
  inHand : Option Packet
  highSubPri : Nat
  deriving Repr, DecidableEq

def TxState.packets (s : TxState) : Packets := ⟨s.account, s.pTxPacket, s.currHighSubPri⟩

def TxState.Idle (s : TxState) : Prop := s.pTxPacket = none ∧ s.bTxPadNext = false

instance (s : TxState) : Decidable s.Idle := inferInstanceAs (Decidable (_ ∧ _))

def Packets.take (p : Packets) (packet : Packet) (rest : List (List Packet)) : Packets where
  account := { p.account with waiting := rest }
  inHand := some packet
  highSubPri := (highestWaiting p.account.waiting).getD 0

def Packets.complete (p : Packets) (packet : Packet) : Packets :=
  { p with account := p.account.complete packet, inHand := none }

structure Steady (s : TxState) : Prop where
  lists : s.dlistTxWaiting.length = maxTxPriorities
  consistent : Consistent s
  window : s.dataLeft ≤ s.pTxCellData.length
  buffers : ∀ packet ∈ s.dlistTxWaiting.flatten, packet ≠ []

inductive CellStep (s s' : TxState) : Prop where
  /-- Padding and the trailer of a packet that was handed back or cut. -/
  | pad (due : s.bTxPadNext = true) (same : s'.packets = s.packets) (ended : s'.bTxPadNext = false)
  | middle {packet : Packet} (noPad : s.bTxPadNext = false) (inHand : s.pTxPacket = some packet)
      (same : s'.packets = s.packets)
  | last {packet : Packet} (noPad : s.bTxPadNext = false) (inHand : s.pTxPacket = some packet)
      (same : s'.packets = s.packets.complete packet)
  | first {packet : Packet} {rest : List (List Packet)} (noPad : s.bTxPadNext = false)
      (idle : s.pTxPacket = none) (took : takeHighest s.dlistTxWaiting = some (packet, rest))
      (same : s'.packets = s.packets.take packet rest)
  | only {packet : Packet} {rest : List (List Packet)} (noPad : s.bTxPadNext = false)
      (idle : s.pTxPacket = none) (took : takeHighest s.dlistTxWaiting = some (packet, rest))
      (same : s'.packets = (s.packets.take packet rest).complete packet)

section Cell

variable (vc : VcParams) {s : TxState} {packet : Packet}

theorem packets_completePDU (s : TxState) (data : List UInt8) :
    (atmAal5TxCompletePDU vc s data).2.packets = s.packets := by
  rcases completePDU_cases vc s data with ⟨crc, padded⟩ | trailer
  · rw [padded]
    rfl
  · rw [trailer]
    rfl

theorem window_completePDU (s : TxState) (data : List UInt8) :
    (atmAal5TxCompletePDU vc s data).2.dataLeft = s.dataLeft ∧
      (atmAal5TxCompletePDU vc s data).2.pTxCellData = s.pTxCellData := by
  rcases completePDU_cases vc s data with ⟨crc, padded⟩ | trailer
  · rw [padded]
    exact ⟨rfl, rfl⟩
  · rw [trailer]
    exact ⟨rfl, rfl⟩

theorem window_openBuffer (s : TxState) (buffer : List UInt8) :
    (s.openBuffer buffer).dataLeft ≤ (s.openBuffer buffer).pTxCellData.length := by
  simp only [openBuffer]
  split <;> omega

theorem window_reopenBuffer (s : TxState) :
    s.reopenBuffer.dataLeft ≤ s.reopenBuffer.pTxCellData.length := by
  simp only [reopenBuffer]
  split <;> omega

theorem txCellLoop_inHand (s : TxState) (data : List UInt8)
    (window : s.dataLeft ≤ s.pTxCellData.length) (inHand : s.pTxPacket = some packet) :
    ∃ cell s', txCellLoop vc s data = (some cell, s') ∧
      s'.dataLeft ≤ s'.pTxCellData.length ∧
      (s'.packets = s.packets ∨ s'.packets = s.packets.complete packet) := by
  fun_induction txCellLoop vc s data with
  | case1 s data full => exact ⟨_, _, rfl, window, .inl rfl⟩
  | case2 s data room left cut done =>
    refine ⟨_, _, rfl, window_reopenBuffer _, .inl ?_⟩
    exact packets_completePDU vc s data
  | case3 s data room left uncut buffer rest next ih =>
    exact ih (window_openBuffer _ _) inHand
  | case4 s data room left uncut next packet' inHand' done =>
    obtain rfl : packet = packet' := some.inj (inHand.symm.trans inHand')
    have same := packets_completePDU vc
      (atmLayerSendComplete { s with pTxCellBuffer := [] } packet) data
    obtain ⟨left', data'⟩ := window_completePDU vc
      (atmLayerSendComplete { s with pTxCellBuffer := [] } packet) data
    refine ⟨_, _, rfl, ?_, .inr ?_⟩
    · show done.2.dataLeft ≤ done.2.pTxCellData.length
      rw [left', data']
      exact window
    · show { done.2.packets with inHand := none } = _
      rw [same]
      rfl
  | case5 s data room left uncut next idle sdu
  | case6 s data room left uncut next idle buffer rest sdu ih => rw [idle] at inHand; cases inHand
  | case7 s data room left b rest bytes ih =>
    refine ih ?_ inHand
    rw [bytes, length_cons] at window
    show s.dataLeft - 1 ≤ rest.length
    omega
  | case8 s data room left bytes =>
    rw [bytes, length_nil] at window
    exact absurd (Nat.le_zero.mp window) left

theorem Steady.between (steady : Steady s) (idle : s.pTxPacket = none)
    (noPad : s.bTxPadNext = false) : BetweenPackets s := by
  obtain ⟨noData, noBuffer⟩ := steady.consistent.noBytes idle
  obtain ⟨noLength, crc⟩ := steady.consistent.fresh idle noPad
  exact ⟨idle, noPad, noData, noBuffer, noLength, crc⟩

/-- **What a cell does**: nothing is in hand, waits or is due, and no cell is made; or the packets
make one step. -/
theorem txCell_cases (steady : Steady s) :
    BetweenPackets s ∧ takeHighest s.dlistTxWaiting = none ∧
        atmAal5TxCell vc s = (none, { s with pTxCellBuffer := [], currHighSubPri := 0 }) ∨
      ∃ cell s', atmAal5TxCell vc s = (some cell, s') ∧ CellStep s s' ∧
        s'.dataLeft ≤ s'.pTxCellData.length := by
  by_cases due : s.bTxPadNext = true
  · have trailer : atmAal5TxCell vc s = (some (atmAal5TxCompletePDU vc
        { s with bTxPadNext := false } []).1,
        { s with bTxPadNext := false, txLength := 0, txCrc := aal5CrcInit }) := by
      rw [atmAal5TxCell, if_pos due]
      rfl
    exact .inr ⟨_, _, trailer, .pad due rfl rfl, steady.window⟩
  have noPad : s.bTxPadNext = false := by simpa using due
  have loop : atmAal5TxCell vc s = txCellLoop vc s [] := by rw [atmAal5TxCell, if_neg due]
  rw [loop]
  cases inHand : s.pTxPacket with
  | some packet =>
    obtain ⟨cell, s', made, window, kept | done⟩ :=
      txCellLoop_inHand vc s [] steady.window inHand
    · exact .inr ⟨cell, s', made, .middle noPad inHand kept, window⟩
    · exact .inr ⟨cell, s', made, .last noPad inHand done, window⟩
  | none =>
    have between := steady.between inHand noPad
    rcases found : takeHighest s.dlistTxWaiting with _ | ⟨packet, rest⟩
    · refine .inl ⟨between, rfl, ?_⟩
      rw [← loop, ← inHand]
      exact between.noCell vc found
    · have waits : packet ∈ s.dlistTxWaiting.flatten :=
        (takeHighest_perm found).mem_iff.mpr mem_cons_self
      obtain ⟨buffer, more, rfl⟩ := exists_cons_of_ne_nil (steady.buffers packet waits)
      let started : TxState := { s with
        dlistTxWaiting := rest
        currHighSubPri := (highestWaiting s.dlistTxWaiting).getD 0
        pTxPacket := some (buffer :: more)
        pTxCellBuffer := buffer :: more }
      have start : txCellLoop vc s [] = txCellLoop vc (started.openBuffer buffer) [] :=
        txCellLoop_start (by decide) between.noData (by rw [between.noLength]; decide)
          (by rw [between.noBuffer]; rfl) inHand found
      rw [start]
      obtain ⟨cell, s', made, window, kept | done⟩ :=
        txCellLoop_inHand vc (started.openBuffer buffer) [] (window_openBuffer _ _) rfl
      · exact .inr ⟨cell, s', made, .first noPad inHand found kept, window⟩
      · exact .inr ⟨cell, s', made, .only noPad inHand found done, window⟩

theorem CellStep.waiting {s' : TxState} (step : CellStep s s') :
    s'.dlistTxWaiting = s.dlistTxWaiting ∨
      ∃ packet, takeHighest s.dlistTxWaiting = some (packet, s'.dlistTxWaiting) := by
  cases step with
  | pad _ same _ | middle _ _ same | last _ _ same => exact .inl (congrArg (·.account.waiting) same)
  | first _ _ took same | only _ _ took same =>
    have waiting : s'.dlistTxWaiting = _ := congrArg (·.account.waiting) same
    exact .inr ⟨_, took.trans (by rw [waiting]; rfl)⟩

/-! ## Steady states -/

theorem steady_vcInit (s : TxState) : Steady s.vcInit where
  lists := rfl
  consistent := consistent_vcInit s
  window := le_rfl
  buffers _ waits := absurd waits (by simp [vcInit, atmAal5VcInit])

theorem flatten_modify_perm (waiting : List (List Packet)) (inside : priority < waiting.length)
    (packet : Packet) :
    (waiting.modify priority (· ++ [packet])).flatten.Perm (packet :: waiting.flatten) := by
  induction waiting generalizing priority with
  | nil => exact absurd inside (Nat.not_lt_zero _)
  | cons queue higher ih =>
    cases priority with
    | zero =>
      rw [modify_zero_cons, flatten_cons, flatten_cons, append_assoc]
      exact perm_middle
    | succ priority =>
      exact ((ih (Nat.lt_of_succ_lt_succ inside)).append_left queue).trans perm_middle

theorem Steady.enqueue (steady : Steady s) (inside : priority < maxTxPriorities)
    (buffer : packet ≠ []) : Steady (s.enqueue priority packet) where
  lists := by rw [TxState.enqueue, length_modify, steady.lists]
  consistent := ⟨steady.consistent.noBytes, steady.consistent.fresh⟩
  window := steady.window
  buffers queued waits := by
    have all := flatten_modify_perm s.dlistTxWaiting (steady.lists.symm ▸ inside) packet
    rcases mem_cons.mp (all.mem_iff.mp waits) with rfl | earlier
    · exact buffer
    · exact steady.buffers queued earlier

theorem Steady.txCell (steady : Steady s) : Steady (atmAal5TxCell vc s).2 := by
  have consistent := consistent_txCell vc steady.consistent
  rcases txCell_cases vc steady with ⟨-, -, none_made⟩ | ⟨cell, s', made, step, window⟩
  · rw [none_made] at consistent ⊢
    exact ⟨steady.lists, consistent, steady.window, steady.buffers⟩
  · rw [made] at consistent ⊢
    rcases step.waiting with same | ⟨packet, took⟩
    · exact ⟨by rw [same, steady.lists], consistent, window, by rw [same]; exact steady.buffers⟩
    · refine ⟨by rw [length_takeHighest took, steady.lists], consistent, window, ?_⟩
      intro queued waits
      refine steady.buffers queued ((takeHighest_perm took).mem_iff.mpr ?_)
      exact mem_cons_of_mem _ waits

/-! ## The priority of a channel -/

def sendingAfter (s s' : TxState) (sending : Option Nat) : Option Nat :=
  if s'.Idle then none
  else if s.Idle then highestWaiting s.dlistTxWaiting
  else sending

def TxState.unsent (s : TxState) (sending : Option Nat) : Option Nat :=
  match sending with
  | none => highestWaiting s.dlistTxWaiting
  | some priority => some (max priority ((highestWaiting s.dlistTxWaiting).getD 0))

structure Cached (s : TxState) (sending : Option Nat) : Prop where
  idle : sending = none ↔ s.Idle
  upper : ∀ priority, s.unsent sending = some priority → priority ≤ s.currHighSubPri
  busy : ∀ priority, sending = some priority → s.unsent sending = some s.currHighSubPri

section Cached

variable {s' : TxState} {sending : Option Nat}

theorem waiting_le_unsent (sending : Option Nat)
    (waits : highestWaiting s.dlistTxWaiting = some priority) :
    ∃ priority', s.unsent sending = some priority' ∧ priority ≤ priority' := by
  cases sending with
  | none => exact ⟨priority, waits, le_rfl⟩
  | some other =>
    refine ⟨_, rfl, ?_⟩
    rw [waits]
    exact le_max_right _ _

theorem Cached.next (cached : Cached s sending) (idle : s.Idle → s'.Idle)
    (waiting : s'.dlistTxWaiting = s.dlistTxWaiting)
    (cache : s'.currHighSubPri = s.currHighSubPri) : Cached s' (sendingAfter s s' sending) := by
  have same (sending : Option Nat) : s'.unsent sending = s.unsent sending := by
    simp only [unsent, waiting]
  rw [sendingAfter]
  split
  next ended =>
    refine ⟨iff_of_true rfl ended, fun priority waits => ?_, nofun⟩
    rw [same] at waits
    obtain ⟨priority', found, lower⟩ := waiting_le_unsent sending waits
    rw [cache]
    exact lower.trans (cached.upper priority' found)
  next busy =>
    rw [if_neg fun wasIdle => busy (idle wasIdle)]
    refine ⟨iff_of_false ?_ busy, ?_, ?_⟩
    · exact fun none_sent => busy (idle (cached.idle.mp none_sent))
    · rw [same, cache]
      exact cached.upper
    · rw [same, cache]
      exact cached.busy

theorem Cached.taken (idle : s.Idle) {rest : List (List Packet)}
    (took : takeHighest s.dlistTxWaiting = some (packet, rest)) (waiting : s'.dlistTxWaiting = rest)
    (cache : s'.currHighSubPri = (highestWaiting s.dlistTxWaiting).getD 0) :
    Cached s' (sendingAfter s s' sending) := by
  obtain ⟨priority, highest, lower⟩ := highestWaiting_took took
  rw [highest, getD_some] at cache
  rw [← waiting] at lower
  rw [sendingAfter, if_pos idle, highest]
  split
  next ended =>
    refine ⟨iff_of_true rfl ended, fun priority' waits => ?_, nofun⟩
    rw [show highestWaiting s'.dlistTxWaiting = some priority' from waits] at lower
    rw [cache]
    exact lower
  next busy =>
    have right : s'.unsent (some priority) = some s'.currHighSubPri := by
      rw [unsent, max_eq_left lower, cache]
    refine ⟨iff_of_false nofun busy, fun priority' unsent => ?_, fun _ _ => right⟩
    rw [right] at unsent
    exact (some.inj unsent).ge

theorem Cached.emptied (idle : s'.Idle) (empty : ∀ queue ∈ s'.dlistTxWaiting, queue = []) :
    Cached s' (sendingAfter s s' sending) := by
  rw [sendingAfter, if_pos idle]
  refine ⟨iff_of_true rfl idle, fun priority unsent => ?_, nofun⟩
  rw [TxState.unsent, highestWaiting_eq_none_iff.mpr empty] at unsent
  cases unsent

theorem Cached.cell (cached : Cached s sending) (step : CellStep s s') :
    Cached s' (sendingAfter s s' sending) := by
  cases step with
  | pad due same ended =>
    refine cached.next (fun idle => ?_) (congrArg (·.account.waiting) same)
      (congrArg (·.highSubPri) same)
    rw [idle.2] at due
    cases due
  | middle _ inHand same | last _ inHand same =>
    refine cached.next (fun idle => ?_) (congrArg (·.account.waiting) same)
      (congrArg (·.highSubPri) same)
    rw [idle.1] at inHand
    cases inHand
  | first noPad idle took same | only noPad idle took same =>
    exact .taken ⟨idle, noPad⟩ took (congrArg (·.account.waiting) same)
      (congrArg (·.highSubPri) same)

theorem Cached.enqueue (cached : Cached s sending) (inside : priority < s.dlistTxWaiting.length) :
    Cached (s.enqueue priority packet) (sendingAfter s (s.enqueue priority packet) sending) := by
  have cache : (s.enqueue priority packet).currHighSubPri = max priority s.currHighSubPri := by
    simp only [TxState.enqueue]
    split <;> omega
  have waiting : highestWaiting (s.enqueue priority packet).dlistTxWaiting =
      some (max priority ((highestWaiting s.dlistTxWaiting).getD 0)) := highestWaiting_modify inside
  rw [sendingAfter]
  split
  next idle =>
    have none_sent : sending = none := cached.idle.mpr idle
    refine ⟨iff_of_true rfl idle, fun priority' unsent => ?_, nofun⟩
    rw [TxState.unsent, waiting] at unsent
    cases unsent
    rw [cache]
    refine max_le_max_left _ ?_
    cases highest : highestWaiting s.dlistTxWaiting with
    | none => exact Nat.zero_le _
    | some priority' => exact cached.upper priority' (by rw [none_sent]; exact highest)
  next busy =>
    have wasBusy : ¬ s.Idle := busy
    rw [if_neg wasBusy]
    cases sending with
    | none => exact absurd (cached.idle.mp rfl) busy
    | some current =>
      have before := cached.busy current rfl
      rw [TxState.unsent, some.injEq] at before
      have right : (s.enqueue priority packet).unsent (some current) =
          some (s.enqueue priority packet).currHighSubPri := by
        rw [TxState.unsent, waiting, getD_some, cache, ← before, max_left_comm]
      refine ⟨iff_of_false nofun busy, fun priority' unsent => ?_, fun _ _ => right⟩
      rw [right] at unsent
      exact (some.inj unsent).ge

end Cached

/-! ## Custody -/

def TxState.held (s : TxState) : List Packet := s.dlistTxWaiting.flatten ++ s.pTxPacket.toList

structure Releases (s s' : TxState) (done : List Packet) : Prop where
  lists : s'.dlistTxWaiting.length = s.dlistTxWaiting.length
  completed : s'.completed = s.completed ++ done
  frames : s'.txFrameList = s.txFrameList + done.length
  buffers : s'.txBufferList = s.txBufferList + (done.map List.length).sum
  held : s.held.Perm (done ++ s'.held)

theorem Releases.of_packets {s' : TxState} (same : s'.packets = s.packets) : Releases s s' [] := by
  have waiting : s'.dlistTxWaiting = s.dlistTxWaiting := congrArg (·.account.waiting) same
  have inHand : s'.pTxPacket = s.pTxPacket := congrArg (·.inHand) same
  refine ⟨congrArg List.length waiting, ?_, congrArg (·.account.frames) same,
    congrArg (·.account.buffers) same, ?_⟩
  · rw [append_nil]
    exact congrArg (·.account.completed) same
  · rw [nil_append, TxState.held, TxState.held, waiting, inHand]

theorem Releases.trans {s' s'' : TxState} {done done' : List Packet} (first : Releases s s' done)
    (second : Releases s' s'' done') : Releases s s'' (done ++ done') where
  lists := second.lists.trans first.lists
  completed := by rw [second.completed, first.completed, append_assoc]
  frames := by rw [second.frames, first.frames, length_append, Nat.add_assoc]
  buffers := by
    rw [second.buffers, first.buffers, map_append, sum_append, Nat.add_assoc]
  held := by
    rw [append_assoc]
    exact first.held.trans (second.held.append_left done)

theorem releases_nextSDU (idle : s.pTxPacket = none) : Releases s (atmAal5TxNextSDU s) [] := by
  unfold atmAal5TxNextSDU
  split
  · refine ⟨rfl, (append_nil _).symm, rfl, rfl, ?_⟩
    rw [nil_append, held, held, idle]
  next packet rest took =>
    refine ⟨length_takeHighest took, (append_nil _).symm, rfl, rfl, ?_⟩
    rw [nil_append, held, held, idle, toList_none, append_nil]
    exact (takeHighest_perm took).trans (perm_append_singleton packet _).symm

theorem releases_complete {s' : TxState} (inHand : s.pTxPacket = some packet)
    (same : s'.packets = s.packets.complete packet) : Releases s s' [packet] := by
  have waiting : s'.dlistTxWaiting = s.dlistTxWaiting := congrArg (·.account.waiting) same
  have idle : s'.pTxPacket = none := congrArg (·.inHand) same
  refine ⟨congrArg List.length waiting, congrArg (·.account.completed) same,
    congrArg (·.account.frames) same, congrArg (·.account.buffers) same, ?_⟩
  rw [held, held, waiting, idle, inHand]
  exact perm_append_comm.trans (by simp)

theorem releases_txCellLoop (s : TxState) (data : List UInt8) :
    ∃ done, Releases s (txCellLoop vc s data).2 done := by
  -- the window on a buffer and the checksum move on without touching the packets
  have moved {s t s' : TxState} (same : t.packets = s.packets)
      (rest : ∃ done, Releases t s' done) : ∃ done, Releases s s' done := by
    obtain ⟨done, releases⟩ := rest
    exact ⟨_, (Releases.of_packets same).trans releases⟩
  fun_induction txCellLoop vc s data with
  | case1 s data full | case8 s data room left bytes => exact ⟨[], .of_packets rfl⟩
  | case2 s data room left cut done =>
    exact ⟨[], .of_packets (packets_completePDU vc s data)⟩
  | case3 s data room left uncut buffer rest next ih
  | case7 s data room left b rest bytes ih => exact moved (by rfl) ih
  | case4 s data room left uncut next packet inHand done =>
    refine ⟨[packet], releases_complete inHand ?_⟩
    show { done.2.packets with inHand := none } = _
    rw [packets_completePDU vc (atmLayerSendComplete { s with pTxCellBuffer := [] } packet) data]
    rfl
  | case5 s data room left uncut next idle sdu =>
    refine moved (t := { s with pTxCellBuffer := [] }) rfl ⟨[], ?_⟩
    exact releases_nextSDU idle
  | case6 s data room left uncut next idle buffer rest sdu ih =>
    let t : TxState := { s with pTxCellBuffer := [] }
    have took : Releases t (atmAal5TxNextSDU t) [] := releases_nextSDU idle
    have opened : Releases (atmAal5TxNextSDU t) ((atmAal5TxNextSDU t).openBuffer buffer) [] :=
      .of_packets rfl
    obtain ⟨done, releases⟩ := ih
    exact moved (t := t) rfl ⟨_, (took.trans opened).trans releases⟩

theorem releases_txCell (s : TxState) : ∃ done, Releases s (atmAal5TxCell vc s).2 done := by
  rw [atmAal5TxCell]
  split
  · exact ⟨[], .of_packets (packets_completePDU vc { s with bTxPadNext := false } [])⟩
  · exact releases_txCellLoop vc s []

theorem foldl_sendComplete (packets : List Packet) (s : TxState) :
    packets.foldl atmLayerSendComplete s = { s with
      txFrameList := s.txFrameList + packets.length
      txBufferList := s.txBufferList + (packets.map List.length).sum
      completed := s.completed ++ packets } := by
  induction packets generalizing s with
  | nil => simp
  | cons packet packets ih =>
    rw [foldl_cons, ih]
    simp [atmLayerSendComplete, Nat.add_assoc, Nat.add_comm 1]

theorem releases_txFlush (lists : s.dlistTxWaiting.length = maxTxPriorities) :
    Releases s (atmAal5VcTxFlush s) s.held ∧ (atmAal5VcTxFlush s).held = [] := by
  have flushed : atmAal5VcTxFlush s = _ := congrArg vcInit (foldl_sendComplete s.held s)
  have empty : (atmAal5VcTxFlush s).held = [] := by
    rfl
  refine ⟨⟨?_, ?_, ?_, ?_, ?_⟩, empty⟩
  · rw [lists, flushed]
    rfl
  · rw [flushed]
    rfl
  · rw [flushed]
    rfl
  · rw [flushed]
    rfl
  · rw [empty, append_nil]

end Cell

end EchoLife.Aal5
