import EchoLife.Atm.RxBuffers

/-!
# The way of a receive descriptor

The hardware takes descriptors off the free queue and puts packets on the receive queue;
`PrioritizeReceivePkts` moves them on or drops them, and `ProcessReceivePktQueue` hands them to an
application, which frees them later. A step is what happens between two accesses to the queues.

`rxStep_conserves` says what a step moves and loses; `rxBds_run` that no run doubles a descriptor,
and that none is lost when the receive queues are not smaller than the free queue and no packet of
several descriptors is dropped.
-/

namespace EchoLife.Atm

open List Option History

/-! ## The source -/

structure RxPacket (β : Type) where
  pBd : β
  nextRxBds : List β
deriving DecidableEq, Repr

def RxPacket.bds {β : Type} (pkt : RxPacket β) : List β := pkt.pBd :: pkt.nextRxBds

inductive Processing (β : Type) where
  | nothing
  | removed (pkt : RxPacket β)
  /-- The descriptors of a chain go back to the free queue. -/
  | discarding (pBd : β) (nextRxBds : List β)
deriving DecidableEq, Repr

def Processing.bds {β : Type} : Processing β → List β
  | .nothing => []
  | .removed pkt => pkt.bds
  | .discarding pBd nextRxBds => pBd :: nextRxBds

structure RxPath (β : Type) where
  freePktQ : AtmRxBdq β
  rxPktQ : AtmRxBdq (RxPacket β)
  highPriRxPktQ : AtmRxBdq (RxPacket β)
  lowPriRxPktQ : AtmRxBdq (RxPacket β)
  /-- The packet and the number `PrioritizeReceivePkts` has in hand. -/
  prioritizing : Option (RxPacket β)
  ulAtmAvailableFreePkts : Nat
  processing : Processing β
  held : List β
  ulDropPktThreshold : Nat
  ulFreeQueueEmpty : Nat
  ulPriPktsReceived : Nat

def dropPacketMinimum : Nat := 20

def dropPacketIncrement : Nat := 5

def pktQSize (usQSize : UInt16) : Nat := if usQSize = 0 then 600 else usQSize.toNat

def RxPath.initializeQueues {β : Type} (freePktQ : AtmRxBdq β) (ulReceivePktQSize : Nat) :
    RxPath β where
  freePktQ := freePktQ
  rxPktQ := .create ulReceivePktQSize
  highPriRxPktQ := .create ulReceivePktQSize
  lowPriRxPktQ := .create ulReceivePktQSize
  prioritizing := none
  ulAtmAvailableFreePkts := 0
  processing := .nothing
  held := []
  ulDropPktThreshold := dropPacketMinimum
  ulFreeQueueEmpty := 0
  ulPriPktsReceived := 0

inductive RxPktQ where
  | rx
  | high
  | low
deriving DecidableEq, Repr

inductive RxCall (β : Type) where
  /-- A packet has come in; it took one descriptor and so many more. -/
  | receive (more : Nat)
  | prioritize
  | prioritizeRemove
  | prioritizeAdd (isHighPriorityPkt : Bool)
  | prioritizeEnd
  | processRemove (pRxPktQ : RxPktQ)
  | processEnd (toAppl : Bool)
  | freePkt (pBd : β)

def removeMany {β : Type} : Nat → AtmRxBdq β → Option (List β × AtmRxBdq β)
  | 0, q => some ([], q)
  | n + 1, q =>
    match q.remove with
    | ((.success, some pBd), q') => (removeMany n q').map fun (rest, q'') => (pBd :: rest, q'')
    | _ => none

def addAnyway {β γ : Type} (q : AtmRxBdq γ) (element : γ) (bds : List β) : List β × AtmRxBdq γ :=
  match q.add element with
  | (.success, q') => ([], q')
  | (_, q') => (bds, q')

variable {β : Type}

def RxPath.freeAdd (s : RxPath β) (pBd : β) : List β × RxPath β :=
  let added := addAnyway s.freePktQ pBd [pBd]
  (added.1, { s with freePktQ := added.2 })

def RxPath.removeFrom (s : RxPath β) : RxPktQ → (RxStatus × Option (RxPacket β)) × RxPath β
  | .rx => (s.rxPktQ.remove.1, { s with rxPktQ := s.rxPktQ.remove.2 })
  | .high => (s.highPriRxPktQ.remove.1, { s with highPriRxPktQ := s.highPriRxPktQ.remove.2 })
  | .low => (s.lowPriRxPktQ.remove.1, { s with lowPriRxPktQ := s.lowPriRxPktQ.remove.2 })

def RxPath.adjustThreshold (s : RxPath β) : RxPath β :=
  if s.ulFreeQueueEmpty > 0 ∧ s.ulDropPktThreshold < s.freePktQ.getSize * 2 / 3 then
    { s with ulDropPktThreshold := s.ulDropPktThreshold + dropPacketIncrement }
  else if s.freePktQ.getNumFilledElements > s.ulDropPktThreshold + dropPacketIncrement ∧
      s.ulDropPktThreshold - dropPacketIncrement ≥ dropPacketMinimum then
    { s with ulDropPktThreshold := s.ulDropPktThreshold - dropPacketIncrement }
  else s

def RxPath.prioritizeAdd (s : RxPath β) (pkt : RxPacket β) (isHighPriorityPkt : Bool) :
    List β × RxPath β :=
  if isHighPriorityPkt then
    let added := addAnyway s.highPriRxPktQ pkt pkt.bds
    (added.1, { s with
      highPriRxPktQ := added.2
      ulPriPktsReceived := s.ulPriPktsReceived + 1 })
  else if s.ulAtmAvailableFreePkts > s.ulDropPktThreshold then
    let added := addAnyway s.lowPriRxPktQ pkt pkt.bds
    (added.1, { s with lowPriRxPktQ := added.2 })
  else
    -- only the descriptor from the queue goes back, not those chained to it
    ((s.freeAdd pkt.pBd).1 ++ pkt.nextRxBds, (s.freeAdd pkt.pBd).2)

/-- The body of the loop of `ProcessReceivePktQueue`, behind the `Remove`: a chain is discarded, one
descriptor in each step. -/
def RxPath.processEnd (s : RxPath β) (toAppl : Bool) : List β × RxPath β :=
  match s.processing with
  | .nothing => ([], s)
  | .removed ⟨pBd, []⟩ =>
    let s := { s with processing := .nothing }
    if toAppl then ([], { s with held := s.held ++ [pBd] }) else s.freeAdd pBd
  | .removed ⟨pBd, next :: rest⟩ => { s with processing := .discarding next rest }.freeAdd pBd
  | .discarding pBd [] => { s with processing := .nothing }.freeAdd pBd
  | .discarding pBd (next :: rest) => { s with processing := .discarding next rest }.freeAdd pBd

def rxStep [DecidableEq β] (s : RxPath β) : RxCall β → List β × RxPath β
  | .receive more =>
    match removeMany (more + 1) s.freePktQ with
    | some (pBd :: rest, freePktQ) =>
      match s.rxPktQ.add ⟨pBd, rest⟩ with
      | (.success, rxPktQ) => ([], { s with freePktQ := freePktQ, rxPktQ := rxPktQ })
      | _ => ([], s)
    | _ => ([], s)
  | .prioritize => ([], { s with ulFreeQueueEmpty := 0 })
  | .prioritizeRemove =>
    match s.prioritizing, s.rxPktQ.remove with
    | none, ((.success, some pkt), rxPktQ) =>
      let ulAtmAvailableFreePkts := s.freePktQ.getNumFilledElements
      ([], { s with
        rxPktQ := rxPktQ
        prioritizing := some pkt
        ulAtmAvailableFreePkts := ulAtmAvailableFreePkts
        ulFreeQueueEmpty :=
          if ulAtmAvailableFreePkts = 0 then s.ulFreeQueueEmpty + 1 else s.ulFreeQueueEmpty })
    | _, _ => ([], s)
  | .prioritizeAdd isHighPriorityPkt =>
    match s.prioritizing with
    | none => ([], s)
    | some pkt => { s with prioritizing := none }.prioritizeAdd pkt isHighPriorityPkt
  | .prioritizeEnd => ([], s.adjustThreshold)
  | .processRemove pRxPktQ =>
    match s.processing, s.removeFrom pRxPktQ with
    | .nothing, ((.success, some pkt), s) => ([], { s with processing := .removed pkt })
    | _, _ => ([], s)
  | .processEnd toAppl => s.processEnd toAppl
  | .freePkt pBd =>
    if pBd ∈ s.held then { s with held := s.held.erase pBd }.freeAdd pBd else ([], s)

/-! ## What the queues hold -/

def Queued {γ : Type} (q : AtmRxBdq γ) (elements : List γ) : Prop :=
  ∃ added removed, Holds q added removed elements

variable {γ : Type} {s' : RxPath β}

theorem queued_create {ulLength : Nat} (pos : 0 < ulLength) :
    Queued (AtmRxBdq.create ulLength : AtmRxBdq γ) [] :=
  ⟨0, 0, holds_create pos⟩

theorem AtmRxBdq.remove_ulLength (q : AtmRxBdq γ) : q.remove.2.ulLength = q.ulLength := by
  rw [AtmRxBdq.remove]
  split <;> rfl

namespace Queued

variable {γ : Type} {q : AtmRxBdq γ} {elements : List γ}

theorem add (queued : Queued q elements) (element : γ) :
    (∃ q', q.add element = (.success, q') ∧ q'.ulLength = q.ulLength ∧
        Queued q' (elements ++ [element])) ∨
      q.add element = (.resourceError, q) ∧ elements.length + 1 = q.ulLength := by
  obtain ⟨added, removed, holds⟩ := queued
  have room := holds.room
  have step := holds.add element
  have same := q.add_ulLength element
  split at step
  next free =>
    obtain ⟨status, after⟩ := step
    exact .inl ⟨(q.add element).2, Prod.ext status rfl, same, added + 1, removed, after⟩
  next full => exact .inr ⟨step, by omega⟩

theorem addAnyway (queued : Queued q elements) (element : γ) (bds : List β) :
    ∃ rest, Queued (addAnyway q element bds).2 rest ∧
      (Atm.addAnyway q element bds).2.ulLength = q.ulLength ∧
      (rest = elements ++ [element] ∧ (Atm.addAnyway q element bds).1 = [] ∨
        rest = elements ∧ (Atm.addAnyway q element bds).1 = bds ∧
          elements.length + 1 = q.ulLength) := by
  rw [Atm.addAnyway]
  rcases queued.add element with ⟨q', is, length, after⟩ | ⟨is, full⟩
  · rw [is]
    exact ⟨_, after, length, .inl ⟨rfl, rfl⟩⟩
  · rw [is]
    exact ⟨_, queued, rfl, .inr ⟨rfl, rfl, full⟩⟩

theorem remove_cons {element : γ} (queued : Queued q (element :: elements)) :
    q.remove.1 = (.success, some element) ∧ Queued q.remove.2 elements := by
  obtain ⟨added, removed, holds⟩ := queued
  exact ⟨holds.remove.1, added, removed + 1, holds.remove.2⟩

theorem remove_nil (queued : Queued q []) : q.remove = ((.notFound, none), q) := by
  obtain ⟨added, removed, holds⟩ := queued
  exact holds.remove_nil

theorem remove_some {element : γ} {q' : AtmRxBdq γ} (queued : Queued q elements)
    (removed : q.remove = ((.success, some element), q')) :
    ∃ rest, elements = element :: rest ∧ Queued q' rest ∧ q'.ulLength = q.ulLength := by
  have same := q.remove_ulLength
  cases elements with
  | nil =>
    rw [queued.remove_nil] at removed
    cases removed
  | cons first rest =>
    obtain ⟨answer, after⟩ := queued.remove_cons
    rw [removed] at answer after same
    cases answer
    exact ⟨rest, rfl, after, same⟩

theorem removeMany (queued : Queued q elements) (n : Nat) :
    removeMany n q = none ∨
      ∃ front rest q', elements = front ++ rest ∧ front.length = n ∧
        Atm.removeMany n q = some (front, q') ∧ Queued q' rest ∧ q'.ulLength = q.ulLength := by
  induction n generalizing q elements with
  | zero => exact .inr ⟨[], elements, q, rfl, rfl, rfl, queued, rfl⟩
  | succ n ih =>
    rw [Atm.removeMany]
    cases elements with
    | nil =>
      rw [queued.remove_nil]
      exact .inl rfl
    | cons element elements =>
      obtain ⟨answer, after⟩ := queued.remove_cons
      have same := q.remove_ulLength
      generalize q.remove = result at answer after same
      obtain ⟨_, q'⟩ := result
      subst answer
      dsimp only
      rcases ih after with none_left | ⟨front, rest, q'', whole, count, taken, left, length⟩
      · rw [none_left]
        exact .inl rfl
      · grind

end Queued

def AtmRxBdq.elements {γ : Type} (q : AtmRxBdq γ) : List γ :=
  (List.range (Ring.filled q.ulLength q.headIdx q.tailIdx)).filterMap fun i =>
    q.ppStart ((q.tailIdx + i) % q.ulLength)

theorem filterMap_range_getElem? (elements : List γ) :
    (List.range elements.length).filterMap (fun i => elements[i]?) = elements := by
  induction elements with
  | nil => rfl
  | cons element elements ih =>
    rw [length_cons, range_succ_eq_map, filterMap_cons, filterMap_map]
    exact congrArg (element :: ·) ih

theorem Queued.elements_eq {q : AtmRxBdq γ} {elements : List γ} (queued : Queued q elements) :
    q.elements = elements := by
  obtain ⟨added, removed, holds⟩ := queued
  have count := holds.count
  have room := holds.room
  have size : Ring.filled q.ulLength q.headIdx q.tailIdx = elements.length := by
    rw [holds.head, holds.tail, Ring.filled_mod (by omega) (by omega)]
    omega
  rw [AtmRxBdq.elements, size]
  refine Eq.trans (filterMap_congr fun i member => ?_) (filterMap_range_getElem? elements)
  rw [holds.tail, Nat.mod_add_mod]
  exact holds.stored i (mem_range.mp member)

structure QueueContents (β : Type) where
  free : List β
  rx : List (RxPacket β)
  high : List (RxPacket β)
  low : List (RxPacket β)

structure RxPath.Has (freeSize receiveSize : Nat) (s : RxPath β) (c : QueueContents β) : Prop where
  free : Queued s.freePktQ c.free
  rx : Queued s.rxPktQ c.rx
  high : Queued s.highPriRxPktQ c.high
  low : Queued s.lowPriRxPktQ c.low
  freeLength : s.freePktQ.ulLength = freeSize
  rxLength : s.rxPktQ.ulLength = receiveSize
  highLength : s.highPriRxPktQ.ulLength = receiveSize
  lowLength : s.lowPriRxPktQ.ulLength = receiveSize

def RxPath.bds (s : RxPath β) (c : QueueContents β) : List β :=
  c.free ++ c.rx.flatMap RxPacket.bds ++ c.high.flatMap RxPacket.bds ++
    c.low.flatMap RxPacket.bds ++ s.prioritizing.toList.flatMap RxPacket.bds ++
    s.processing.bds ++ s.held

def RxPath.contents (s : RxPath β) : QueueContents β :=
  ⟨s.freePktQ.elements, s.rxPktQ.elements, s.highPriRxPktQ.elements, s.lowPriRxPktQ.elements⟩

open RxPath

theorem RxPath.Has.contents_eq {freeSize receiveSize : Nat} {s : RxPath β} {c : QueueContents β}
    (has : s.Has freeSize receiveSize c) : s.contents = c := by
  rw [contents, has.free.elements_eq, has.rx.elements_eq, has.high.elements_eq,
    has.low.elements_eq]

def RxPath.allBds (s : RxPath β) : List β := s.bds s.contents

def RxPath.DropsChain (s : RxPath β) (call : RxCall β) : Prop :=
  call = .prioritizeAdd false ∧ s.ulAtmAvailableFreePkts ≤ s.ulDropPktThreshold ∧
    ∃ pkt, s.prioritizing = some pkt ∧ pkt.nextRxBds ≠ []

def Moves (freeSize receiveSize : Nat) (s : RxPath β) (c : QueueContents β) (reason : Prop)
    (result : List β × RxPath β) : Prop :=
  ∃ c', result.2.Has freeSize receiveSize c' ∧ (result.2.bds c' ++ result.1).Perm (s.bds c) ∧
    (result.1 = [] ∨ reason)

section Step

variable {freeSize receiveSize : Nat} {s : RxPath β} {c : QueueContents β} {reason : Prop}

variable {c' : QueueContents β}

theorem moves_of_perm (has : s'.Has freeSize receiveSize c') (same : (s'.bds c').Perm (s.bds c)) :
    Moves freeSize receiveSize s c reason ([], s') := by
  refine ⟨c', has, ?_, .inl rfl⟩
  rwa [append_nil]

theorem RxPath.length_free_le (s : RxPath β) (c : QueueContents β) :
    c.free.length ≤ (s.bds c).length := by
  simp only [bds, length_append]
  omega

theorem length_le_flatMap_bds (packets : List (RxPacket β)) :
    packets.length ≤ (packets.flatMap RxPacket.bds).length := by
  induction packets with
  | nil => exact le_rfl
  | cons pkt packets ih =>
    rw [flatMap_cons, length_append, length_cons, RxPacket.bds, length_cons]
    omega

variable [DecidableEq β]

/-- **A descriptor in no queue goes back to the free queue**: there is always room for it. Others
may be gone with it. -/
theorem moves_freeAdd {pBd : β} {gone : List β} (has : s'.Has freeSize receiveSize c')
    (few : (s.bds c).length < freeSize) (out : (s'.bds c' ++ [pBd] ++ gone).Perm (s.bds c))
    (why : gone = [] ∨ reason) :
    Moves freeSize receiveSize s c reason ((s'.freeAdd pBd).1 ++ gone, (s'.freeAdd pBd).2) := by
  have count := out.length_eq
  have most := s'.length_free_le c'
  rw [length_append, length_append, length_singleton] at count
  obtain ⟨rest, queued, length, ⟨rfl, kept⟩ | ⟨-, -, full⟩⟩ := has.free.addAnyway pBd [pBd]
  · have none_lost : (s'.freeAdd pBd).1 = [] := kept
    rw [none_lost, nil_append]
    refine ⟨{ c' with free := c'.free ++ [pBd] },
      { has with free := queued, freeLength := length.trans has.freeLength }, ?_, why⟩
    refine List.Perm.trans (perm_iff_count.mpr fun a => ?_) out
    simp only [bds, freeAdd, count_append]
    omega
  · rw [has.freeLength] at full
    omega

theorem moves_freeAdd_only {pBd : β} (has : s'.Has freeSize receiveSize c')
    (few : (s.bds c).length < freeSize) (out : (s'.bds c' ++ [pBd]).Perm (s.bds c)) :
    Moves freeSize receiveSize s c reason (s'.freeAdd pBd) := by
  have all : (s'.bds c' ++ [pBd] ++ []).Perm (s.bds c) := by rwa [append_nil]
  have moves : Moves freeSize receiveSize s c reason _ := moves_freeAdd has few all (.inl rfl)
  rwa [append_nil] at moves

theorem queued_addPacket {q : AtmRxBdq (RxPacket β)} {packets : List (RxPacket β)}
    (queued : Queued q packets) (pkt : RxPacket β) :
    ∃ rest, Queued (addAnyway q pkt pkt.bds).2 rest ∧
      (addAnyway q pkt pkt.bds).2.ulLength = q.ulLength ∧
      (∀ a, (rest.flatMap RxPacket.bds).count a + (addAnyway q pkt pkt.bds).1.count a =
        (packets.flatMap RxPacket.bds).count a + pkt.bds.count a) ∧
      ((addAnyway q pkt pkt.bds).1 = [] ∨
        q.ulLength ≤ (packets.flatMap RxPacket.bds).length + 1) := by
  obtain ⟨rest, after, length, ⟨rfl, kept⟩ | ⟨rfl, lost, full⟩⟩ := queued.addAnyway pkt pkt.bds
  · grind
  · have most := length_le_flatMap_bds rest
    refine ⟨_, after, length, fun a => ?_, .inr (by omega)⟩
    rw [lost]

section

variable (has : s.Has freeSize receiveSize c)
include has

theorem moves_prioritizeAdd (few : (s.bds c).length < freeSize) {pkt : RxPacket β}
    (inHand : s.prioritizing = some pkt) (isHighPriorityPkt : Bool) :
    Moves freeSize receiveSize s c
      (receiveSize < freeSize ∨ s.DropsChain (.prioritizeAdd isHighPriorityPkt))
      ({ s with prioritizing := none }.prioritizeAdd pkt isHighPriorityPkt) := by
  have count (a : β) : (s.bds c).count a = c.free.count a + (c.rx.flatMap RxPacket.bds).count a +
      (c.high.flatMap RxPacket.bds).count a + (c.low.flatMap RxPacket.bds).count a +
      pkt.bds.count a + s.processing.bds.count a + s.held.count a := by
    simp only [bds, inHand, count_append, toList_some, flatMap_cons,
      flatMap_nil, append_nil]
  have total : (c.high.flatMap RxPacket.bds).length + (c.low.flatMap RxPacket.bds).length + 1 ≤
      (s.bds c).length := by
    simp only [bds, inHand, length_append, toList_some, flatMap_cons,
      flatMap_nil, append_nil, RxPacket.bds, length_cons]
    omega
  rw [prioritizeAdd]
  split
  next high =>
    obtain ⟨rest, queued, length, same, ends⟩ := queued_addPacket has.high pkt
    refine ⟨{ c with high := rest },
      { has with high := queued, highLength := length.trans has.highLength },
      perm_iff_count.mpr fun a => ?_, ends.imp_right fun full => ?_⟩
    · have here := same a
      rw [count a]
      simp only [bds, count_append, toList_none, flatMap_nil,
        count_nil]
      omega
    · rw [has.highLength] at full
      exact .inl (by omega)
  next notHigh =>
    split
    next low =>
      obtain ⟨rest, queued, length, same, ends⟩ := queued_addPacket has.low pkt
      refine ⟨{ c with low := rest },
        { has with low := queued, lowLength := length.trans has.lowLength },
        perm_iff_count.mpr fun a => ?_, ends.imp_right fun full => ?_⟩
      · have here := same a
        rw [count a]
        simp only [bds, count_append, toList_none, flatMap_nil,
          count_nil]
        omega
      · rw [has.lowLength] at full
        exact .inl (by omega)
    next drop =>
      have empty : ({ s with prioritizing := none } : RxPath β).Has freeSize receiveSize c :=
        { has with }
      refine moves_freeAdd empty few (perm_iff_count.mpr fun a => ?_) ?_
      · rw [count a]
        simp only [bds, count_append, toList_none, flatMap_nil,
          count_nil, RxPacket.bds, count_cons]
        omega
      · by_cases chained : pkt.nextRxBds = []
        · exact .inl chained
        · rw [Bool.not_eq_true] at notHigh
          subst notHigh
          exact .inr (.inr ⟨rfl, not_lt.mp drop, pkt, inHand, chained⟩)

theorem moves_processEnd (few : (s.bds c).length < freeSize) (toAppl : Bool) :
    Moves freeSize receiveSize s c reason (s.processEnd toAppl) := by
  have without (hand : Processing β) :
      ({ s with processing := hand } : RxPath β).Has freeSize receiveSize c := { has with }
  have out {hand : Processing β} {pBd : β}
      (inHand : ∀ a, hand.bds.count a + [pBd].count a = s.processing.bds.count a) :
      (({ s with processing := hand } : RxPath β).bds c ++ [pBd]).Perm (s.bds c) := by
    refine perm_iff_count.mpr fun a => ?_
    have here := inHand a
    simp only [bds, count_append]
    omega
  rw [processEnd]
  split
  next => exact moves_of_perm has .rfl
  next pBd inHand =>
    split
    next =>
      have given : ({ s with processing := .nothing, held := s.held ++ [pBd] } : RxPath β).Has
        freeSize receiveSize c := { has with }
      refine moves_of_perm given (perm_iff_count.mpr fun a => ?_)
      simp only [bds, inHand, Processing.bds, RxPacket.bds, count_append,
        count_nil]
      omega
    next =>
      refine moves_freeAdd_only (without _) few (out fun a => ?_)
      simp only [inHand, Processing.bds, RxPacket.bds, count_nil, Nat.zero_add]
  next pBd next rest inHand =>
    refine moves_freeAdd_only (without _) few (out fun a => ?_)
    simp only [inHand, Processing.bds, RxPacket.bds, count_cons, count_nil]
    omega
  next pBd inHand =>
    refine moves_freeAdd_only (without _) few (out fun a => ?_)
    simp only [inHand, Processing.bds, count_nil, Nat.zero_add]
  next pBd next rest inHand =>
    refine moves_freeAdd_only (without _) few (out fun a => ?_)
    simp only [inHand, Processing.bds, count_cons, count_nil]
    omega

theorem moves_receive (more : Nat) :
    Moves freeSize receiveSize s c reason (rxStep s (.receive more)) := by
  rw [rxStep]
  rcases has.free.removeMany (more + 1) with
    none_left | ⟨front, rest, q, whole, count, taken, left, length⟩
  · rw [none_left]
    exact moves_of_perm has .rfl
  · rw [taken]
    obtain ⟨pBd, chained, rfl⟩ := exists_of_length_succ front count
    dsimp only
    rcases has.rx.add ⟨pBd, chained⟩ with ⟨rx, added, same, after⟩ | ⟨full, -⟩
    · rw [added]
      have moved : ({ s with freePktQ := q, rxPktQ := rx } : RxPath β).Has freeSize receiveSize
          { c with free := rest, rx := c.rx ++ [⟨pBd, chained⟩] } :=
        { has with
          free := left
          rx := after
          freeLength := length.trans has.freeLength
          rxLength := same.trans has.rxLength }
      refine moves_of_perm moved (perm_iff_count.mpr fun a => ?_)
      simp only [bds, whole, flatMap_append, flatMap_cons, flatMap_nil,
        append_nil, RxPacket.bds, count_append]
      omega
    · rw [full]
      exact moves_of_perm has .rfl

theorem moves_prioritizeRemove :
    Moves freeSize receiveSize s c reason (rxStep s .prioritizeRemove) := by
  rw [rxStep]
  split
  next pkt rx idle removed =>
    obtain ⟨rest, packets, after, same⟩ := has.rx.remove_some removed
    refine ⟨{ c with rx := rest },
      { has with rx := after, rxLength := same.trans has.rxLength }, ?_, .inl rfl⟩
    refine perm_iff_count.mpr fun a => ?_
    simp only [bds, idle, packets, toList_some, toList_none,
      flatMap_cons, flatMap_nil, append_nil, count_append]
    omega
  next => exact moves_of_perm has .rfl

theorem moves_processRemove (pRxPktQ : RxPktQ) :
    Moves freeSize receiveSize s c reason (rxStep s (.processRemove pRxPktQ)) := by
  rw [rxStep]
  split
  next pkt s' idle removed =>
    cases pRxPktQ with
    | rx =>
      obtain ⟨answer, rfl⟩ := Prod.mk.inj removed
      obtain ⟨rest, packets, after, same⟩ := has.rx.remove_some (Prod.ext answer rfl)
      refine ⟨{ c with rx := rest },
        { has with rx := after, rxLength := same.trans has.rxLength }, ?_, .inl rfl⟩
      refine perm_iff_count.mpr fun a => ?_
      simp only [bds, idle, packets, Processing.bds, flatMap_cons,
        append_nil, count_append]
      omega
    | high =>
      obtain ⟨answer, rfl⟩ := Prod.mk.inj removed
      obtain ⟨rest, packets, after, same⟩ := has.high.remove_some (Prod.ext answer rfl)
      refine ⟨{ c with high := rest },
        { has with high := after, highLength := same.trans has.highLength }, ?_, .inl rfl⟩
      refine perm_iff_count.mpr fun a => ?_
      simp only [bds, idle, packets, Processing.bds, flatMap_cons,
        append_nil, count_append]
      omega
    | low =>
      obtain ⟨answer, rfl⟩ := Prod.mk.inj removed
      obtain ⟨rest, packets, after, same⟩ := has.low.remove_some (Prod.ext answer rfl)
      refine ⟨{ c with low := rest },
        { has with low := after, lowLength := same.trans has.lowLength }, ?_, .inl rfl⟩
      refine perm_iff_count.mpr fun a => ?_
      simp only [bds, idle, packets, Processing.bds, flatMap_cons,
        append_nil, count_append]
      omega
  next => exact moves_of_perm has .rfl

theorem moves_freePkt (few : (s.bds c).length < freeSize) (pBd : β) :
    Moves freeSize receiveSize s c reason (rxStep s (.freePkt pBd)) := by
  rw [rxStep]
  split
  next mine =>
    have without : ({ s with held := s.held.erase pBd } : RxPath β).Has freeSize receiveSize c :=
      { has with }
    refine moves_freeAdd_only without few ?_
    rw [bds, bds, append_assoc]
    exact List.Perm.append_left _
      ((perm_append_singleton _ _).trans (perm_cons_erase mine).symm)
  next => exact moves_of_perm has .rfl

/-- **What a step moves**: a descriptor is lost only when the receive queues are smaller than the
free queue, or with a chain that is dropped. -/
theorem rxStep_conserves (few : (s.bds c).length < freeSize) (call : RxCall β) :
    Moves freeSize receiveSize s c (receiveSize < freeSize ∨ s.DropsChain call)
      (rxStep s call) := by
  cases call with
  | receive more => exact moves_receive has more
  | prioritize => exact ⟨c, { has with }, .of_eq (append_nil _), .inl rfl⟩
  | prioritizeRemove => exact moves_prioritizeRemove has
  | prioritizeAdd isHighPriorityPkt =>
    rw [rxStep]
    split
    next => exact moves_of_perm has .rfl
    next pkt inHand => exact moves_prioritizeAdd has few inHand isHighPriorityPkt
  | prioritizeEnd =>
    have same : (s.adjustThreshold).Has freeSize receiveSize c ∧
        (s.adjustThreshold).bds c = s.bds c := by
      rw [adjustThreshold]
      split
      next => exact ⟨{ has with }, rfl⟩
      next =>
        split
        next => exact ⟨{ has with }, rfl⟩
        next => exact ⟨has, rfl⟩
    exact moves_of_perm same.1 (.of_eq same.2)
  | processRemove pRxPktQ => exact moves_processRemove has pRxPktQ
  | processEnd toAppl => exact moves_processEnd has few toAppl
  | freePkt pBd => exact moves_freePkt has few pBd

end

end Step

/-! ## Runs -/

theorem pktQSize_pos (usQSize : UInt16) : 1 ≤ pktQSize usQSize := by
  rw [pktQSize]
  split
  next => decide
  next some_size => exact Nat.pos_of_ne_zero fun zero => some_size (UInt16.toNat_inj.mp zero)

section Runs

variable [DecidableEq β] {freeSize receiveSize : Nat} {bds : List β} {s : RxPath β}

theorem subperm_run (has : s.Has freeSize receiveSize s.contents)
    (start : (s.bds s.contents).Subperm bds) (few : bds.length < freeSize)
    (calls : List (RxCall β)) :
    ((final rxStep s calls).bds (final rxStep s calls).contents).Subperm bds := by
  have kept : ∃ c, (final rxStep s calls).Has freeSize receiveSize c ∧
      ((final rxStep s calls).bds c).Subperm bds := by
    refine holds_final (I := fun s : RxPath β =>
      ∃ c, s.Has freeSize receiveSize c ∧ (s.bds c).Subperm bds) ⟨_, has, start⟩ ?_
    rintro u mem ⟨c, has, inside⟩
    obtain ⟨c', after, moved, -⟩ :=
      rxStep_conserves has (inside.length_le.trans_lt few) u.call
    rw [step_of_mem mem] at after moved
    exact ⟨c', after, (sublist_append_left _ _).subperm.trans (moved.subperm.trans inside)⟩
  obtain ⟨c, after, inside⟩ := kept
  rwa [after.contents_eq]

/-- **A run loses no descriptor** when the receive queues are large enough and no chain is
dropped. -/
theorem perm_run (has : s.Has freeSize receiveSize s.contents)
    (start : (s.bds s.contents).Perm bds) (few : bds.length < freeSize)
    (sizes : freeSize ≤ receiveSize) {calls : List (RxCall β)}
    (whole : ∀ u ∈ history rxStep s calls, ¬ u.before.DropsChain u.call) :
    ((final rxStep s calls).bds (final rxStep s calls).contents).Perm bds := by
  have kept : ∃ c, (final rxStep s calls).Has freeSize receiveSize c ∧
      ((final rxStep s calls).bds c).Perm bds := by
    refine holds_final (I := fun s : RxPath β =>
      ∃ c, s.Has freeSize receiveSize c ∧ (s.bds c).Perm bds) ⟨_, has, start⟩ ?_
    rintro u mem ⟨c, has, same⟩
    obtain ⟨c', after, moved, none_lost | small | drops⟩ :=
      rxStep_conserves has (same.length_eq.trans_lt few) u.call
    · rw [none_lost, append_nil] at moved
      rw [step_of_mem mem] at after moved
      exact ⟨c', after, moved.trans same⟩
    · exact absurd sizes small.not_ge
    · exact absurd drops (whole u mem)
  obtain ⟨c, after, same⟩ := kept
  rwa [after.contents_eq]

end Runs

section Initialize

variable {ok : Nat → Bool} {ulElementSize : Nat} {out : BdQOutcome}
  {usFreePktQSize usReceivePktQSize usQBufSize usQBufOffset : UInt16}

theorem has_initializeQueues {freePktQ : AtmRxBdq β} {bds : List β} (queued : Queued freePktQ bds)
    {receiveSize : Nat} (pos : 0 < receiveSize) :
    (RxPath.initializeQueues freePktQ receiveSize).Has freePktQ.ulLength receiveSize
        (RxPath.initializeQueues freePktQ receiveSize).contents ∧
      (RxPath.initializeQueues freePktQ receiveSize).bds
        (RxPath.initializeQueues freePktQ receiveSize).contents = bds := by
  have has : (RxPath.initializeQueues freePktQ receiveSize).Has freePktQ.ulLength receiveSize
      ⟨bds, [], [], []⟩ :=
    ⟨queued, queued_create pos, queued_create pos, queued_create pos, rfl, if_neg pos.ne',
      if_neg pos.ne', if_neg pos.ne'⟩
  rw [has.contents_eq]
  refine ⟨has, ?_⟩
  simp only [RxPath.bds, RxPath.initializeQueues, flatMap_nil, toList_none,
    Processing.bds, append_nil]

/-- **The descriptors of the free queue**, after `CreateBdQ` has accepted its size: no run doubles
one; and when the receive queues are at least as large and no chained packet is dropped, every one
is in one of the four queues, in the hand of one of the two functions or held by an application. -/
theorem rxBds_run
    (created : createBdQ ok ulElementSize (.create (pktQSize usFreePktQSize))
      (pktQSize usFreePktQSize) usQBufSize.toNat usQBufOffset.toNat = .ok out)
    (accepted : out.status = .success) :
    ∃ bds : List RxBd, bds.length = pktQSize usFreePktQSize - 1 ∧ bds.Nodup ∧
      ∀ calls,
        (final rxStep (.initializeQueues out.pBdQ (pktQSize usReceivePktQSize))
          calls).allBds.Subperm bds ∧
        (pktQSize usFreePktQSize ≤ pktQSize usReceivePktQSize →
          (∀ u ∈ history rxStep (.initializeQueues out.pBdQ (pktQSize usReceivePktQSize)) calls,
            ¬ u.before.DropsChain u.call) →
          (final rxStep (.initializeQueues out.pBdQ (pktQSize usReceivePktQSize))
            calls).allBds.Perm bds) := by
  have pos := pktQSize_pos usFreePktQSize
  obtain ⟨length, bds, holds, count, distinct⟩ := createBdQ_success pos created accepted
  obtain ⟨has, start⟩ := has_initializeQueues ⟨_, _, holds⟩ (pktQSize_pos usReceivePktQSize)
  rw [length] at has
  refine ⟨bds, count, distinct, fun calls => ⟨?_, fun sizes whole => ?_⟩⟩
  · exact subperm_run has (List.Perm.of_eq start).subperm (by omega) calls
  · exact perm_run has (List.Perm.of_eq start) (by omega) sizes whole

/-- Three descriptors and receive queues of the same size. -/
theorem rxBds_run_three :
    ∃ out, createBdQ (fun _ => true) 64 (.create (pktQSize 4)) (pktQSize 4) (1600 : UInt16).toNat
        (0 : UInt16).toNat = .ok out ∧ out.status = .success ∧
      ∃ bds : List RxBd, bds.length = pktQSize 4 - 1 ∧ bds.Nodup ∧
        ∀ calls,
          (final rxStep (.initializeQueues out.pBdQ (pktQSize 4)) calls).allBds.Subperm bds ∧
          (pktQSize 4 ≤ pktQSize 4 →
            (∀ u ∈ history rxStep (.initializeQueues out.pBdQ (pktQSize 4)) calls,
              ¬ u.before.DropsChain u.call) →
            (final rxStep (.initializeQueues out.pBdQ (pktQSize 4)) calls).allBds.Perm bds) :=
  ⟨_, rfl, rfl, @rxBds_run (fun _ => true) 64 _ 4 4 1600 0 rfl rfl⟩

def twoHighPriPkts : List (RxCall RxBd) :=
  [.receive 0, .prioritize, .prioritizeRemove, .prioritizeAdd true, .prioritizeEnd,
    .receive 0, .prioritize, .prioritizeRemove, .prioritizeAdd true, .prioritizeEnd]

/-- With receive queues of two elements the second packet does not fit into the queue of high
priority: of three descriptors two are left. -/
theorem rxBds_lost :
    ∃ out, createBdQ (fun _ => true) 64 (.create (pktQSize 4)) (pktQSize 4) (1600 : UInt16).toNat
        (0 : UInt16).toNat = .ok out ∧ out.status = .success ∧
      out.pBdQ.elements.length = 3 ∧
      (final rxStep (.initializeQueues out.pBdQ (pktQSize 2)) twoHighPriPkts).allBds.length = 2 :=
  ⟨_, rfl, rfl, by decide, by decide⟩

end Initialize

end EchoLife.Atm
