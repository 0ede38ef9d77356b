import EchoLife.Atm.TxRing

/-!
# Runs of the transmit queue

`Add`, `Reclaim` and the hardware take turns in any order. `txBdq_run` is what a user of the queue
has from it: packets are freed in the order of acceptance, after the hardware has passed them, their
descriptors stay until then, a failed `Add` changes nothing, and once the hardware has reached the
head a `Reclaim` frees all.
-/

namespace EchoLife.Atm

open List AtmTxBdq

namespace AtmTxBdq

def pending (q : AtmTxBdq) : List TxPacket := q.accepted.drop q.freed.length

def oldest (q : AtmTxBdq) : Nat := bdCount (q.accepted.take q.freed.length)

theorem reclaimLoop_frame (hw : Nat → Nat) (fuel : Nat) (q : AtmTxBdq) :
    (q.reclaimLoop hw fuel).usHeadIdx = q.usHeadIdx ∧
      (q.reclaimLoop hw fuel).pucHeadIdx = q.pucHeadIdx ∧
      q.sent <+: (q.reclaimLoop hw fuel).sent := by
  induction fuel generalizing q with
  | zero => exact ⟨rfl, rfl, prefix_rfl⟩
  | succ fuel ih =>
    obtain ⟨tail, more, eq⟩ := q.progress_eq (hw fuel)
    rw [reclaimLoop, eq]
    split
    next => exact ⟨rfl, rfl, prefix_append _ _⟩
    next dp _ =>
      split
      next =>
        obtain ⟨headIdx, headReg, sent⟩ :=
          ih (free dp { q with pucTailIdx := tail, sent := q.sent ++ more })
        exact ⟨headIdx, headReg, (prefix_append _ _).trans sent⟩
      next => exact ⟨rfl, rfl, prefix_append _ _⟩

end AtmTxBdq

structure InService (q : AtmTxBdq) : Prop where
  /-- The packets are freed in the order of acceptance, and none twice. -/
  order : q.accepted.map TxPacket.dataParms =
    q.freed.map Prod.fst ++ q.pending.map TxPacket.dataParms
  /-- A packet is freed after the hardware has passed its last descriptor. -/
  passed : ∀ (k : Nat) entry, q.freed[k]? = some entry → bdCount (q.accepted.take (k + 1)) ≤ entry.2
  /-- The descriptors of the pending packets are in the ring. -/
  kept : ∀ p, q.oldest ≤ p → p < bdCount q.accepted →
    (stream q.ucPortId q.accepted)[p]? = some (q.pStart (p % q.usLength))
  /-- The hardware reads the descriptors of the packets that were accepted. -/
  read : q.sent <+: stream q.ucPortId q.accepted

structure SamePending (q q' : AtmTxBdq) : Prop where
  headIdx : q'.usHeadIdx = q.usHeadIdx
  headReg : q'.pucHeadIdx = q.pucHeadIdx
  accepted : q'.accepted = q.accepted
  freed : q'.freed = q.freed
  bds : ∀ p, q.oldest ≤ p → p < bdCount q.accepted →
    q'.pStart (p % q.usLength) = q.pStart (p % q.usLength)
  infos : ∀ p ∈ firsts q.oldest q.pending,
    q'.pTxBdInfo (p % q.usLength) = q.pTxBdInfo (p % q.usLength)

theorem Placed.unique {size p : Nat} {info info' : Nat → AtmTxBdInfo} {packets : List TxPacket}
    (placed : Placed size info p packets) (placed' : Placed size info' p packets) :
    ∀ i ∈ firsts p packets, info' (i % size) = info (i % size) := by
  induction packets generalizing p with
  | nil => intro i mem; exact absurd mem not_mem_nil
  | cons packet rest ih =>
    intro i mem
    rw [firsts, mem_cons] at mem
    rcases mem with rfl | later
    · rw [placed.1, placed'.1]
    · exact ih placed.2 placed'.2 i later

namespace InRing

variable {q q' : AtmTxBdq} {done pending : List TxPacket}

theorem create {ulLength : Nat} (three_le : 3 ≤ ulLength) (le_max : ulLength ≤ 256)
    (ucPortId : UInt8) : InRing (AtmTxBdq.create ulLength ucPortId) [] [] := by
  have size : (AtmTxBdq.create ulLength ucPortId).usLength = ulLength - 1 := by
    have valid : ¬ (ulLength < 2 ∨ ulLength > maxTxQueueSize) := by
      rw [maxTxQueueSize]
      omega
    rw [AtmTxBdq.create, if_neg valid]
  constructor
  · constructor
    · omega
    · omega
    · rfl
    · exact (Nat.zero_mod _).symm
    · exact (Nat.zero_mod _).symm
    · exact (Nat.zero_mod _).symm
    · exact le_rfl
    · exact nil_prefix
    · rw [size, bdCount_nil]
      omega
    · intro p _ lt
      exact absurd lt (Nat.not_lt_zero p)
    · trivial
    · rfl
    · intro k entry found
      cases found
  · rfl
  · intro slot some
    exact absurd rfl some

section

variable (ring : InRing q done pending)
include ring

theorem freed_length : q.freed.length = done.length := by
  simpa using congrArg List.length ring.freed

theorem take_accepted : q.accepted.take q.freed.length = done := by
  rw [ring.accepted, ring.freed_length, take_left]

theorem pending_eq : q.pending = pending := by
  rw [AtmTxBdq.pending, ring.accepted, ring.freed_length, drop_left]

theorem oldest_eq : q.oldest = bdCount done := by
  rw [oldest, ring.take_accepted]

theorem inService : InService q where
  order := by rw [ring.accepted, ring.freed, ring.pending_eq, map_append]
  passed k entry found := by
    have lt : k < q.freed.length := (List.getElem?_eq_some_iff.mp found).1
    rw [ring.freed_length] at lt
    rw [ring.accepted, take_append_of_le_length lt]
    exact ring.passed k entry found
  kept p le lt := by
    rw [ring.oldest_eq] at le
    rw [ring.accepted] at lt ⊢
    exact ring.kept p le lt
  read := by rw [ring.accepted]; exact ring.sent

theorem samePending (ring' : InRing q' done pending) (size : q'.usLength = q.usLength)
    (port : q'.ucPortId = q.ucPortId) (freed : q'.freed = q.freed) : SamePending q q' where
  headIdx := by rw [ring'.head, ring.head, ring'.headReg, ring.headReg, size]
  headReg := by rw [ring'.headReg, ring.headReg, size]
  accepted := by rw [ring'.accepted, ring.accepted]
  freed := freed
  bds p le lt := by
    rw [ring.oldest_eq] at le
    rw [ring.accepted] at lt
    have now := ring.kept p le lt
    have later := ring'.kept p le lt
    rw [size, port, now] at later
    exact (Option.some.inj later).symm
  infos := by
    have later := ring'.placed
    rw [size] at later
    rw [ring.oldest_eq, ring.pending_eq]
    exact ring.placed.unique later

theorem step (event : TxEvent) : ∃ done' pending', InRing (q.step event) done' pending' := by
  have locked {r : AtmTxBdq} {done pending : List TxPacket} (ring : InRing r done pending)
      (hw : Nat → Nat) (packet : TxPacket) :
      ∃ done' pending', InRing (r.addLocked hw packet).1 done' pending' := by
    obtain ⟨q', status, eq, -, -, -, -, accepts, refuses⟩ := ring.addLocked hw packet
    rw [eq]
    cases status with
    | success => exact ⟨_, _, accepts rfl⟩
    | resourceError => exact ⟨_, _, refuses rfl⟩
  cases event with
  | add hwReclaim hw packet =>
    rw [AtmTxBdq.step, AtmTxBdq.add, AtmTxBdq.reclaimFirst]
    split
    next =>
      obtain ⟨first, rest, -, ring', -⟩ := ring.reclaim hwReclaim
      exact locked ring' hw packet
    next => exact locked ring hw packet
  | addLocked hw packet => exact locked ring hw packet
  | reclaim hw =>
    obtain ⟨first, rest, -, ring', -⟩ := ring.reclaim hw
    exact ⟨_, _, ring'⟩
  | progress n => exact ⟨_, _, ring.progress n⟩

theorem run (events : List TxEvent) : ∃ done' pending', InRing (q.run events) done' pending' := by
  induction events generalizing q done pending with
  | nil => exact ⟨done, pending, ring⟩
  | cons event events ih =>
    obtain ⟨done', pending', ring'⟩ := ring.step event
    exact ih ring'

end

/-! ### What Reclaim frees -/

section

variable (ring : InRing q done pending) (hw : Nat → Nat)
include ring hw

theorem reclaim_accepted : (q.reclaim hw).accepted = q.accepted := by
  obtain ⟨first, rest, rfl, ring', -⟩ := ring.reclaim hw
  rw [ring'.accepted, ring.accepted, append_assoc]

theorem lt_freed_reclaim_iff {k : Nat} (lt : k < q.accepted.length) :
    k < (q.reclaim hw).freed.length ↔
      bdCount (q.accepted.take (k + 1)) ≤ (q.reclaim hw).sent.length := by
  obtain ⟨first, rest, rfl, ring', stop⟩ := ring.reclaim hw
  rw [ring.accepted, ← append_assoc] at lt ⊢
  rw [ring'.freed_length]
  constructor
  · intro old
    rw [take_append_of_le_length old]
    exact (bdCount_take_le _ _).trans ring'.behind
  · intro passed
    by_contra young
    cases rest with
    | nil => simp at lt young; omega
    | cons packet more =>
      have waits := stop packet more rfl
      have part : bdCount (done ++ first ++ [packet]) ≤
          bdCount ((done ++ first ++ packet :: more).take (k + 1)) := by
        have split : done ++ first ++ packet :: more = (done ++ first ++ [packet]) ++ more := by
          simp
        have long : (done ++ first ++ [packet]).length ≤ k + 1 := by
          rw [length_append, length_singleton]
          omega
        rw [split, take_append, take_of_length_le long,
          bdCount_append (done ++ first ++ [packet])]
        exact Nat.le_add_right _ _
      omega

theorem freed_reclaim_progress {n : Nat} (enough : q.usLength ≤ n) :
    ((q.progress n).reclaim hw).freed.map Prod.fst = q.accepted.map TxPacket.dataParms := by
  have later := ring.progress n
  have reached : (q.progress n).sent.length = bdCount (done ++ pending) := by
    have := ring.room
    have := ring.behind
    have := bdCount_append done pending
    rw [ring.sent_progress]
    omega
  have on := (reclaimLoop_frame hw (q.progress n).usLength (q.progress n)).2.2.length_le
  obtain ⟨first, rest, rfl, ring', stop⟩ := later.reclaim hw
  cases rest with
  | nil => rw [ring'.freed, ring.accepted, append_nil]
  | cons packet more =>
    have waits := stop packet more rfl
    have total := bdCount_append (done ++ first ++ [packet]) more
    have same : done ++ first ++ [packet] ++ more = done ++ (first ++ packet :: more) := by simp
    rw [same] at total
    have on : (q.progress n).sent.length ≤ ((q.progress n).reclaim hw).sent.length := on
    omega

end

/-! ### What a failed Add leaves -/

theorem addLocked_refused (ring : InRing q done pending) {hw : Nat → Nat} {packet : TxPacket}
    (failed : (q.addLocked hw packet).2 ≠ .success) :
    SamePending q (q.addLocked hw packet).1 := by
  obtain ⟨q', status, eq, size, port, freed, -, -, refuses⟩ := ring.addLocked hw packet
  rw [eq] at failed ⊢
  cases status with
  | success => exact absurd rfl failed
  | resourceError => exact ring.samePending (refuses rfl) size port freed

theorem add_refused (ring : InRing q done pending) {hwReclaim hw : Nat → Nat} {packet : TxPacket}
    (failed : (q.add hwReclaim hw packet).2 ≠ .success) :
    (q.reclaimFirst hwReclaim).usHeadIdx = q.usHeadIdx ∧
      (q.reclaimFirst hwReclaim).pucHeadIdx = q.pucHeadIdx ∧
      (q.reclaimFirst hwReclaim).accepted = q.accepted ∧
      SamePending (q.reclaimFirst hwReclaim) (q.add hwReclaim hw packet).1 := by
  rw [add, reclaimFirst] at failed ⊢
  split at failed
  next first =>
    obtain ⟨done', rest, -, ring', -⟩ := ring.reclaim hwReclaim
    obtain ⟨headIdx, headReg, -⟩ := reclaimLoop_frame hwReclaim q.usLength q
    rw [if_pos first]
    exact ⟨headIdx, headReg, ring.reclaim_accepted hwReclaim, ring'.addLocked_refused failed⟩
  next none =>
    rw [if_neg none]
    exact ⟨rfl, rfl, rfl, ring.addLocked_refused failed⟩

end InRing

/-- **Every packet is freed once, in order, after the hardware has passed it, and keeps its
descriptors until then.** -/
theorem txBdq_run {ulLength : Nat} (three_le : 3 ≤ ulLength) (le_max : ulLength ≤ 256)
    (ucPortId : UInt8) (events : List TxEvent) :
    let q := (AtmTxBdq.create ulLength ucPortId).run events
    InService q ∧
    -- a failed `Add`
    (∀ hwReclaim hw packet, (q.add hwReclaim hw packet).2 ≠ .success →
      (q.reclaimFirst hwReclaim).usHeadIdx = q.usHeadIdx ∧
      (q.reclaimFirst hwReclaim).pucHeadIdx = q.pucHeadIdx ∧
      (q.reclaimFirst hwReclaim).accepted = q.accepted ∧
      SamePending (q.reclaimFirst hwReclaim) (q.add hwReclaim hw packet).1) ∧
    (∀ hw packet, (q.addLocked hw packet).2 ≠ .success → SamePending q (q.addLocked hw packet).1) ∧
    -- `Reclaim` frees what the hardware has passed, and all when it has passed everything
    (∀ hw k, k < q.accepted.length →
      (k < (q.reclaim hw).freed.length ↔
        bdCount (q.accepted.take (k + 1)) ≤ (q.reclaim hw).sent.length)) ∧
    (∀ hw n, q.usLength ≤ n →
      ((q.progress n).reclaim hw).freed.map Prod.fst = q.accepted.map TxPacket.dataParms) := by
  intro q
  obtain ⟨done, pending, ring⟩ := (InRing.create three_le le_max ucPortId).run events
  refine ⟨ring.inService, ?_, ?_, ?_, ?_⟩
  · intro hwReclaim hw packet failed
    exact ring.add_refused failed
  · intro hw packet failed
    exact ring.addLocked_refused failed
  · intro hw k lt
    exact ring.lt_freed_reclaim_iff hw lt
  · intro hw n enough
    exact ring.freed_reclaim_progress hw enough

def onePacket : TxPacket :=
  ⟨⟨7, 0, 0, [⟨0x1000, 48, 0⟩], by decide⟩, 5⟩

def twoPacket : TxPacket :=
  ⟨⟨7, 0, 0, [⟨0x2000, 48, 0⟩, ⟨0x3000, 20, 0⟩], by decide⟩, 5⟩

/-- A ring of three slots: the second packet has to wait until the first is freed, and goes
round. -/
theorem txBdq_run_threeSlots :
    let q := (AtmTxBdq.create 4 0).run [.addLocked (fun _ => 0) onePacket,
      .addLocked (fun _ => 0) twoPacket, .progress 1, .add (fun _ => 0) (fun _ => 0) twoPacket]
    (q.accepted = [onePacket, twoPacket] ∧ q.freed = [(onePacket.dataParms, 1)] ∧
      q.usHeadIdx = 0 ∧ (q.addLocked (fun _ => 0) onePacket).2 = .resourceError) ∧
    InService q ∧ SamePending q (q.addLocked (fun _ => 0) onePacket).1 ∧
    ((q.progress 3).reclaim fun _ => 0).freed.map Prod.fst =
      [onePacket.dataParms, twoPacket.dataParms] := by
  intro q
  have facts : q.accepted = [onePacket, twoPacket] ∧ q.freed = [(onePacket.dataParms, 1)] ∧
      q.usHeadIdx = 0 ∧ (q.addLocked (fun _ => 0) onePacket).2 = .resourceError := by
    decide +kernel
  obtain ⟨inService, -, refused, -, all⟩ :=
    txBdq_run (show 3 ≤ 4 by decide) (show 4 ≤ 256 by decide) 0 [.addLocked (fun _ => 0) onePacket,
      .addLocked (fun _ => 0) twoPacket, .progress 1, .add (fun _ => 0) (fun _ => 0) twoPacket]
  have full : (q.addLocked (fun _ => 0) onePacket).2 ≠ .success := by
    rw [facts.2.2.2]
    decide
  refine ⟨facts, inService, refused _ _ full, ?_⟩
  have freed := all (fun _ => 0) 3 (by decide +kernel)
  exact freed.trans (congrArg (List.map TxPacket.dataParms) facts.1)

end EchoLife.Atm
