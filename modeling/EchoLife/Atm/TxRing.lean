import EchoLife.Atm.TxQueue

/-!
# The invariant of the transmit ring

The descriptors of all accepted packets are numbered from 0 on (`stream`), and a number modulo the
length of the ring is its slot. `Layout` says where the pending packets are, `InRing` what holds
between the steps and `Loading` what holds in the loop of `Add`, which accepts a packet exactly when
its descriptors fit (`InRing.addLocked`).
-/

namespace EchoLife.Atm

open List Function AtmTxBdq

/-! ## Counting descriptors -/

theorem length_chainBds (portId : UInt8) (packet : TxPacket) (bufs : List AtmBuffer) :
    (chainBds portId packet bufs).length = bufs.length := by
  induction bufs with
  | nil => rfl
  | cons buf rest ih => simp [chainBds, ih]

@[simp]
theorem bdCount_nil : bdCount [] = 0 := rfl

theorem bdCount_cons (packet : TxPacket) (packets : List TxPacket) :
    bdCount (packet :: packets) = packet.dataParms.pAtmBuffer.length + bdCount packets := by
  simp [bdCount]

theorem bdCount_append (packets more : List TxPacket) :
    bdCount (packets ++ more) = bdCount packets + bdCount more := by
  simp [bdCount]

theorem stream_append (portId : UInt8) (packets more : List TxPacket) :
    stream portId (packets ++ more) = stream portId packets ++ stream portId more := by
  simp [stream]

theorem length_stream (portId : UInt8) (packets : List TxPacket) :
    (stream portId packets).length = bdCount packets := by
  simp [stream, bdCount, length_flatMap, length_chainBds]

theorem bufs_pos (packet : TxPacket) : 0 < packet.dataParms.pAtmBuffer.length :=
  length_pos_of_ne_nil packet.dataParms.chained

theorem length_le_bdCount (packets : List TxPacket) : packets.length ≤ bdCount packets := by
  induction packets with
  | nil => exact Nat.zero_le _
  | cons packet rest ih =>
    have := bufs_pos packet
    rw [length_cons, bdCount_cons]
    omega

theorem bdCount_take_le (packets : List TxPacket) (k : Nat) :
    bdCount (packets.take k) ≤ bdCount packets := by
  have split := bdCount_append (packets.take k) (packets.drop k)
  rw [take_append_drop] at split
  omega

/-! ## Where the packets are -/

def firsts : Nat → List TxPacket → List Nat
  | _, [] => []
  | p, packet :: rest => p :: firsts (p + packet.dataParms.pAtmBuffer.length) rest

theorem firsts_append (p : Nat) (packets more : List TxPacket) :
    firsts p (packets ++ more) = firsts p packets ++ firsts (p + bdCount packets) more := by
  induction packets generalizing p with
  | nil => rfl
  | cons packet rest ih => simp [firsts, ih, bdCount_cons, Nat.add_assoc]

def infoAt (size p : Nat) (packet : TxPacket) : AtmTxBdInfo where
  pDataParms := some packet.dataParms
  usLastIdx := (p + packet.dataParms.pAtmBuffer.length - 1) % size
  ucFirstIdx := p % size
  ucNumBds := packet.dataParms.pAtmBuffer.length

def Placed (size : Nat) (info : Nat → AtmTxBdInfo) : Nat → List TxPacket → Prop
  | _, [] => True
  | p, packet :: rest => info (p % size) = infoAt size p packet ∧
      Placed size info (p + packet.dataParms.pAtmBuffer.length) rest

namespace Placed

variable {size : Nat} {info info' : Nat → AtmTxBdInfo}

theorem append {p : Nat} {packets more : List TxPacket} :
    Placed size info p (packets ++ more) ↔
      Placed size info p packets ∧ Placed size info (p + bdCount packets) more := by
  induction packets generalizing p with
  | nil => simp [Placed]
  | cons packet rest ih =>
    simp only [cons_append, Placed, ih, bdCount_cons, Nat.add_assoc, and_assoc]

theorem congr {p : Nat} {packets : List TxPacket} (placed : Placed size info p packets)
    (same : ∀ i, p ≤ i → i < p + bdCount packets → info' (i % size) = info (i % size)) :
    Placed size info' p packets := by
  induction packets generalizing p with
  | nil => trivial
  | cons packet rest ih =>
    have pos := bufs_pos packet
    rw [bdCount_cons] at same
    refine ⟨?_, ih placed.2 fun i le lt => same i (by omega) (by omega)⟩
    rw [same p le_rfl (by omega)]
    exact placed.1

end Placed

/-! ## The invariant -/

structure Layout (q : AtmTxBdq) (done pending : List TxPacket) : Prop where
  two_le : 2 ≤ q.usLength
  le_max : q.usLength ≤ 255
  accepted : q.accepted = done ++ pending
  curr : q.ulCurrBdIdx = bdCount done % q.usLength
  headReg : q.pucHeadIdx = bdCount (done ++ pending) % q.usLength
  tailReg : q.pucTailIdx = q.sent.length % q.usLength
  behind : bdCount done ≤ q.sent.length
  sent : q.sent <+: stream q.ucPortId (done ++ pending)
  room : bdCount pending < q.usLength
  kept : ∀ p, bdCount done ≤ p → p < bdCount (done ++ pending) →
    (stream q.ucPortId (done ++ pending))[p]? = some (q.pStart (p % q.usLength))
  placed : Placed q.usLength q.pTxBdInfo (bdCount done) pending
  freed : q.freed.map Prod.fst = done.map TxPacket.dataParms
  passed : ∀ (k : Nat) entry, q.freed[k]? = some entry → bdCount (done.take (k + 1)) ≤ entry.2

structure InRing (q : AtmTxBdq) (done pending : List TxPacket) : Prop
    extends Layout q done pending where
  head : q.usHeadIdx = q.pucHeadIdx
  clean : ∀ slot, (q.pTxBdInfo slot).pDataParms ≠ none →
    ∃ p ∈ firsts (bdCount done) pending, p % q.usLength = slot

namespace Layout

variable {q : AtmTxBdq} {done pending : List TxPacket}

theorem sent_le (layout : Layout q done pending) :
    q.sent.length ≤ bdCount (done ++ pending) := by
  rw [← length_stream q.ucPortId]
  exact layout.sent.length_le

theorem hwStep (layout : Layout q done pending) : Layout q.hwStep done pending := by
  rw [AtmTxBdq.hwStep]
  split
  next => exact layout
  next more =>
    have room := layout.room
    have le := layout.sent_le
    have behind := layout.behind
    have lt : q.sent.length < bdCount (done ++ pending) := by
      refine lt_of_le_of_ne le fun all => more ?_
      rw [layout.tailReg, layout.headReg, all]
    have next_bd := layout.kept q.sent.length behind lt
    refine { layout with tailReg := ?_, behind := ?_, sent := ?_ }
    · simp only [length_append, length_singleton]
      rw [layout.tailReg, Ring.next_mod (by omega)]
    · simp only [length_append, length_singleton]
      omega
    · rw [← layout.tailReg] at next_bd
      obtain ⟨rest, eq⟩ := layout.sent
      rw [← eq] at next_bd ⊢
      obtain ⟨tail, rfl⟩ : ∃ tail, rest = q.pStart q.pucTailIdx :: tail := by
        cases rest with
        | nil => simp at next_bd
        | cons bd tail => exact ⟨tail, by simpa using next_bd⟩
      exact ⟨tail, by simp⟩

theorem progress (layout : Layout q done pending) (n : Nat) :
    Layout (q.progress n) done pending := by
  induction n generalizing q with
  | zero => exact layout
  | succ n ih => exact ih layout.hwStep

end Layout

/-! ## The hardware -/

theorem AtmTxBdq.progress_eq (n : Nat) (q : AtmTxBdq) :
    ∃ tail more, q.progress n = { q with pucTailIdx := tail, sent := q.sent ++ more } := by
  induction n generalizing q with
  | zero => exact ⟨q.pucTailIdx, [], by rw [append_nil]; rfl⟩
  | succ n ih =>
    obtain ⟨tail, more, eq⟩ := ih q.hwStep
    rw [progress, eq, hwStep]
    split
    next => exact ⟨tail, more, rfl⟩
    next => exact ⟨tail, q.pStart q.pucTailIdx :: more, by rw [append_assoc]; rfl⟩

variable {packet : TxPacket} {rest : List TxPacket}

namespace InRing

variable {q : AtmTxBdq} {done pending : List TxPacket}

theorem progress (ring : InRing q done pending) (n : Nat) :
    InRing (q.progress n) done pending := by
  have layout := ring.toLayout.progress n
  obtain ⟨tail, more, eq⟩ := q.progress_eq n
  rw [eq] at layout ⊢
  exact { layout with head := ring.head, clean := ring.clean }

theorem sent_hwStep (ring : InRing q done pending) :
    q.hwStep.sent.length = min (q.sent.length + 1) (bdCount (done ++ pending)) := by
  have le := ring.sent_le
  have near : bdCount (done ++ pending) - q.sent.length < q.usLength := by
    have := ring.room
    have := ring.behind
    have := bdCount_append done pending
    omega
  have level : q.pucTailIdx = q.pucHeadIdx ↔ bdCount (done ++ pending) = q.sent.length := by
    rw [ring.tailReg, ring.headReg, eq_comm, Ring.mod_eq_mod_iff le near]
  rw [hwStep]
  split
  next all => rw [level] at all; omega
  next more => rw [level] at more; simp only [length_append, length_singleton]; omega

theorem sent_progress (ring : InRing q done pending) (n : Nat) :
    (q.progress n).sent.length = min (q.sent.length + n) (bdCount (done ++ pending)) := by
  induction n generalizing q with
  | zero => exact (min_eq_left ring.sent_le).symm
  | succ n ih =>
    have turn : InRing q.hwStep done pending := ring.progress 1
    rw [AtmTxBdq.progress, ih turn, ring.sent_hwStep]
    omega

/-! ## Reclaim -/

theorem info_curr (ring : InRing q done (packet :: rest)) :
    q.pTxBdInfo q.ulCurrBdIdx = infoAt q.usLength (bdCount done) packet := by
  rw [ring.curr]
  exact ring.placed.1

theorem info_curr_nil (ring : InRing q done []) :
    (q.pTxBdInfo q.ulCurrBdIdx).pDataParms = none := by
  by_contra some
  obtain ⟨p, mem, -⟩ := ring.clean _ some
  exact not_mem_nil mem

theorem passed_iff (ring : InRing q done (packet :: rest)) :
    (packet.dataParms.pAtmBuffer.length : Int) - 1 <
        Ring.filled q.usLength q.pucTailIdx (bdCount done % q.usLength) ↔
      bdCount (done ++ [packet]) ≤ q.sent.length := by
  have behind := ring.behind
  have near : q.sent.length - bdCount done < q.usLength := by
    have := ring.room
    have := ring.sent_le
    have := bdCount_append done (packet :: rest)
    omega
  rw [ring.tailReg, Ring.filled_mod behind near, bdCount_append, bdCount_cons, bdCount_nil]
  omega

theorem free (ring : InRing q done (packet :: rest))
    (passed : bdCount (done ++ [packet]) ≤ q.sent.length) :
    InRing (q.free packet.dataParms) (done ++ [packet]) rest := by
  have pos := bufs_pos packet
  have two_le := ring.two_le
  have count : bdCount (done ++ [packet]) = bdCount done + packet.dataParms.pAtmBuffer.length := by
    rw [bdCount_append, bdCount_cons, bdCount_nil, Nat.add_zero]
  have room := ring.room
  rw [bdCount_cons] at room
  have same : done ++ [packet] ++ rest = done ++ packet :: rest := by simp
  have freed_length : q.freed.length = done.length := by
    simpa using congrArg List.length ring.freed
  have info := ring.info_curr
  constructor
  · refine
      { two_le := two_le
        le_max := ring.le_max
        accepted := by rw [same]; exact ring.accepted
        curr := ?_
        headReg := by rw [same]; exact ring.headReg
        tailReg := ring.tailReg
        behind := passed
        sent := by rw [same]; exact ring.sent
        room := show bdCount rest < q.usLength by omega
        kept := ?_
        placed := ?_
        freed := ?_
        passed := ?_ }
    · simp only [AtmTxBdq.free, info, infoAt]
      rw [Ring.next_mod (by omega), count]
      congr 1
      omega
    · intro p le lt
      rw [same] at lt ⊢
      exact ring.kept p (by omega) lt
    · rw [count]
      refine ring.placed.2.congr fun i le lt => ?_
      simp only [AtmTxBdq.free]
      rw [ring.curr]
      apply update_of_ne
      intro slot
      have near : i - bdCount done < q.usLength := by omega
      have := (Ring.mod_eq_mod_iff (by omega) near).mp slot
      omega
    · simp [AtmTxBdq.free, ring.freed]
    · intro k entry found
      rw [AtmTxBdq.free, getElem?_append] at found
      split at found
      next old =>
        rw [take_append_of_le_length (by omega)]
        exact ring.passed k entry found
      next last =>
        obtain ⟨rfl⟩ : (packet.dataParms, q.sent.length) = entry := by
          rw [getElem?_singleton] at found
          split at found
          · exact Option.some.inj found
          · cases found
        have all : (done ++ [packet]).length ≤ k + 1 := by
          rw [length_append, length_singleton]
          omega
        rw [take_of_length_le all]
        exact passed
  · exact ring.head
  · intro slot some
    by_cases here : slot = q.ulCurrBdIdx
    · rw [here, AtmTxBdq.free] at some
      simp at some
    · simp only [AtmTxBdq.free, update_of_ne here] at some
      obtain ⟨p, mem, eq⟩ := ring.clean slot some
      rw [firsts, mem_cons] at mem
      rcases mem with rfl | mem
      · rw [ring.curr] at here
        exact absurd eq.symm here
      · exact ⟨p, by rwa [count], eq⟩

theorem reclaimLoop (ring : InRing q done pending) (hw : Nat → Nat) {fuel : Nat}
    (enough : pending.length < fuel) :
    ∃ first rest, pending = first ++ rest ∧
      InRing (q.reclaimLoop hw fuel) (done ++ first) rest ∧
      ∀ packet more, rest = packet :: more →
        (q.reclaimLoop hw fuel).sent.length < bdCount (done ++ first ++ [packet]) := by
  induction fuel generalizing q done pending with
  | zero => omega
  | succ fuel ih =>
    have later := ring.progress (hw fuel)
    rw [reclaimLoop]
    cases pending with
    | nil =>
      rw [later.info_curr_nil]
      exact ⟨[], [], rfl, by simpa using later, by simp⟩
    | cons packet rest =>
      simp only [later.info_curr, infoAt]
      split
      next sent =>
        have passed := later.passed_iff.mp sent
        obtain ⟨first, more, rfl, ring', stop⟩ := ih (later.free passed)
          (by rw [length_cons] at enough; omega)
        refine ⟨packet :: first, more, rfl, by simpa using ring', fun next others eq => ?_⟩
        simpa using stop next others eq
      next waits =>
        refine ⟨[], packet :: rest, rfl, by simpa using later, fun next others eq => ?_⟩
        obtain ⟨rfl, rfl⟩ := cons.inj eq
        have := later.passed_iff.not.mp waits
        simpa using this

theorem reclaim (ring : InRing q done pending) (hw : Nat → Nat) :
    ∃ first rest, pending = first ++ rest ∧
      InRing (q.reclaim hw) (done ++ first) rest ∧
      ∀ packet more, rest = packet :: more →
        (q.reclaim hw).sent.length < bdCount (done ++ first ++ [packet]) := by
  have enough : pending.length < q.usLength :=
    lt_of_le_of_lt (length_le_bdCount pending) ring.room
  obtain ⟨first, rest, eq, ring', stop⟩ := ring.reclaimLoop hw enough
  refine ⟨first, rest, eq, ?_, stop⟩
  exact { ring' with }

end InRing

/-! ## Add -/

/-- In the loop of `Add`: the buffers `loaded` of the packet have their descriptors, after those of
the pending packets; the buffers `left` follow. -/
structure Loading (q : AtmTxBdq) (done pending : List TxPacket) (packet : TxPacket)
    (loaded left : List AtmBuffer) : Prop extends Layout q done pending where
  chain : packet.dataParms.pAtmBuffer = loaded ++ left
  head : q.usHeadIdx = (bdCount (done ++ pending) + loaded.length) % q.usLength
  fits : bdCount pending + loaded.length < q.usLength
  bds : ∀ i, i < loaded.length → (chainBds q.ucPortId packet packet.dataParms.pAtmBuffer)[i]? =
    some (q.pStart ((bdCount (done ++ pending) + i) % q.usLength))
  info : q.pTxBdInfo (bdCount (done ++ pending) % q.usLength) =
    { pDataParms := some packet.dataParms
      usLastIdx := (q.pTxBdInfo (bdCount (done ++ pending) % q.usLength)).usLastIdx
      ucFirstIdx := bdCount (done ++ pending) % q.usLength
      ucNumBds := loaded.length }
  last : left = [] → (q.pTxBdInfo (bdCount (done ++ pending) % q.usLength)).usLastIdx =
    (bdCount (done ++ pending) + loaded.length - 1) % q.usLength
  others : ∀ slot, slot ≠ bdCount (done ++ pending) % q.usLength →
    (q.pTxBdInfo slot).pDataParms ≠ none →
      ∃ p ∈ firsts (bdCount done) pending, p % q.usLength = slot

theorem getElem_chainBds (portId : UInt8) (packet : TxPacket) (before : List AtmBuffer)
    (buf : AtmBuffer) (rest : List AtmBuffer) :
    (chainBds portId packet (before ++ buf :: rest))[before.length]? =
      some (txBd portId packet.ucVcid packet.dataParms buf rest.isEmpty) := by
  induction before with
  | nil => rfl
  | cons _ before ih => simpa [chainBds] using ih

theorem update_ahead (q : AtmTxBdq) {done pending : List TxPacket} (bd : AtmDmaBd) {ahead : Nat}
    (fits : bdCount pending + ahead < q.usLength) {p : Nat} (le : bdCount done ≤ p)
    (lt : p < bdCount (done ++ pending) + ahead) :
    update q.pStart ((bdCount (done ++ pending) + ahead) % q.usLength) bd
      (p % q.usLength) = q.pStart (p % q.usLength) := by
  have count := bdCount_append done pending
  exact Ring.update_mod_of_near q.pStart bd lt (by omega)

theorem Layout.placed_update {q : AtmTxBdq} {done pending : List TxPacket}
    (layout : Layout q done pending) (info : AtmTxBdInfo) :
    Placed q.usLength
      (update q.pTxBdInfo (bdCount (done ++ pending) % q.usLength) info)
      (bdCount done) pending := by
  have count := bdCount_append done pending
  have room := layout.room
  refine layout.placed.congr fun i le lt => ?_
  exact Ring.update_mod_of_near q.pTxBdInfo info (by omega) (by omega)

namespace Loading

variable {q : AtmTxBdq} {done pending : List TxPacket} {packet : TxPacket}
  {loaded left : List AtmBuffer}

theorem progress (loading : Loading q done pending packet loaded left) (n : Nat) :
    Loading (q.progress n) done pending packet loaded left := by
  have layout := loading.toLayout.progress n
  obtain ⟨tail, more, eq⟩ := q.progress_eq n
  rw [eq] at layout ⊢
  exact { loading with toLayout := layout }

theorem full_iff (loading : Loading q done pending packet loaded left) :
    (q.usHeadIdx + 1) % q.usLength = q.ulCurrBdIdx % 2 ^ 16 ↔
      bdCount pending + loaded.length + 1 = q.usLength := by
  have le_max := loading.le_max
  have fits := loading.fits
  have count := bdCount_append done pending
  have small : bdCount done % q.usLength < q.usLength := Nat.mod_lt _ (by omega)
  rw [loading.curr, Nat.mod_eq_of_lt (show bdCount done % q.usLength < 2 ^ 16 by omega),
    loading.head, Ring.next_eq_iff (by omega) (by omega)]
  omega

theorem addBuffer {buf : AtmBuffer} {rest : List AtmBuffer}
    (loading : Loading q done pending packet loaded (buf :: rest))
    (room : bdCount pending + loaded.length + 1 < q.usLength) :
    Loading (q.addBuffer (bdCount (done ++ pending) % q.usLength) packet buf rest.isEmpty)
      done pending packet (loaded ++ [buf]) rest := by
  have le_max := loading.le_max
  have fits := loading.fits
  have count := bdCount_append done pending
  have chain := loading.chain
  have bd := getElem_chainBds q.ucPortId packet loaded buf rest
  rw [← chain] at bd
  constructor
  · refine { loading.toLayout with kept := ?_, placed := ?_ }
    · intro p le lt
      simp only [AtmTxBdq.addBuffer, loading.head]
      rw [update_ahead q _ fits le (by omega)]
      exact loading.kept p le lt
    · exact loading.placed_update _
  · simp [chain]
  · simp only [AtmTxBdq.addBuffer, loading.head, length_append, length_singleton]
    rw [Ring.next_mod (by omega), Nat.add_assoc]
  · simp only [AtmTxBdq.addBuffer, length_append, length_singleton]
    omega
  · intro i lt
    rw [length_append, length_singleton] at lt
    simp only [AtmTxBdq.addBuffer, loading.head]
    by_cases here : i = loaded.length
    · rw [here, update_self, bd]
    · rw [update_ahead q _ fits (by omega) (by omega)]
      exact loading.bds i (by omega)
  · have number : (loaded.length + 1) % 256 = loaded.length + 1 := Nat.mod_eq_of_lt (by omega)
    simp only [AtmTxBdq.addBuffer, update_self, length_append,
      length_singleton]
    rw [loading.info]
    simp [number]
  · rintro rfl
    simp [AtmTxBdq.addBuffer, loading.head]
  · intro slot other some
    have away : slot ≠ bdCount (done ++ pending) % q.usLength := other
    simp only [AtmTxBdq.addBuffer, update_of_ne away] at some
    exact loading.others slot away some

theorem addBuffers (loading : Loading q done pending packet loaded left) (hw : Nat → Nat) :
    ∃ q' status loaded' left',
      q.addBuffers (bdCount (done ++ pending) % q.usLength) packet hw left = (q', status) ∧
      Loading q' done pending packet loaded' left' ∧
      q'.usLength = q.usLength ∧ q'.ucPortId = q.ucPortId ∧ q'.freed = q.freed ∧
      (status = .success → left' = []) ∧
      (status = .resourceError →
        left' ≠ [] ∧ bdCount pending + loaded'.length + 1 = q.usLength) := by
  induction left generalizing q loaded with
  | nil => exact ⟨q, _, loaded, [], rfl, loading, rfl, rfl, rfl, fun _ => rfl, by simp⟩
  | cons buf rest ih =>
    have later := loading.progress (hw rest.length)
    obtain ⟨tail, more, eq⟩ := q.progress_eq (hw rest.length)
    rw [addBuffers]
    rw [eq] at later ⊢
    split
    next full =>
      exact ⟨_, _, loaded, buf :: rest, rfl, later, rfl, rfl, rfl, by simp,
        fun _ => ⟨by simp, later.full_iff.mp full⟩⟩
    next fits_one =>
      have fits := later.fits
      have room := later.full_iff.not.mp fits_one
      exact ih (later.addBuffer (by omega))

end Loading

namespace InRing

variable {q : AtmTxBdq} {done pending : List TxPacket}

theorem openInfo (ring : InRing q done pending) (packet : TxPacket) :
    Loading (q.openInfo packet) done pending packet [] packet.dataParms.pAtmBuffer := by
  have two_le := ring.two_le
  have le_max := ring.le_max
  have slot : q.usHeadIdx = bdCount (done ++ pending) % q.usLength := by
    rw [ring.head, ring.headReg]
  have inside : bdCount (done ++ pending) % q.usLength < q.usLength := Nat.mod_lt _ (by omega)
  have byte : bdCount (done ++ pending) % q.usLength % 256 =
      bdCount (done ++ pending) % q.usLength := Nat.mod_eq_of_lt (by omega)
  constructor
  · refine { ring.toLayout with placed := ?_ }
    simp only [AtmTxBdq.openInfo, slot]
    exact ring.placed_update _
  · rfl
  · exact slot
  · exact ring.room
  · intro i lt
    exact absurd lt (Nat.not_lt_zero i)
  · simp only [AtmTxBdq.openInfo, slot, update_self, byte, length_nil]
  · intro none
    exact absurd none packet.dataParms.chained
  · intro other away some
    have away : other ≠ bdCount (done ++ pending) % q.usLength := away
    simp only [AtmTxBdq.openInfo, slot, update_of_ne away] at some
    exact ring.clean other some

end InRing

namespace Loading

variable {q : AtmTxBdq} {done pending : List TxPacket} {packet : TxPacket}
  {loaded left : List AtmBuffer}

theorem accept (loading : Loading q done pending packet loaded []) :
    InRing
      { q with
        ulTxPending := true
        pucHeadIdx := q.usHeadIdx % 256
        accepted := q.accepted ++ [packet] } done (pending ++ [packet]) := by
  have le_max := loading.le_max
  have fits := loading.fits
  have count := bdCount_append done pending
  have all : loaded = packet.dataParms.pAtmBuffer := by simpa using loading.chain.symm
  have bds := loading.bds
  have info := loading.info
  have last := loading.last rfl
  have head := loading.head
  rw [all] at bds info last head fits
  have one : bdCount [packet] = packet.dataParms.pAtmBuffer.length := by simp [bdCount]
  have assoc : done ++ (pending ++ [packet]) = (done ++ pending) ++ [packet] := by simp
  have total : bdCount (done ++ (pending ++ [packet])) =
      bdCount (done ++ pending) + packet.dataParms.pAtmBuffer.length := by
    rw [assoc, bdCount_append, one]
  have inside : q.usHeadIdx % 256 = q.usHeadIdx := by
    have := Nat.mod_lt (bdCount (done ++ pending) + packet.dataParms.pAtmBuffer.length)
      (show 0 < q.usLength by omega)
    exact Nat.mod_eq_of_lt (by omega)
  constructor
  · refine { loading.toLayout with
      accepted := ?_, headReg := ?_, sent := ?_, room := ?_, kept := ?_, placed := ?_ }
    · rw [loading.accepted, assoc]
    · rw [inside, total]
      exact head
    · rw [assoc, stream_append]
      exact loading.sent.trans (prefix_append _ _)
    · rw [bdCount_append, one]
      exact fits
    · intro p le lt
      rw [assoc, stream_append, getElem?_append, length_stream]
      split
      next old => exact loading.kept p le old
      next new =>
        have found := bds (p - bdCount (done ++ pending)) (by omega)
        rw [Nat.add_sub_cancel' (by omega)] at found
        simpa [stream] using found
    · refine Placed.append.mpr ⟨loading.placed, ?_, trivial⟩
      rw [← count, info, last]
      rfl
  · exact inside.symm
  · intro slot some
    rw [firsts_append, ← count]
    by_cases here : slot = bdCount (done ++ pending) % q.usLength
    · exact ⟨_, mem_append_right _ (mem_singleton_self _), here.symm⟩
    · obtain ⟨p, mem, eq⟩ := loading.others slot here some
      exact ⟨p, mem_append_left _ mem, eq⟩

theorem refuse (loading : Loading q done pending packet loaded left) {slot : Nat}
    (here : slot = bdCount (done ++ pending) % q.usLength) :
    InRing
      { q with
        ulTxPending := true
        pTxBdInfo := update q.pTxBdInfo slot
          { q.pTxBdInfo slot with pDataParms := none }
        usHeadIdx := q.pucHeadIdx } done pending := by
  subst here
  constructor
  · exact { loading.toLayout with placed := loading.placed_update _ }
  · rfl
  · intro slot some
    by_cases here : slot = bdCount (done ++ pending) % q.usLength
    · rw [here] at some
      simp at some
    · simp only [update_of_ne here] at some
      exact loading.others slot here some

end Loading

namespace InRing

variable {q : AtmTxBdq} {done pending : List TxPacket}

theorem addLocked (ring : InRing q done pending) (hw : Nat → Nat) (packet : TxPacket) :
    ∃ q' status, q.addLocked hw packet = (q', status) ∧
      q'.usLength = q.usLength ∧ q'.ucPortId = q.ucPortId ∧ q'.freed = q.freed ∧
      (status = .success ↔
        bdCount pending + packet.dataParms.pAtmBuffer.length < q.usLength) ∧
      (status = .success → InRing q' done (pending ++ [packet])) ∧
      (status = .resourceError → InRing q' done pending) := by
  have slot : q.usHeadIdx = bdCount (done ++ pending) % (q.openInfo packet).usLength := by
    rw [ring.head, ring.headReg]
    rfl
  obtain ⟨q', status, loaded, left, eq, loading, size, port, freed, ends, full⟩ :=
    (ring.openInfo packet).addBuffers hw
  have size : q'.usLength = q.usLength := size
  have fits := loading.fits
  have chain := congrArg List.length loading.chain
  rw [length_append] at chain
  rw [AtmTxBdq.addLocked, slot, eq]
  cases status with
  | success =>
    obtain rfl := ends rfl
    rw [length_nil] at chain
    exact ⟨_, _, rfl, size, port, freed, by simp; omega, fun _ => loading.accept, by simp⟩
  | resourceError =>
    obtain ⟨more, used⟩ := full rfl
    have left_pos := length_pos_of_ne_nil more
    refine ⟨_, _, rfl, size, port, freed, by simp; omega, by simp, fun _ => ?_⟩
    apply loading.refuse
    rw [size]
    rfl

end InRing

end EchoLife.Atm
