import EchoLife.Atm.PriorityRuns
import EchoLife.Lib.History
import EchoLife.Lib.LinkedList

/-!
# The VCC table with several threads

`AddReplace`, `Remove` and `Get` of `ATM_VCC_INFO_TABLE` search the chain of an address under a
semaphore, but read its head before they have it, and `AddReplace` gives the semaphore up after its
search. A step is what a thread does up to the next operation on the semaphore; using a record that
was freed is a fault.

As long as what a thread has seen is still so when it gets the semaphore (`UpToDate`), the table is
the sequential one (`vccTable_run`). `vccTable_races` has a run with two records of one address and
one in which a record is freed twice.
-/

namespace EchoLife.Atm

open Prod List Option Function LinkedList History

/-! ## The source -/

inductive VccOp where
  | addReplace (addr : AtmVccAddr) (cfg : AtmVccCfg) (pInterface : Nat)
  | remove (addr : AtmVccAddr)
  | get (addr : AtmVccAddr)
  deriving DecidableEq, Repr

def VccOp.addr : VccOp → AtmVccAddr
  | .addReplace addr .. => addr
  | .remove addr => addr
  | .get addr => addr

inductive VccThread (P : Type) where
  | idle
  /-- The head of the chain is read, and the semaphore requested. -/
  | searching (op : VccOp) (pInfo : Option P)
  /-- The search of `AddReplace` has found nothing, and the semaphore is released. -/
  | missing (info : AtmVccInfo)
  /-- The new record is filled in, and the semaphore requested. -/
  | adding (info : AtmVccInfo) (pInfo : P)
  deriving DecidableEq, Repr

structure VccSystem (P : Type) where
  pVccInfos : Nat → Option P
  heap : Heap P AtmVccInfo
  thread : Nat → VccThread P

/-- A thread calls an operation, or makes its next step; `alloc` is the memory it gets if it asks
for some. -/
inductive VccMove (P : Type) where
  | call (t : Nat) (op : VccOp)
  | run (t : Nat) (alloc : Option P)
  deriving DecidableEq, Repr

inductive VccOutcome (P : Type) where
  | running
  | done
  | got (pInfo : Option P)
  | allocError
  | fault
  deriving DecidableEq, Repr

section Source

variable {P : Type} [DecidableEq P] [Fintype P]

def search (heap : Heap P AtmVccInfo) (addr : AtmVccAddr) (pInfo : Option P) :
    Option (Option P × Option P) :=
  seekPrev heap (fun _ info => info.addr = addr) (Fintype.card P) none pInfo

def underSem (s : VccSystem P) (op : VccOp) (pInfo : Option P) :
    Option (VccSystem P × Option P) := do
  let (pInfoPrev, pInfo) ← search s.heap op.addr pInfo
  match op, pInfo with
  | _, none | .get _, _ => pure (s, pInfo)
  | .addReplace addr cfg pInterface, some p =>
    let cell ← s.heap p
    let heap ← setItem s.heap p { cell.item with addr, cfg, pInterface }
    pure ({ s with heap }, pInfo)
  | .remove addr, some p =>
    let cell ← s.heap p
    match pInfoPrev with
    | none =>
      let pVccInfos := update s.pVccInfos addr.hashValue cell.next
      pure ({ s with pVccInfos, heap := update s.heap p none }, pInfo)
    | some prev =>
      let heap ← setNext s.heap prev cell.next
      pure ({ s with heap := update heap p none }, pInfo)

def VccSystem.goto (s : VccSystem P) (t : Nat) (thread : VccThread P) : VccSystem P :=
  { s with thread := update s.thread t thread }

def vccStep (s : VccSystem P) : VccMove P → VccOutcome P × VccSystem P
  | .call t op =>
    match s.thread t with
    | .idle => (.running, s.goto t (.searching op (s.pVccInfos op.addr.hashValue)))
    | _ => (.running, s)
  | .run t alloc =>
    match s.thread t with
    | .idle => (.running, s)
    | .searching op pInfo =>
      match op, underSem s op pInfo with
      | _, none => (.fault, s.goto t .idle)
      | .get _, some (s, pInfo) => (.got pInfo, s.goto t .idle)
      | .addReplace addr cfg pInterface, some (s, none) =>
        (.running, s.goto t (.missing ⟨addr, cfg, pInterface, 0⟩))
      | _, some (s, _) => (.done, s.goto t .idle)
    | .missing info =>
      -- Memory in use is not handed out.
      match alloc.filter fun p => (s.heap p).isNone with
      | none => (.allocError, s.goto t .idle)
      | some p =>
        (.running, { s with heap := update s.heap p (some ⟨info, none⟩) }.goto t
          (.adding info p))
    | .adding info p =>
      match setNext s.heap p (s.pVccInfos info.addr.hashValue) with
      | none => (.fault, s.goto t .idle)
      | some heap =>
        (.done, { s with
          heap
          pVccInfos := update s.pVccInfos info.addr.hashValue (some p) }.goto t .idle)

end Source

def vccInit (P : Type) : VccSystem P := ⟨fun _ => none, fun _ => none, fun _ => .idle⟩

/-! ## The chains -/

section Chains

variable {P : Type} [DecidableEq P] [Fintype P]

def VccOp.effect : VccOp → List AtmVccInfo → List AtmVccInfo
  | .addReplace addr cfg pInterface => replaceInfo addr cfg pInterface
  | .remove addr => removeInfo addr
  | .get _ => id

omit [DecidableEq P] [Fintype P] in
theorem VccOp.effect_append (op : VccOp) {front : List (P × AtmVccInfo)}
    (passed : ∀ c ∈ front, c.2.addr ≠ op.addr) (back : List (P × AtmVccInfo)) :
    op.effect ((front ++ back).map snd) =
      front.map snd ++ op.effect (back.map snd) := by
  induction front with
  | nil => rfl
  | cons c front ih =>
    have other := passed c mem_cons_self
    have rest := ih fun d mem => passed d (mem_cons_of_mem _ mem)
    cases op with
    | addReplace | remove => exact (if_neg other).trans (congrArg (c.2 :: ·) rest)
    | get => exact congrArg (c.2 :: ·) rest

theorem VccOp.addr_effect_sublist (op : VccOp) (infos : List AtmVccInfo) :
    ((op.effect infos).map AtmVccInfo.addr).Sublist (infos.map AtmVccInfo.addr) := by
  cases op with
  | addReplace addr cfg pInterface =>
    rw [effect, map_addr_replaceInfo]
  | remove addr => exact (removeInfo_sublist addr infos).map _
  | get => exact .refl _

structure Rechained (s s' : VccSystem P) (b : Nat) (cells cells' : List (P × AtmVccInfo)) :
    Prop where
  chain : Chain s'.heap (s'.pVccInfos b) cells'
  sublist : (cells'.map Prod.fst).Sublist (cells.map Prod.fst)
  heap : ∀ p ∉ cells.map Prod.fst, s'.heap p = s.heap p
  heads : ∀ b' ≠ b, s'.pVccInfos b' = s.pVccInfos b'
  thread : s'.thread = s.thread

variable {s : VccSystem P} {op : VccOp} {cells : List (P × AtmVccInfo)}

omit [DecidableEq P] in
theorem search_chain {head : Option P} (chain : Chain s.heap head cells) (addr : AtmVccAddr) :
    (∃ prev, search s.heap addr head = some (prev, none) ∧ ∀ c ∈ cells, c.2.addr ≠ addr) ∨
      ∃ front p info back, cells = front ++ (p, info) :: back ∧ info.addr = addr ∧
        (∀ c ∈ front, c.2.addr ≠ addr) ∧
        search s.heap addr head = some ((front.map fun c => some c.1).getLastD none, some p) := by
  cases found : cells.find? fun c => c.2.addr = addr with
  | none =>
    have other := find?_eq_none.mp found
    obtain ⟨prev, searched⟩ := Chain.seekPrev_none (q := none)
      (fun _ info => info.addr = addr) chain (by simpa using other) chain.length_le
    exact .inl ⟨prev, searched, by simpa using other⟩
  | some c =>
    obtain ⟨same, front, back, rfl, passed⟩ := find?_eq_some_iff_append.mp found
    obtain ⟨p, info⟩ := c
    have room := chain.length_le
    rw [length_append, length_cons] at room
    refine .inr ⟨front, p, info, back, rfl, of_decide_eq_true same, by simpa using passed, ?_⟩
    exact Segment.seekPrev _ chain (by simpa using passed) same (by omega)

/-- **Under the semaphore, from the current head.** The operation has its effect on the chain. -/
theorem underSem_chain (chain : Chain s.heap (s.pVccInfos op.addr.hashValue) cells) :
    ∃ s' found cells', underSem s op (s.pVccInfos op.addr.hashValue) = some (s', found) ∧
      Rechained s s' op.addr.hashValue cells cells' ∧
      cells'.map snd = op.effect (cells.map snd) := by
  rcases search_chain chain op.addr with
    ⟨prev, searched, missing⟩ | ⟨front, p, info, back, rfl, same, passed, searched⟩
  · refine ⟨s, none, cells, ?_, ⟨chain, .refl _, fun _ _ => rfl, fun _ _ => rfl, rfl⟩, ?_⟩
    · rw [underSem, searched]
      cases op <;> rfl
    · have nothing : op.effect [] = [] := by cases op <;> rfl
      have effect := op.effect_append missing []
      rw [map_nil, nothing, append_nil, append_nil] at effect
      exact effect.symm
  · have inside : p ∈ (front ++ (p, info) :: back).map fst := by simp
    have effect := op.effect_append passed ((p, info) :: back)
    obtain ⟨next, cell⟩ := Chain.cell chain (mem_append_right _ mem_cons_self)
    rw [underSem, searched]
    cases op with
    | get addr =>
      exact ⟨s, some p, _, rfl, ⟨chain, .refl _, fun _ _ => rfl, fun _ _ => rfl, rfl⟩, rfl⟩
    | addReplace addr cfg pInterface =>
      obtain ⟨heap, written, chain', kept⟩ :=
        Chain.setItem chain { info with addr, cfg, pInterface }
      refine ⟨{ s with heap }, some p, _, ?_, ⟨chain', ?_, ?_, fun _ _ => rfl, rfl⟩, ?_⟩
      · simp only [bind_eq_bind, bind_some, cell, written, Option.pure_def]
      · rw [map_append, map_append, map_cons, map_cons]
      · grind
      · rw [effect, map_append]
        exact congrArg (front.map snd ++ ·) (if_pos same).symm
    | remove addr =>
      rw [show VccOp.effect (.remove addr) (((p, info) :: back).map snd) = back.map snd
        from if_pos same, ← map_append] at effect
      have sublist : ((front ++ back).map fst).Sublist
          ((front ++ (p, info) :: back).map fst) :=
        ((sublist_cons_self _ _).append_left front).map _
      simp only [bind_eq_bind, bind_some, cell, Option.pure_def]
      rcases eq_nil_or_concat' front with rfl | ⟨front, ⟨prev, other⟩, rfl⟩
      · -- The first record: the head of the chain is changed.
        obtain ⟨-, next', cell', tail⟩ := Segment.head_eq chain
        rw [cell, some_inj, Cell.mk.injEq] at cell'
        obtain ⟨-, rfl⟩ := cell'
        refine ⟨_, _, back, rfl, ⟨?_, sublist, fun q outside => ?_, fun b other => ?_, rfl⟩,
          effect.symm⟩
        · dsimp only [VccOp.addr]
          rw [update_self]
          exact tail.update (nodup_cons.mp chain.nodup).1 none
        · grind
        · exact update_of_ne other ..
      · rw [append_assoc, singleton_append] at chain
        obtain ⟨next', prevCell, cell', -, -, bypassed⟩ := Chain.bypass chain
        rw [cell, some_inj, Cell.mk.injEq] at cell'
        obtain ⟨-, rfl⟩ := cell'
        rw [map_append, map_singleton, getLastD_concat]
        simp only [setNext, prevCell, map_some, bind_some]
        refine ⟨_, _, _, rfl, ⟨?_, sublist, fun q outside => ?_, fun _ _ => rfl, rfl⟩, effect.symm⟩
        · grind
        · have notPrev : q ≠ prev := by
            rintro rfl
            exact outside (by simp)
          have notCurr : q ≠ p := by
            rintro rfl
            exact outside inside
          exact (update_of_ne notCurr ..).trans (update_of_ne notPrev ..)

end Chains

/-! ## Runs -/

section Runs

variable {P : Type}

def addrs (cells : List (P × AtmVccInfo)) : List AtmVccAddr :=
  (cells.map Prod.snd).map AtmVccInfo.addr

structure Sound (s : VccSystem P) (chain : Nat → List (P × AtmVccInfo)) : Prop where
  chains : ∀ b, Chain s.heap (s.pVccInfos b) (chain b)
  placed : ∀ b, ∀ addr ∈ addrs (chain b), addr.hashValue = b
  distinct : ∀ b, (addrs (chain b)).Nodup
  adding : ∀ t info p, s.thread t = .adding info p →
    s.heap p = some ⟨info, none⟩ ∧ ∀ b, p ∉ (chain b).map Prod.fst
  alone : ∀ t t' info info' p, s.thread t = .adding info p → s.thread t' = .adding info' p → t = t'

variable {s s' : VccSystem P} {chain : Nat → List (P × AtmVccInfo)} {b b' : Nat} {p : P}

def Represents (s : VccSystem P) (infos : Nat → List AtmVccInfo) : Prop :=
  ∃ chain, Sound s chain ∧ (fun b => (chain b).map Prod.snd) = infos

theorem represents_init : Represents (vccInit P) fun _ => [] :=
  ⟨fun _ => [], ⟨fun _ => .nil none, fun _ _ mem => absurd mem not_mem_nil,
    fun _ => nodup_nil, fun _ _ _ adds => (nomatch adds),
    fun _ _ _ _ _ adds => (nomatch adds)⟩, rfl⟩

theorem Sound.bucket_unique (sound : Sound s chain) (mem : p ∈ (chain b).map fst)
    (mem' : p ∈ (chain b').map fst) : b = b' := by
  obtain ⟨⟨q, info⟩, inChain, rfl⟩ := mem_map.mp mem
  obtain ⟨⟨q', info'⟩, inChain', same⟩ := mem_map.mp mem'
  obtain rfl : q' = q := same
  obtain ⟨next, cell⟩ := Chain.cell (sound.chains b) inChain
  obtain ⟨next', cell'⟩ := Chain.cell (sound.chains b') inChain'
  rw [cell, some_inj, Cell.mk.injEq] at cell'
  obtain ⟨rfl, -⟩ := cell'
  rw [← sound.placed b _ (mem_map_of_mem (mem_map_of_mem inChain)),
    ← sound.placed b' _ (mem_map_of_mem (mem_map_of_mem inChain'))]

theorem Sound.goto (sound : Sound s chain) (t : Nat) {thread : VccThread P}
    (free : ∀ info p, thread ≠ .adding info p) : Sound (s.goto t thread) chain := by
  have before {u : Nat} {info : AtmVccInfo} {p : P}
      (adds : (s.goto t thread).thread u = .adding info p) : s.thread u = .adding info p := by
    by_cases same : u = t
    · subst same
      exact absurd ((update_self ..).symm.trans adds) (free info p)
    · exact (update_of_ne same ..).symm.trans adds
  exact ⟨sound.chains, sound.placed, sound.distinct,
    fun u info p adds => sound.adding u info p (before adds),
    fun u u' info info' p adds adds' => sound.alone u u' info info' p (before adds) (before adds')⟩

theorem Sound.rechained {cells : List (P × AtmVccInfo)} (sound : Sound s chain)
    (rechained : Rechained s s' b (chain b) cells)
    (sublist : (addrs cells).Sublist (addrs (chain b))) :
    Sound s' (update chain b cells) where
  chains := by
    refine (forall_update_iff chain fun b' cells =>
      Chain s'.heap (s'.pVccInfos b') cells).mpr ⟨rechained.chain, fun b' other => ?_⟩
    rw [rechained.heads b' other]
    refine (sound.chains b').congr fun p mem => rechained.heap p fun mem' => ?_
    exact other (sound.bucket_unique mem mem')
  placed :=
    (forall_update_iff chain fun b' cells => ∀ addr ∈ addrs cells, addr.hashValue = b').mpr
      ⟨fun addr mem => sound.placed b addr (sublist.subset mem), fun b' _ => sound.placed b'⟩
  distinct :=
    (forall_update_iff chain fun _ cells => (addrs cells).Nodup).mpr
      ⟨sublist.nodup (sound.distinct b), fun b' _ => sound.distinct b'⟩
  adding t info p adds := by
    rw [rechained.thread] at adds
    obtain ⟨cell, outside⟩ := sound.adding t info p adds
    refine ⟨(rechained.heap p (outside b)).trans cell, ?_⟩
    exact (forall_update_iff chain fun _ cells => p ∉ cells.map fst).mpr
      ⟨fun mem => outside b (rechained.sublist.subset mem), fun b' _ => outside b'⟩
  alone := by
    rw [rechained.thread]
    exact sound.alone

variable [DecidableEq P]

theorem Sound.allocated (sound : Sound s chain) (t : Nat) (info : AtmVccInfo)
    (unused : s.heap p = none) :
    Sound ({ s with heap := update s.heap p (some ⟨info, none⟩) }.goto t (.adding info p))
      chain := by
  have outside (b : Nat) : p ∉ (chain b).map fst := by
    intro mem
    obtain ⟨⟨q, item⟩, inChain, rfl⟩ := mem_map.mp mem
    obtain ⟨next, cell⟩ := Chain.cell (sound.chains b) inChain
    exact absurd (unused.symm.trans cell) nofun
  have others {u : Nat} {item : AtmVccInfo} {q : P} (adds : s.thread u = .adding item q) :
      q ≠ p := by
    rintro rfl
    exact absurd (unused.symm.trans (sound.adding u item q adds).1) nofun
  refine ⟨fun b => (sound.chains b).update (outside b) _, sound.placed, sound.distinct, ?_, ?_⟩
  · refine (forall_update_iff s.thread fun _ thread => ∀ item q, thread = .adding item q →
      update s.heap p (some ⟨info, none⟩) q = some ⟨item, none⟩ ∧
        ∀ b, q ∉ (chain b).map fst).mpr ⟨?_, fun u _ item q adds => ?_⟩
    · rintro item q ⟨⟩
      exact ⟨update_self .., outside⟩
    · rw [update_of_ne (others adds)]
      exact sound.adding u item q adds
  · intro u u' item item' q adds adds'
    by_cases same : u = t <;> by_cases same' : u' = t
    · rw [same, same']
    · subst same
      cases (update_self ..).symm.trans adds
      exact absurd rfl (others ((update_of_ne same' ..).symm.trans adds'))
    · subst same'
      cases (update_self ..).symm.trans adds'
      exact absurd rfl (others ((update_of_ne same ..).symm.trans adds))
    · exact sound.alone u u' item item' q ((update_of_ne same ..).symm.trans adds)
        ((update_of_ne same' ..).symm.trans adds')

theorem Sound.added (sound : Sound s chain) {t : Nat} {info : AtmVccInfo}
    (adds : s.thread t = .adding info p) (missing : info.addr ∉ addrs (chain info.addr.hashValue)) :
    Sound ({ s with
        heap := update s.heap p (some ⟨info, s.pVccInfos info.addr.hashValue⟩)
        pVccInfos := update s.pVccInfos info.addr.hashValue (some p) }.goto t .idle)
      (update chain info.addr.hashValue ((p, info) :: chain info.addr.hashValue)) := by
  obtain ⟨cell, outside⟩ := sound.adding t info p adds
  have others {u : Nat} {item : AtmVccInfo} {q : P}
      (adds' : update s.thread t .idle u = .adding item q) :
      s.thread u = .adding item q ∧ q ≠ p := by
    have different : u ≠ t := by grind
    have adds' := (update_of_ne different ..).symm.trans adds'
    refine ⟨adds', ?_⟩
    rintro rfl
    exact different (sound.alone u t item info q adds' adds)
  refine ⟨?_, ?_, ?_, fun u item q adds' => ?_, fun u u' item item' q adds' adds'' => ?_⟩
  · intro b
    dsimp only [VccSystem.goto]
    by_cases same : b = info.addr.hashValue
    · subst same
      rw [update_self, update_self]
      exact .cons (update_self ..) ((sound.chains _).update (outside _) _)
    · rw [update_of_ne same, update_of_ne same]
      exact (sound.chains b).update (outside b) _
  · refine (forall_update_iff chain fun b cells =>
      ∀ addr ∈ addrs cells, addr.hashValue = b).mpr ⟨?_, fun b _ => sound.placed b⟩
    exact forall_mem_cons.mpr ⟨rfl, sound.placed _⟩
  · refine (forall_update_iff chain fun _ cells => (addrs cells).Nodup).mpr
      ⟨?_, fun b _ => sound.distinct b⟩
    exact nodup_cons.mpr ⟨missing, sound.distinct _⟩
  · obtain ⟨before, different⟩ := others adds'
    obtain ⟨cell', outside'⟩ := sound.adding u item q before
    refine ⟨(update_of_ne different ..).trans cell', ?_⟩
    refine (forall_update_iff chain fun _ cells => q ∉ cells.map fst).mpr
      ⟨?_, fun b _ => outside' b⟩
    exact fun mem => (mem_cons.mp mem).elim different (outside' _)
  · exact sound.alone u u' item item' q (others adds').1 (others adds'').1

variable [Fintype P]

def UpToDate (s : VccSystem P) : VccMove P → Prop
  | .call .. => True
  | .run t _ =>
    match s.thread t with
    | .searching op pInfo => pInfo = s.pVccInfos op.addr.hashValue
    | .adding info _ =>
      (search s.heap info.addr (s.pVccInfos info.addr.hashValue)).map Prod.snd = some none
    | _ => True

instance (s : VccSystem P) (move : VccMove P) : Decidable (UpToDate s move) := by
  unfold UpToDate
  split
  · infer_instance
  · split <;> infer_instance

def takeEffect (infos : Nat → List AtmVccInfo) (s : VccSystem P) :
    VccMove P → Nat → List AtmVccInfo
  | .call .. => infos
  | .run t _ =>
    match s.thread t with
    | .searching op _ =>
      update infos op.addr.hashValue (op.effect (infos op.addr.hashValue))
    | .adding info _ =>
      update infos info.addr.hashValue (info :: infos info.addr.hashValue)
    | _ => infos

/-- **A step** of a thread that is up to date has no fault and takes effect on the sequential
table. -/
theorem Sound.step (sound : Sound s chain) {move : VccMove P} (upToDate : UpToDate s move) :
    (vccStep s move).1 ≠ .fault ∧ ∃ chain', Sound (vccStep s move).2 chain' ∧
      ∀ b, (chain' b).map snd = takeEffect (fun b => (chain b).map snd) s move b := by
  cases move with
  | call t op =>
    rw [vccStep]
    split
    · exact ⟨by simp, chain, sound.goto t (by simp), fun _ => rfl⟩
    · exact ⟨by simp, chain, sound, fun _ => rfl⟩
  | run t alloc =>
    rw [vccStep]
    simp only [takeEffect]
    simp only [UpToDate] at upToDate
    cases at_ : s.thread t with
    | idle => exact ⟨by simp, chain, sound, fun _ => rfl⟩
    | searching op pInfo =>
      simp only [at_] at upToDate
      subst upToDate
      obtain ⟨s', found, cells, under, rechained, effect⟩ :=
        underSem_chain (sound.chains op.addr.hashValue)
      have after := sound.rechained rechained
        (by rw [addrs, effect]; exact op.addr_effect_sublist _)
      have infos := apply_update (fun _ => List.map snd) chain op.addr.hashValue cells
      rw [effect] at infos
      simp only [under]
      cases op with
      | get | remove => exact ⟨by simp, _, after.goto t (by simp), infos⟩
      | addReplace =>
        cases found with
        | none | some => exact ⟨by simp, _, after.goto t (by simp), infos⟩
    | missing info =>
      dsimp only
      split
      next => exact ⟨by simp, chain, sound.goto t (by simp), fun _ => rfl⟩
      next p given =>
        have unused : s.heap p = none := by
          have free := (filter_eq_some_iff.mp given).2
          simpa using free
        exact ⟨by simp, chain, sound.allocated t info unused, fun _ => rfl⟩
    | adding info p =>
      simp only [at_] at upToDate
      have missing : info.addr ∉ addrs (chain info.addr.hashValue) := by
        rcases search_chain (sound.chains info.addr.hashValue) info.addr with
          ⟨prev, searched, missing⟩ | ⟨front, q, item, back, _, _, _, searched⟩
        · simpa [addrs] using missing
        · rw [searched] at upToDate
          cases upToDate
      obtain ⟨cell, -⟩ := sound.adding t info p at_
      simp only [setNext, cell, map_some]
      exact ⟨by simp, _, sound.added at_ missing, apply_update (fun _ => List.map snd)
        chain info.addr.hashValue ((p, info) :: chain info.addr.hashValue)⟩

theorem Represents.step {infos : Nat → List AtmVccInfo} (represents : Represents s infos)
    {move : VccMove P} (upToDate : UpToDate s move) :
    (vccStep s move).1 ≠ .fault ∧ Represents (vccStep s move).2 (takeEffect infos s move) := by
  obtain ⟨chain, sound, rfl⟩ := represents
  obtain ⟨noFault, chain', next, effect⟩ := sound.step upToDate
  exact ⟨noFault, chain', next, funext effect⟩

end Runs

/-- **The table with several threads.** In every run in which what a thread has seen is still so
when it gets the semaphore, no record is followed or freed after it was freed, every chain has at
most one record of an address, and the records are those that the operations leave in the
sequential table when each takes effect under its semaphore. -/
theorem vccTable_run {P : Type} [DecidableEq P] [Fintype P] (moves : List (VccMove P))
    (upToDate : ∀ t ∈ history vccStep (vccInit P) moves, UpToDate t.before t.call) :
    (∀ t ∈ history vccStep (vccInit P) moves, t.out ≠ .fault) ∧
      ∀ b, ∃ cells, Chain (final vccStep (vccInit P) moves).heap
          ((final vccStep (vccInit P) moves).pVccInfos b) cells ∧
        (addrs cells).Nodup ∧
        cells.map Prod.snd = (history vccStep (vccInit P) moves).foldl
          (fun infos t => takeEffect infos t.before t.call) (fun _ => []) b := by
  have step {u} (mem : u ∈ history vccStep (vccInit P) moves) {infos : Nat → List AtmVccInfo}
      (represents : Represents u.before infos) :
      u.out ≠ .fault ∧ Represents u.after (takeEffect infos u.before u.call) := by
    have stepped := represents.step (upToDate u mem)
    rwa [step_of_mem mem] at stepped
  constructor
  · intro t mem
    obtain ⟨infos, represents⟩ := holds_before (I := fun s => ∃ infos, Represents s infos)
      ⟨_, represents_init⟩ (fun u mem ⟨infos, represents⟩ => ⟨_, (step mem represents).2⟩) mem
    exact (step mem represents).1
  · obtain ⟨chain, sound, same⟩ := folded_final (I := Represents)
      (fun infos t => takeEffect infos t.before t.call) represents_init
      fun u mem infos represents => (step mem represents).2
    exact fun b => ⟨chain b, sound.chains b, sound.distinct b, congrFun same b⟩

/-- One thread adds a record, finds it and removes it; the memory serves for a second record. -/
theorem vccTable_run_oneThread :
    let cfg : AtmVccCfg := ⟨idAtmVccCfg, admstsUp, oprstsUp, 0, []⟩
    let moves : List (VccMove (Fin 1)) :=
      [.call 0 (.addReplace ⟨1, 0, 35⟩ cfg 0), .run 0 none, .run 0 (some 0), .run 0 none,
        .call 0 (.get ⟨1, 0, 35⟩), .run 0 none, .call 0 (.remove ⟨1, 0, 35⟩), .run 0 none,
        .call 0 (.addReplace ⟨1, 0, 51⟩ cfg 0), .run 0 none, .run 0 (some 0), .run 0 none]
    (∀ t ∈ history vccStep (vccInit (Fin 1)) moves, t.out ≠ .fault) ∧
      items (final vccStep (vccInit (Fin 1)) moves).heap 1
        ((final vccStep (vccInit (Fin 1)) moves).pVccInfos 3) = some [⟨⟨1, 0, 51⟩, cfg, 0, 0⟩] :=
  ⟨(vccTable_run _ (by decide)).1, by decide⟩

/-- Two threads add a record of one address, and the chain has both. Two threads remove a record:
each has read the head of the chain before the other had the semaphore, and the second follows and
frees what the first has freed. -/
theorem vccTable_races :
    let cfg : AtmVccCfg := ⟨idAtmVccCfg, admstsUp, oprstsUp, 0, []⟩
    let add (t : Nat) : VccMove (Fin 2) := .call t (.addReplace ⟨1, 0, 35⟩ cfg 0)
    let both := [add 0, add 1, .run 0 none, .run 1 none, .run 0 (some 0), .run 1 (some 1),
      .run 0 none, .run 1 none]
    let removed := [add 0, .run 0 none, .run 0 (some 0), .run 0 none,
      .call 0 (.remove ⟨1, 0, 35⟩), .call 1 (.remove ⟨1, 0, 35⟩), .run 0 none]
    items (final vccStep (vccInit (Fin 2)) both).heap 2
        ((final vccStep (vccInit (Fin 2)) both).pVccInfos 3) =
        some [⟨⟨1, 0, 35⟩, cfg, 0, 0⟩, ⟨⟨1, 0, 35⟩, cfg, 0, 0⟩] ∧
      (vccStep (final vccStep (vccInit (Fin 2)) removed) (.run 1 none)).1 = .fault := by
  decide

end EchoLife.Atm
