import EchoLife.Atm.Priority
import Mathlib.Data.List.TakeWhile

/-!
# Runs of the priority configuration

`PriorityConfig` is what the calls ask for, and `Follows` says that the processor classifies packets
by it. It does as long as only the VCC with the number 0 is configured, and with four different
groups at most (`isHighPriorityPkt_follows`); `isHighPriorityPkt_ignores_vcc` is a run with two
VCCs where it does not.
-/

namespace EchoLife.Atm

open List Option Function AtmProcessor

/-! ## What the calls ask for -/

def AtmVccCfg.numbers (cfg : AtmVccCfg) : List Nat :=
  cfg.ulPriorityPacketGroupNumbers.takeWhile (· ≠ 0)

def validEntries (bufSize : UInt16) (entries : List AtmPriorityPacketEntry) :
    List AtmPriorityPacketEntry :=
  entries.takeWhile fun entry =>
    entry.ulStructureId = idAtmPriorityPacketEntry ∧ entry.ulPacketOffset < bufSize.toUInt32

structure PriorityConfig where
  groups : Nat → List AtmPriorityPacketEntry
  present : AtmVccAddr → Bool
  listed : AtmVccAddr → List Nat

namespace PriorityConfig

def initial : PriorityConfig := ⟨fun _ => [], fun _ => false, fun _ => []⟩

def step (bufSize : UInt16) (interfaces : List AtmInterface) (c : PriorityConfig) :
    PriorityCall → PriorityConfig
  | .setPriorityPacketGroup number packets size =>
    if 1 ≤ number ∧ number ≤ numPriPktGroups ∧ size ≤ numEntriesPerPriPktGroup then
      let entries := validEntries bufSize ((packets.getD []).take size)
      { c with
        groups := update c.groups number entries
        listed := if entries = [] then fun addr => (c.listed addr).filter (· ≠ number)
          else c.listed }
    else c
  | .setVccCfg addr none _ _ => { c with present := update c.present addr false }
  | .setVccCfg addr (some cfg) _ alloc =>
    if cfg.ulStructureId = idAtmVccCfg ∧
        (∃ i ∈ interfaces, i.ulInterfaceId = addr.ulInterfaceId) ∧ (c.present addr ∨ alloc) then
      { c with
        present := update c.present addr true
        listed := update c.listed addr cfg.numbers }
    else c

def run (bufSize : UInt16) (interfaces : List AtmInterface) (calls : List PriorityCall)
    (c : PriorityConfig) : PriorityConfig :=
  calls.foldl (step bufSize interfaces) c

def HighPriority (c : PriorityConfig) (addr : AtmVccAddr) (pucPkt : Nat → UInt8) : Prop :=
  ∃ number ∈ c.listed addr, c.groups number ≠ [] ∧
    ∀ entry ∈ c.groups number, entry.matchesPkt pucPkt

end PriorityConfig

structure Follows (p : AtmProcessor) (c : PriorityConfig) (attachment : Attachment) : Prop where
  classified : ∀ addr ucRxPortIdVcid pucPkt,
    attachment.vcid addr = some (ucRxPortIdVcid &&& bdRxVcidMask).toNat →
    (p.isHighPriorityPkt ucRxPortIdVcid pucPkt = true ↔ c.HighPriority addr pucPkt)
  returned : ∀ addr,
    (p.getVccCfg addr).map AtmVccCfg.numbers =
      if c.present addr then some (c.listed addr) else none

structure AtmVccCfg.Valid (cfg : AtmVccCfg) : Prop where
  few : cfg.numbers.length ≤ numPriPktGroups
  valid : ∀ number ∈ cfg.numbers, number ≤ numPriPktGroups
  padded : cfg.ulPriorityPacketGroupNumbers =
    cfg.numbers ++ replicate (numPriPktGroups - cfg.numbers.length) 0

def PriorityCall.Served (attachment : Attachment) : PriorityCall → Prop
  | .setVccCfg addr (some cfg) _ _ =>
    attachment.vcid addr = some 0 ∧ cfg.numbers.length ≤ 4 ∧ cfg.numbers.Nodup
  | _ => True

def PriorityCall.Valid : PriorityCall → Prop
  | .setVccCfg _ (some cfg) _ _ => cfg.Valid
  | _ => True

/-! ## The rows -/

def numbersRow (size : Nat) (numbers : List Nat) : List Nat :=
  numbers ++ replicate (size - numbers.length) 0

def groupRow (entries : List AtmPriorityPacketEntry) : List AtmPriorityPacketEntry :=
  entries ++ replicate (numEntriesPerPriPktGroup + 1 - entries.length) zeroEntry

theorem copyEntries_fst (bufSize : UInt16) (entries : List AtmPriorityPacketEntry) :
    (copyEntries bufSize entries).1 = validEntries bufSize entries := by
  induction entries with
  | nil => rfl
  | cons entry rest ih =>
    rw [copyEntries, validEntries, takeWhile_cons]
    split
    next valid => simp only [valid, decide_true, and_self, if_true, ih, validEntries]
    next invalid => simp only [invalid, decide_false, Bool.false_eq_true, if_false]

variable {entries : List AtmPriorityPacketEntry}

theorem id_of_mem_validEntries {bufSize : UInt16} {entry : AtmPriorityPacketEntry}
    (mem : entry ∈ validEntries bufSize entries) :
    entry.ulStructureId = idAtmPriorityPacketEntry := by
  have valid := mem_takeWhile_imp mem
  simp only [decide_eq_true_eq] at valid
  exact valid.1

theorem groupMatches_groupRow
    (ids : ∀ entry ∈ entries, entry.ulStructureId = idAtmPriorityPacketEntry)
    (few : entries.length ≤ numEntriesPerPriPktGroup) (pucPkt : Nat → UInt8) :
    groupMatches pucPkt (groupRow entries) = true ↔
      entries ≠ [] ∧ ∀ entry ∈ entries, entry.matchesPkt pucPkt := by
  have all (k : Nat) : entriesMatch pucPkt (entries ++ replicate k zeroEntry) = true ↔
      ∀ entry ∈ entries, entry.matchesPkt pucPkt := by
    clear few
    induction entries with
    | nil =>
      cases k <;> simp [entriesMatch, replicate_succ, zeroEntry, idAtmPriorityPacketEntry]
    | cons entry rest ih =>
      have tail := ih fun e mem => ids e (mem_cons_of_mem _ mem)
      rw [cons_append, entriesMatch, if_pos (ids entry mem_cons_self)]
      by_cases found : entry.matchesPkt pucPkt = true
      · simp [found, tail]
      · simp [found]
  cases entries with
  | nil => simp [groupMatches, groupRow, zeroEntry, idAtmPriorityPacketEntry, replicate_succ]
  | cons entry rest =>
    have first := ids entry mem_cons_self
    have same : groupMatches pucPkt (groupRow (entry :: rest)) =
        entriesMatch pucPkt (groupRow (entry :: rest)) := if_pos first
    rw [same, groupRow, all]
    simp

section

variable {numbers : List Nat} (nonzero : ∀ number ∈ numbers, number ≠ 0)

theorem numbersRow_cons (size number : Nat) (rest : List Nat) :
    numbersRow (size + 1) (number :: rest) = number :: numbersRow size rest := by
  simp [numbersRow]

include nonzero in
theorem shiftLeft_numbersRow {size : Nat} (ends : numbers.length < size) :
    shiftLeft (numbersRow size numbers) = numbersRow (size + 1) numbers := by
  induction numbers generalizing size with
  | nil =>
    obtain ⟨size, rfl⟩ := Nat.exists_eq_add_of_lt ends
    simp [numbersRow, shiftLeft, replicate_succ]
  | cons number rest ih =>
    obtain ⟨size, rfl⟩ : ∃ k, size = k + 1 := ⟨size - 1, by omega⟩
    rw [length_cons] at ends
    have here := nonzero number mem_cons_self
    have tail := ih (fun n mem => nonzero n (mem_cons_of_mem _ mem))
      (show rest.length < size by omega)
    rw [numbersRow_cons, numbersRow_cons, shiftLeft, if_neg here, tail]

include nonzero in
theorem removeGroup_numbersRow (nodup : numbers.Nodup) {size : Nat} (ends : numbers.length < size)
    (group : Nat) :
    removeGroup group (numbersRow size numbers) =
      numbersRow size (numbers.filter (· ≠ group)) := by
  induction numbers generalizing size with
  | nil =>
    obtain ⟨size, rfl⟩ := Nat.exists_eq_add_of_lt ends
    simp [numbersRow, removeGroup, replicate_succ]
  | cons number rest ih =>
    obtain ⟨size, rfl⟩ : ∃ k, size = k + 1 := ⟨size - 1, by omega⟩
    rw [length_cons] at ends
    have here := nonzero number mem_cons_self
    have others : ∀ n ∈ rest, n ≠ 0 := fun n mem => nonzero n (mem_cons_of_mem _ mem)
    obtain ⟨once, nodup⟩ := nodup_cons.mp nodup
    rw [numbersRow_cons, removeGroup, if_neg here]
    by_cases found : number = group
    · subst found
      have kept : rest.filter (· ≠ number) = rest := by
        rw [filter_eq_self]
        intro n mem
        have : n ≠ number := fun eq => once (eq ▸ mem)
        simpa using this
      rw [if_pos rfl, shiftLeft_numbersRow others (by omega), filter_cons_of_neg (by simp),
        kept]
    · rw [if_neg found, ih others nodup (by omega), filter_cons_of_pos (by simpa using found),
        numbersRow_cons]

include nonzero in
theorem takeWhile_numbersRow (size : Nat) :
    (numbersRow size numbers).takeWhile (· ≠ 0) = numbers := by
  rw [numbersRow, takeWhile_append_of_pos (by simpa using nonzero)]
  cases size - numbers.length with
  | zero => simp
  | succ k => simp [replicate_succ]

include nonzero in
theorem anyGroup_numbersRow (p : AtmProcessor) (pucPkt : Nat → UInt8) (size : Nat) :
    p.anyGroup pucPkt (numbersRow size numbers) = true ↔
      ∃ number ∈ numbers, groupMatches pucPkt (p.priPktGroups (number - 1)) = true := by
  rw [numbersRow]
  generalize size - numbers.length = k
  induction numbers with
  | nil => cases k <;> simp [anyGroup, replicate_succ]
  | cons number rest ih =>
    have here := nonzero number mem_cons_self
    have tail := ih fun n mem => nonzero n (mem_cons_of_mem _ mem)
    rw [cons_append, anyGroup, if_neg here]
    by_cases found : groupMatches pucPkt (p.priPktGroups (number - 1)) = true
    · simp [found]
    · simp [found, tail]

end

theorem memcpyWords_numbersRow {old new : List Nat} (few_old : old.length ≤ 4)
    (few_new : new.length ≤ 4) {a b : Nat} (le_a : 4 ≤ a) (le_b : 4 ≤ b) :
    memcpyWords (numbersRow b old) (numbersRow a new) numPriPktGroups = numbersRow b new := by
  have four : numPriPktGroups / 4 = 4 := rfl
  rw [memcpyWords, four, numbersRow, numbersRow, take_append, drop_append,
    take_of_length_le few_new, drop_of_length_le few_old, take_replicate,
    drop_replicate, nil_append, append_assoc, replicate_append_replicate,
    numbersRow]
  congr 2
  omega

theorem drop_groupRow (few : entries.length ≤ numEntriesPerPriPktGroup) :
    (groupRow entries).drop numEntriesPerPriPktGroup = [zeroEntry] := by
  have one : numEntriesPerPriPktGroup + 1 - entries.length -
      (numEntriesPerPriPktGroup - entries.length) = 1 := by omega
  rw [groupRow, drop_append, drop_of_length_le few, drop_replicate, one]
  rfl

theorem groupRow_eq (few : entries.length ≤ numEntriesPerPriPktGroup) :
    entries ++ replicate (numEntriesPerPriPktGroup - entries.length) zeroEntry ++
      [zeroEntry] = groupRow entries := by
  have next : numEntriesPerPriPktGroup + 1 - entries.length =
      numEntriesPerPriPktGroup - entries.length + 1 := by omega
  rw [groupRow, next, replicate_succ', append_assoc]

theorem head_groupRow (ids : ∀ entry ∈ entries, entry.ulStructureId = idAtmPriorityPacketEntry)
    (few : entries.length ≤ numEntriesPerPriPktGroup) :
    (groupRow entries).head?.map AtmPriorityPacketEntry.ulStructureId =
      some idAtmPriorityPacketEntry ↔ entries ≠ [] := by
  cases entries with
  | nil => simp [groupRow, replicate_succ, zeroEntry, idAtmPriorityPacketEntry]
  | cons entry rest => simp [groupRow, ids entry mem_cons_self]

/-! ## The table of the VCCs -/

theorem find_replaceInfo (addr other : AtmVccAddr) (cfg : AtmVccCfg) (i : Nat)
    (bucket : List AtmVccInfo) :
    (replaceInfo addr cfg i bucket).find? (fun info => info.addr = other) =
      if other = addr then
        (bucket.find? fun info => info.addr = addr).map fun info =>
          { info with addr := addr, cfg := cfg, pInterface := i }
      else bucket.find? fun info => info.addr = other := by
  induction bucket with
  | nil => simp [replaceInfo]
  | cons info rest ih =>
    rw [replaceInfo]
    by_cases here : info.addr = addr
    · grind
    · by_cases same : other = addr
      · subst same
        simp [here, ih]
      · simp only [if_neg here, find?_cons, ih, if_neg same]

theorem map_addr_replaceInfo (addr : AtmVccAddr) (cfg : AtmVccCfg) (i : Nat)
    (bucket : List AtmVccInfo) :
    (replaceInfo addr cfg i bucket).map AtmVccInfo.addr = bucket.map AtmVccInfo.addr := by
  induction bucket with
  | nil => rfl
  | cons info rest ih =>
    rw [replaceInfo]
    split
    next here => simp [here]
    next => simp [ih]

theorem removeInfo_sublist (addr : AtmVccAddr) (bucket : List AtmVccInfo) :
    (removeInfo addr bucket).Sublist bucket := by
  induction bucket with
  | nil => exact Sublist.refl _
  | cons info rest ih =>
    rw [removeInfo]
    split
    next => exact sublist_cons_self _ _
    next => exact ih.cons_cons info

theorem find_removeInfo {bucket : List AtmVccInfo} (distinct : (bucket.map AtmVccInfo.addr).Nodup)
    (addr other : AtmVccAddr) :
    (removeInfo addr bucket).find? (fun info => info.addr = other) =
      if other = addr then none else bucket.find? fun info => info.addr = other := by
  induction bucket with
  | nil => simp [removeInfo]
  | cons info rest ih =>
    obtain ⟨once, distinct⟩ := nodup_cons.mp distinct
    rw [removeInfo]
    by_cases here : info.addr = addr
    · grind
    · rw [if_neg here, find?_cons, ih distinct]
      by_cases same : other = addr
      · subst same
        simp [here]
      · simp [find?_cons, same]

namespace AtmProcessor

variable {p : AtmProcessor}

theorem get_update (p : AtmProcessor) (addr other : AtmVccAddr) (bucket : List AtmVccInfo) :
    ({ p with vccInfos := update p.vccInfos addr.hashValue bucket } : AtmProcessor).get
        other =
      if other.hashValue = addr.hashValue then bucket.find? fun info => info.addr = other
      else p.get other := by
  rw [get]
  split
  next same => simp only [same, update_self]
  next apart => simp only [update_of_ne apart, get]

theorem get_remove (distinct : ∀ h, ((p.vccInfos h).map AtmVccInfo.addr).Nodup)
    (addr other : AtmVccAddr) :
    (p.remove addr).get other = if other = addr then none else p.get other := by
  rw [remove, get_update, find_removeInfo (distinct _)]
  by_cases same : other = addr
  · simp [same]
  · rw [if_neg same, if_neg same]
    split
    next bucket => rw [get, bucket]
    next => rfl

theorem addReplace_spec (distinct : ∀ h, ((p.vccInfos h).map AtmVccInfo.addr).Nodup)
    {addr : AtmVccAddr} (row : ∀ info, p.get addr = some info → info.ucVcid = 0) {alloc : Bool}
    (stored : (p.get addr).isSome ∨ alloc = true) (cfg : AtmVccCfg) (i : Nat) :
    ∃ infos, (p.addReplace addr cfg i alloc).1 = { p with vccInfos := infos } ∧
      (∀ h, ((infos h).map AtmVccInfo.addr).Nodup) ∧
      ∀ other, ({ p with vccInfos := infos } : AtmProcessor).get other =
        if other = addr then some ⟨addr, cfg, i, 0⟩ else p.get other := by
  rw [addReplace]
  cases found : p.get addr with
  | some info =>
    refine ⟨_, rfl, ?_, fun other => ?_⟩
    · intro h
      by_cases here : h = addr.hashValue
      · subst here
        rw [update_self, map_addr_replaceInfo]
        exact distinct _
      · rw [update_of_ne here]
        exact distinct h
    · rw [get_update, find_replaceInfo]
      by_cases same : other = addr
      · subst same
        have here : (p.vccInfos other.hashValue).find? (fun info => info.addr = other) =
            some info := found
        rw [if_pos rfl, if_pos rfl, if_pos rfl, here, map_some, row info found]
      · rw [if_neg same, if_neg same]
        split
        next bucket => rw [get, bucket]
        next => rfl
  | none =>
    have room : alloc = true := by simpa [found] using stored
    subst room
    refine ⟨_, rfl, ?_, fun other => ?_⟩
    · intro h
      by_cases here : h = addr.hashValue
      · subst here
        rw [update_self, map_cons, nodup_cons]
        refine ⟨fun mem => ?_, distinct _⟩
        obtain ⟨info, inside, eq⟩ := mem_map.mp mem
        have missing := find?_eq_none.mp found info inside
        exact missing (by simpa using eq)
      · rw [update_of_ne here]
        exact distinct h
    · rw [get_update, find?_cons]
      by_cases same : other = addr
      · subst same
        simp
      · have apart : ¬ addr = other := fun eq => same eq.symm
        simp only [apart, decide_false]
        split
        next bucket => rw [get, bucket]
        next => rfl

end AtmProcessor

/-! ## The invariant -/

structure Tracks (p : AtmProcessor) (c : PriorityConfig) (attachment : Attachment)
    (numbers : List Nat) : Prop where
  groups : ∀ n, 1 ≤ n → n ≤ numPriPktGroups → p.priPktGroups (n - 1) = groupRow (c.groups n)
  ids : ∀ n, ∀ entry ∈ c.groups n, entry.ulStructureId = idAtmPriorityPacketEntry
  size : ∀ n, (c.groups n).length ≤ numEntriesPerPriPktGroup
  rows : ∀ k, p.priPktNumbers k =
    numbersRow (numPriPktGroups + 1) (if k = 0 then numbers else [])
  few : numbers.length ≤ 4
  nodup : numbers.Nodup
  valid : ∀ n ∈ numbers, 1 ≤ n ∧ n ≤ numPriPktGroups
  listed : ∀ addr, c.listed addr = if attachment.vcid addr = some 0 then numbers else []
  present : ∀ addr, c.present addr = (p.get addr).isSome
  infos : ∀ addr info, p.get addr = some info → attachment.vcid addr = some 0 ∧
    info.ucVcid = 0 ∧ ∃ set : List Nat, set.length ≤ 4 ∧
      info.cfg.ulPriorityPacketGroupNumbers = numbersRow numPriPktGroups set
  distinct : ∀ h, ((p.vccInfos h).map AtmVccInfo.addr).Nodup

namespace Tracks

variable {p : AtmProcessor} {c : PriorityConfig} {attachment : Attachment} {numbers : List Nat}

theorem nonzero (tracks : Tracks p c attachment numbers) : ∀ n ∈ numbers, n ≠ 0 := by
  intro n mem
  have := (tracks.valid n mem).1
  omega

theorem initial (bufSize : UInt16) (interfaces : List AtmInterface) (attachment : Attachment) :
    Tracks (AtmProcessor.initial bufSize interfaces) PriorityConfig.initial attachment [] where
  groups _ _ _ := rfl
  ids _ _ mem := absurd mem not_mem_nil
  size _ := Nat.zero_le _
  rows k := by simp [AtmProcessor.initial, numbersRow]
  few := Nat.zero_le _
  nodup := nodup_nil
  valid _ mem := absurd mem not_mem_nil
  listed addr := by simp [PriorityConfig.initial]
  present _ := rfl
  infos _ _ found := by cases found
  distinct _ := nodup_nil

theorem follows (tracks : Tracks p c attachment numbers) : Follows p c attachment where
  classified addr ucRxPortIdVcid pucPkt assigned := by
    rw [isHighPriorityPkt, tracks.rows, PriorityConfig.HighPriority, tracks.listed,
      assigned]
    generalize (ucRxPortIdVcid &&& bdRxVcidMask).toNat = k
    by_cases zero : k = 0
    · subst zero
      rw [if_pos rfl, if_pos rfl, anyGroup_numbersRow tracks.nonzero]
      refine exists_congr fun n => and_congr_right fun mem => ?_
      obtain ⟨ge, le⟩ := tracks.valid n mem
      rw [tracks.groups n ge le, groupMatches_groupRow (tracks.ids n) (tracks.size n)]
    · have apart : ¬ some k = some 0 := fun eq => zero (some.inj eq)
      rw [if_neg zero, if_neg apart, anyGroup_numbersRow (by simp)]
      simp
  returned addr := by
    rw [getVccCfg, tracks.present, tracks.listed]
    cases found : p.get addr with
    | none => simp
    | some info =>
      obtain ⟨assigned, row, set, few_set, words⟩ := tracks.infos addr info found
      have copied : memcpyWords (numbersRow numPriPktGroups set)
          (numbersRow (numPriPktGroups + 1) numbers) numPriPktGroups =
          numbersRow numPriPktGroups numbers :=
        memcpyWords_numbersRow few_set tracks.few (by decide) (by decide)
      simp only [map_some, isSome_some, if_true, AtmVccCfg.numbers, words, row,
        tracks.rows, copied, takeWhile_numbersRow tracks.nonzero, assigned]

/-! ### Setting a group -/

section

variable (tracks : Tracks p c attachment numbers)
include tracks

theorem updateGroup {number : Nat} (ge : 1 ≤ number)
    (ids : ∀ entry ∈ entries, entry.ulStructureId = idAtmPriorityPacketEntry)
    (few : entries.length ≤ numEntriesPerPriPktGroup) :
    Tracks
      { p with priPktGroups := update p.priPktGroups (number - 1) (groupRow entries) }
      { c with groups := update c.groups number entries } attachment numbers := by
  refine { tracks with groups := ?_, ids := ?_, size := ?_ }
  · intro n one_le le
    by_cases here : n = number
    · subst here
      simp only [update_self]
    · have apart : n - 1 ≠ number - 1 := by omega
      simp only [update_of_ne here, update_of_ne apart]
      exact tracks.groups n one_le le
  · intro n entry mem
    by_cases here : n = number
    · subst here
      simp only [update_self] at mem
      exact ids entry mem
    · simp only [update_of_ne here] at mem
      exact tracks.ids n entry mem
  · intro n
    by_cases here : n = number
    · subst here
      simpa only [update_self] using few
    · simpa only [update_of_ne here] using tracks.size n

theorem removeNumber (number : Nat) :
    Tracks { p with priPktNumbers := fun i => removeGroup number (p.priPktNumbers i) }
      { c with listed := fun addr => (c.listed addr).filter (· ≠ number) } attachment
      (numbers.filter (· ≠ number)) := by
  have shorter : (numbers.filter (· ≠ number)).length ≤ numbers.length := length_filter_le _ _
  have few := tracks.few
  have sixteen : numPriPktGroups = 16 := rfl
  refine { tracks with rows := ?_, few := ?_, nodup := ?_, valid := ?_, listed := ?_ }
  · intro k
    simp only [tracks.rows]
    split
    next => exact removeGroup_numbersRow tracks.nonzero tracks.nodup (by omega) number
    next => exact removeGroup_numbersRow (by simp) nodup_nil (by simp) number
  · omega
  · exact tracks.nodup.filter _
  · intro n mem
    exact tracks.valid n (mem_filter.mp mem).1
  · intro addr
    simp only [tracks.listed]
    split
    next => rfl
    next => rfl

theorem setPriorityPacketGroup (number : Nat) (packets : Option (List AtmPriorityPacketEntry))
    (size : Nat) :
    ∃ numbers', Tracks (p.setPriorityPacketGroup number packets size).1
      (c.step p.usFreePktQBufSize p.interfaces (.setPriorityPacketGroup number packets size))
      attachment numbers' := by
  rw [AtmProcessor.setPriorityPacketGroup, PriorityConfig.step]
  split
  next allowed =>
    obtain ⟨ge, le, small⟩ := allowed
    dsimp only
    rw [tracks.groups number ge le, drop_groupRow (tracks.size number), copyEntries_fst]
    generalize eq : validEntries p.usFreePktQBufSize ((packets.getD []).take size) = entries
    have ids : ∀ entry ∈ entries, entry.ulStructureId = idAtmPriorityPacketEntry := by
      intro entry mem
      exact id_of_mem_validEntries (eq ▸ mem)
    have few : entries.length ≤ numEntriesPerPriPktGroup := by
      have taken : (validEntries p.usFreePktQBufSize ((packets.getD []).take size)).length ≤
          ((packets.getD []).take size).length := (List.takeWhile_prefix _).length_le
      rw [eq, length_take] at taken
      omega
    have updated := tracks.updateGroup ge ids few
    simp only [groupRow_eq few, head_groupRow ids few]
    by_cases empty : entries = []
    · rw [if_neg (not_not.mpr empty), if_pos empty]
      exact ⟨_, updated.removeNumber number⟩
    · rw [if_pos empty, if_neg empty]
      exact ⟨_, updated⟩
  next => exact ⟨numbers, tracks⟩

end

/-! ### Setting a configuration -/

section

variable (tracks : Tracks p c attachment numbers)
include tracks

theorem removeVcc (addr : AtmVccAddr) :
    Tracks (p.remove addr) { c with present := update c.present addr false } attachment
      numbers := by
  have get_eq := get_remove tracks.distinct addr
  refine { tracks with present := ?_, infos := ?_, distinct := ?_ }
  · intro other
    rw [get_eq]
    by_cases same : other = addr
    · simp [same]
    · simp only [update_of_ne same, if_neg same, tracks.present]
  · intro other info found
    rw [get_eq] at found
    split at found
    next => cases found
    next => exact tracks.infos other info found
  · intro h
    rw [remove]
    by_cases here : h = addr.hashValue
    · subst here
      simp only [update_self]
      exact ((removeInfo_sublist _ _).map _).nodup (tracks.distinct _)
    · simp only [update_of_ne here]
      exact tracks.distinct h

theorem addVcc {addr : AtmVccAddr} (assigned : attachment.vcid addr = some 0) {cfg : AtmVccCfg}
    (valid : cfg.Valid) (few : cfg.numbers.length ≤ 4) (nodup : cfg.numbers.Nodup) {alloc : Bool}
    (stored : (p.get addr).isSome ∨ alloc = true) {set : AtmVccCfg}
    (words : set.ulPriorityPacketGroupNumbers = cfg.ulPriorityPacketGroupNumbers) (i : Nat) :
    Tracks ((p.addReplace addr set i alloc).1.copyNumbers addr set)
      { c with
        present := update c.present addr true
        listed := update c.listed addr cfg.numbers } attachment cfg.numbers := by
  have row : ∀ info, p.get addr = some info → info.ucVcid = 0 := fun info found =>
    (tracks.infos addr info found).2.1
  obtain ⟨infos, eq, distinct, get_eq⟩ :=
    addReplace_spec tracks.distinct row stored set i
  have here : ({ p with vccInfos := infos } : AtmProcessor).get addr = some ⟨addr, set, i, 0⟩ := by
    rw [get_eq, if_pos rfl]
  have padded : set.ulPriorityPacketGroupNumbers = numbersRow numPriPktGroups cfg.numbers :=
    words.trans valid.padded
  have copied := memcpyWords_numbersRow tracks.few few (show 4 ≤ numPriPktGroups by decide)
    (show 4 ≤ numPriPktGroups + 1 by decide)
  rw [eq, copyNumbers, here]
  refine { tracks with
    rows := ?_, few := few, nodup := nodup, valid := ?_, listed := ?_, present := ?_, infos := ?_
    distinct := distinct }
  · intro k
    by_cases zero : k = 0
    · subst zero
      simp only [update_self, tracks.rows, padded, if_true, copied]
    · simp only [update_of_ne zero, tracks.rows, if_neg zero]
  · intro n mem
    have nonzero := mem_takeWhile_imp mem
    have le := valid.valid n mem
    simp only [decide_eq_true_eq] at nonzero
    omega
  · intro other
    by_cases same : other = addr
    · subst same
      simp only [update_self, if_pos assigned]
    · have apart : attachment.vcid other ≠ some 0 := fun zero =>
        same (attachment.unique other addr 0 zero assigned)
      simp only [update_of_ne same, tracks.listed, if_neg apart]
  · intro other
    have found := get_eq other
    by_cases same : other = addr
    · subst same
      simp only [update_self]
      exact (congrArg Option.isSome here).symm
    · rw [if_neg same] at found
      simp only [update_of_ne same, tracks.present]
      exact (congrArg Option.isSome found).symm
  · intro other info found
    have found : ({ p with vccInfos := infos } : AtmProcessor).get other = some info := found
    rw [get_eq] at found
    split at found
    next same =>
      subst same
      obtain rfl := some.inj found
      exact ⟨assigned, rfl, cfg.numbers, few, padded⟩
    next => exact tracks.infos other info found

theorem setVccCfg {addr : AtmVccAddr} {cfg : Option AtmVccCfg} {tick : UInt32} {alloc : Bool}
    (valid : (PriorityCall.setVccCfg addr cfg tick alloc).Valid)
    (served : (PriorityCall.setVccCfg addr cfg tick alloc).Served attachment) :
    ∃ numbers', Tracks (p.setVccCfg addr cfg tick alloc).1
      (c.step p.usFreePktQBufSize p.interfaces (.setVccCfg addr cfg tick alloc))
      attachment numbers' := by
  cases cfg with
  | none => exact ⟨numbers, tracks.removeVcc addr⟩
  | some cfg =>
    obtain ⟨assigned, few, nodup⟩ := served
    rw [AtmProcessor.setVccCfg, PriorityConfig.step]
    have interface : (p.interfaces.findIdx? fun i => i.ulInterfaceId = addr.ulInterfaceId).isSome =
        p.interfaces.any fun i => i.ulInterfaceId = addr.ulInterfaceId := findIdx?_isSome
    by_cases id : cfg.ulStructureId = idAtmVccCfg
    · rw [if_pos id]
      cases found : p.interfaces.findIdx? fun i => i.ulInterfaceId = addr.ulInterfaceId with
      | none =>
        have missing : ¬ ∃ i ∈ p.interfaces, i.ulInterfaceId = addr.ulInterfaceId := by
          simpa [found] using interface
        rw [if_neg fun all => missing all.2.1]
        exact ⟨numbers, tracks⟩
      | some i =>
        have known : ∃ i ∈ p.interfaces, i.ulInterfaceId = addr.ulInterfaceId := by
          simpa [found] using interface
        by_cases stored : (p.get addr).isSome ∨ alloc = true
        · rw [if_pos ⟨id, known, by rwa [tracks.present]⟩]
          have words : (p.datedCfg addr cfg tick).ulPriorityPacketGroupNumbers =
              cfg.ulPriorityPacketGroupNumbers := rfl
          exact ⟨_, tracks.addVcc assigned valid few nodup stored words i⟩
        · rw [if_neg fun all => stored (by rw [← tracks.present]; exact all.2.2)]
          obtain ⟨missing, full⟩ := not_or.mp stored
          have unchanged : p.addReplace addr (p.datedCfg addr cfg tick) i alloc =
              (p, .allocError) := by
            simp only [AtmProcessor.addReplace, if_neg missing, if_neg full]
          have none : p.get addr = none := by simpa using missing
          have kept : p.copyNumbers addr (p.datedCfg addr cfg tick) = p := by
            rw [AtmProcessor.copyNumbers, none]
          simp only [unchanged, kept]
          exact ⟨numbers, tracks⟩
    · grind

theorem step {call : PriorityCall} (valid : call.Valid) (served : call.Served attachment) :
    ∃ numbers', Tracks (p.step call) (c.step p.usFreePktQBufSize p.interfaces call) attachment
      numbers' := by
  cases call with
  | setPriorityPacketGroup number packets size =>
    exact tracks.setPriorityPacketGroup number packets size
  | setVccCfg addr cfg tick alloc => exact tracks.setVccCfg valid served

end

end Tracks

/-! ## Every run -/

theorem AtmProcessor.step_static (p : AtmProcessor) (call : PriorityCall) :
    (p.step call).usFreePktQBufSize = p.usFreePktQBufSize ∧
      (p.step call).interfaces = p.interfaces := by
  cases call with
  | setPriorityPacketGroup number packets size =>
    rw [step, setPriorityPacketGroup]
    split
    next =>
      dsimp only
      split
      next => exact ⟨rfl, rfl⟩
      next => exact ⟨rfl, rfl⟩
    next => exact ⟨rfl, rfl⟩
  | setVccCfg addr cfg tick alloc =>
    have copied (q : AtmProcessor) (set : AtmVccCfg) :
        (q.copyNumbers addr set).usFreePktQBufSize = q.usFreePktQBufSize ∧
          (q.copyNumbers addr set).interfaces = q.interfaces := by
      rw [copyNumbers]
      split
      next => exact ⟨rfl, rfl⟩
      next => exact ⟨rfl, rfl⟩
    have added (set : AtmVccCfg) (i : Nat) :
        (p.addReplace addr set i alloc).1.usFreePktQBufSize = p.usFreePktQBufSize ∧
          (p.addReplace addr set i alloc).1.interfaces = p.interfaces := by
      rw [addReplace]
      split
      next => exact ⟨rfl, rfl⟩
      next =>
        split
        next => exact ⟨rfl, rfl⟩
        next => exact ⟨rfl, rfl⟩
    rw [step]
    unfold setVccCfg
    split
    next => exact ⟨rfl, rfl⟩
    next =>
      split
      next =>
        split
        next => exact ⟨rfl, rfl⟩
        next =>
          rw [(copied _ _).1, (copied _ _).2]
          exact added _ _
      next => exact ⟨rfl, rfl⟩

theorem Tracks.run {p : AtmProcessor} {c : PriorityConfig} {attachment : Attachment}
    {numbers : List Nat} (tracks : Tracks p c attachment numbers) {calls : List PriorityCall}
    (valid : ∀ call ∈ calls, call.Valid) (served : ∀ call ∈ calls, call.Served attachment) :
    ∃ numbers', Tracks (p.run calls) (c.run p.usFreePktQBufSize p.interfaces calls) attachment
      numbers' := by
  induction calls generalizing p c numbers with
  | nil => exact ⟨numbers, tracks⟩
  | cons call rest ih =>
    obtain ⟨numbers', tracks'⟩ :=
      tracks.step (valid call mem_cons_self) (served call mem_cons_self)
    obtain ⟨bufSize, interfaces⟩ := p.step_static call
    have later := ih tracks' (fun call mem => valid call (mem_cons_of_mem _ mem))
      (fun call mem => served call (mem_cons_of_mem _ mem))
    rw [bufSize, interfaces] at later
    exact later

/-- **The processor follows the calls** as long as only the VCC with the number 0 is configured, and
with four different groups at most. -/
theorem isHighPriorityPkt_follows (bufSize : UInt16) (interfaces : List AtmInterface)
    (attachment : Attachment) {calls : List PriorityCall} (valid : ∀ call ∈ calls, call.Valid)
    (served : ∀ call ∈ calls, call.Served attachment) :
    Follows ((AtmProcessor.initial bufSize interfaces).run calls)
      (PriorityConfig.initial.run bufSize interfaces calls) attachment := by
  obtain ⟨numbers, tracks⟩ := (Tracks.initial bufSize interfaces attachment).run valid served
  exact tracks.follows

/-! ## Two VCCs -/

def firstVcc : AtmVccAddr := ⟨1, 0, 32⟩
def secondVcc : AtmVccAddr := ⟨1, 0, 33⟩

def twoVccs : Attachment where
  vcid addr := if addr = firstVcc then some 0 else if addr = secondVcc then some 1 else none
  small addr k assigned := by
    split at assigned
    · cases assigned; decide
    · split at assigned
      · cases assigned; decide
      · cases assigned
  unique addr addr' k assigned assigned' := by
    split at assigned <;> split at assigned' <;> grind

def ipEntry : AtmPriorityPacketEntry := ⟨1, 0, 0x4500, 0xff00⟩

def groupOneCfg : AtmVccCfg := ⟨3, 1, 0, 0, 1 :: replicate 15 0⟩

def phyInterface : List AtmInterface := [⟨1, true, true⟩]

theorem isHighPriorityPkt_follows_firstVcc :
    let calls := [.setPriorityPacketGroup 1 (some [ipEntry]) 1,
      .setVccCfg firstVcc (some groupOneCfg) 50 true]
    let p := (AtmProcessor.initial 2048 phyInterface).run calls
    let c := PriorityConfig.initial.run 2048 phyInterface calls
    p.isHighPriorityPkt 0 (fun _ => 0x45) = true ∧
      (p.getVccCfg firstVcc).map AtmVccCfg.numbers = some [1] ∧ Follows p c twoVccs := by
  refine ⟨by decide +kernel, by decide +kernel,
    isHighPriorityPkt_follows 2048 phyInterface twoVccs ?_ ?_⟩
  · intro call mem
    rcases mem_pair.mp mem with rfl | rfl
    · trivial
    · exact ⟨by decide, by decide, by decide⟩
  · intro call mem
    rcases mem_pair.mp mem with rfl | rfl
    · trivial
    · exact ⟨by decide, by decide, by decide⟩

/-- The group is set for the second VCC, and the packets of the first are of high priority. -/
theorem isHighPriorityPkt_ignores_vcc :
    let calls := [.setPriorityPacketGroup 1 (some [ipEntry]) 1,
      .setVccCfg secondVcc (some groupOneCfg) 50 true]
    let p := (AtmProcessor.initial 2048 phyInterface).run calls
    let c := PriorityConfig.initial.run 2048 phyInterface calls
    groupOneCfg.Valid ∧
      p.isHighPriorityPkt 1 (fun _ => 0x45) = false ∧ c.HighPriority secondVcc (fun _ => 0x45) ∧
      p.isHighPriorityPkt 0 (fun _ => 0x45) = true ∧ c.listed firstVcc = [] ∧
      ¬ Follows p c twoVccs := by
  intro calls p c
  have valid : groupOneCfg.Valid := ⟨by decide, by decide, by decide⟩
  have low : p.isHighPriorityPkt 1 (fun _ => 0x45) = false := by decide +kernel
  have high : c.HighPriority secondVcc (fun _ => 0x45) := by
    have listed : c.listed secondVcc = [1] := by decide +kernel
    have group : c.groups 1 = [ipEntry] := by decide +kernel
    refine ⟨1, by rw [listed]; exact mem_singleton_self 1, ?_⟩
    refine ⟨cons_ne_nil _ _, fun entry mem => ?_⟩
    rw [mem_singleton.mp mem]
    decide +kernel
  refine ⟨valid, low, high, by decide +kernel, by decide +kernel, fun follows => ?_⟩
  have classified := (follows.classified secondVcc 1 (fun _ => 0x45) (by decide)).mpr high
  cases classified

/-- A fifth group is not looked at, also for the VCC with the number 0. -/
example :
    ((AtmProcessor.initial 2048 phyInterface).run [.setPriorityPacketGroup 5 (some [ipEntry]) 1,
      .setVccCfg firstVcc
        (some ⟨3, 1, 0, 0, [1, 2, 3, 4, 5] ++ replicate 11 0⟩) 50 true]).isHighPriorityPkt 0
      (fun _ => 0x45) = false := by
  decide +kernel

end EchoLife.Atm
