import EchoLife.Lib.History

/-!
# The pool of MAC addresses

`kerSysGetMacAddress` hands out the addresses behind the board's base address: an id gets the one it
had before, or the first slot that is not in use; ids whose top byte names a reserved slot get that
slot only, without marking it, and take over a slot from the end when the pool is exhausted.
`mac_exclusive` and `mac_sticky` are the results over whole runs.
-/

namespace EchoLife.Board

open List History

/-! ## The pool -/

structure MacAddr where
  oui : BitVec 24
  nic : BitVec 24
  deriving DecidableEq, Repr

structure MacAddrInfo where
  ulId : UInt32
  chInUse : Bool
  deriving DecidableEq, Repr

structure NvramInfo where
  ucaBaseMacAddr : MacAddr
  macAddrs : List MacAddrInfo
  reservedMacBeUsedNum : Nat
  deriving DecidableEq, Repr

def nvramMacCountMax : Nat := 32

def macAddressAny : UInt32 := 0xFFFFFFFF

def reserveMacMask : UInt32 := 0xFF000000

def eaddrnotavail : Int := 126

def einval : Int := 22

def MacAddr.plus (base : MacAddr) (i : Nat) : MacAddr :=
  ⟨base.oui, base.nic + BitVec.ofNat 24 i⟩

def NvramInfo.address (info : NvramInfo) (i : Nat) : MacAddr :=
  info.ucaBaseMacAddr.plus i

def NvramInfo.put (info : NvramInfo) (i : Nat) (slot : MacAddrInfo) : NvramInfo :=
  { info with macAddrs := info.macAddrs.set i slot }

def reservedId (ulId : UInt32) : Option Nat :=
  let reserved := ulId &&& reserveMacMask
  if reserved = reserveMacMask then some 0
  else
    let reserved := reserved >>> 24
    if reserved = 5 ∨ reserved = 6 ∨ reserved = 7 ∨ reserved = 8 then some reserved.toNat
    else none

inductive Search where
  | own (i : Nat) (slot : MacAddrInfo)
  | freeNoId (i : Nat)
  | freeId (i : Nat)
  | exhausted
  deriving DecidableEq, Repr

def searchLoop (ulId : UInt32) (i : Nat) : List MacAddrInfo → Search
  | [] => .exhausted
  | slot :: slots =>
    if ulId = slot.ulId ∨ ulId = macAddressAny then .own i slot
    else if slot.chInUse = false ∧ (reservedId ulId = none ∨ reservedId ulId = some i) then
      if slot.ulId = 0 then .freeNoId i else .freeId i
    else searchLoop ulId (i + 1) slots

def NvramInfo.search (info : NvramInfo) (ulId : UInt32) : Search :=
  searchLoop ulId 0 info.macAddrs

def NvramInfo.takeFree (info : NvramInfo) (ulId : UInt32) (i : Nat) : NvramInfo :=
  info.put i ⟨ulId, (reservedId ulId).isNone⟩

def kerSysGetMacAddress (info : NvramInfo) (ulId : UInt32) :
    (Int × Option MacAddr) × NvramInfo :=
  match info.search ulId with
  | .own i slot => ((0, some (info.address i)), info.put i { slot with chInUse := true })
  | .freeNoId i => ((0, some (info.address i)), info.takeFree ulId i)
  | .freeId i => ((0, some (info.address i)), info.takeFree ulId i)
  | .exhausted =>
    match reservedId ulId with
    | some (_ + 1) =>
      -- `indexNode` is positive exactly when the subtraction does not reach zero.
      let indexNode := info.macAddrs.length - info.reservedMacBeUsedNum - 1
      if 0 < indexNode then
        ((0, some (info.address indexNode)),
          { info.put indexNode ⟨ulId, true⟩ with
            reservedMacBeUsedNum := info.reservedMacBeUsedNum + 1 })
      else ((0, none), info)
    | _ => ((-eaddrnotavail, none), info)

def NvramInfo.ulIdx (info : NvramInfo) (mac : MacAddr) : Nat :=
  (mac.nic.setWidth 32 - info.ucaBaseMacAddr.nic.setWidth 32).toNat

def kerSysReleaseMacAddress (info : NvramInfo) (mac : MacAddr) : Int × NvramInfo :=
  match info.macAddrs[info.ulIdx mac]? with
  | some slot =>
    if slot.chInUse then (0, info.put (info.ulIdx mac) { slot with chInUse := false })
    else (-einval, info)
  | none => (-einval, info)

def initSlot (info : NvramInfo) (i : Nat) : NvramInfo :=
  match i with
  | 0 => (kerSysGetMacAddress info reserveMacMask).2
  | 5 | 6 | 7 | 8 => (kerSysGetMacAddress info (reserveMacMask &&& (UInt32.ofNat i <<< 24))).2
  | _ => info

def initNvramInfo (base : MacAddr) (ulNumMacAddrs : Nat) : Option NvramInfo :=
  if 0 < ulNumMacAddrs ∧ ulNumMacAddrs ≤ nvramMacCountMax then
    some ((List.range ulNumMacAddrs).foldl initSlot
      ⟨base, replicate ulNumMacAddrs ⟨0, false⟩, 0⟩)
  else none

/-! ## Runs -/

inductive MacCall where
  | get (ulId : UInt32)
  | release (mac : MacAddr)
  deriving DecidableEq, Repr

def macStep (info : NvramInfo) : MacCall → (Int × Option MacAddr) × NvramInfo
  | .get ulId => kerSysGetMacAddress info ulId
  | .release mac =>
    (((kerSysReleaseMacAddress info mac).1, none), (kerSysReleaseMacAddress info mac).2)

abbrev MacTransition : Type := Transition NvramInfo MacCall (Int × Option MacAddr)

abbrev macRun (info : NvramInfo) (calls : List MacCall) : List MacTransition :=
  history macStep info calls

/-! ## What a call can do -/

def Stops (ulId : UInt32) (i : Nat) (slot : MacAddrInfo) : Prop :=
  slot.ulId = ulId ∨
    (slot.chInUse = false ∧ (reservedId ulId = none ∨ reservedId ulId = some i))

def NoneStops (info : NvramInfo) (ulId : UInt32) (n : Nat) : Prop :=
  ∀ j < n, ∀ slot, info.macAddrs[j]? = some slot → ¬ Stops ulId j slot

variable {ulId : UInt32} {base mac : MacAddr} {num i j : Nat} {info : NvramInfo}
  {u t : MacTransition}

theorem searchLoop_cases (known : ulId ≠ macAddressAny) (slots : List MacAddrInfo) (i : Nat) :
    (∃ d slot, slots[d]? = some slot ∧
      (∀ e < d, ∀ s, slots[e]? = some s → ¬ Stops ulId (i + e) s) ∧
      ((slot.ulId = ulId ∧ searchLoop ulId i slots = .own (i + d) slot) ∨
        (slot.ulId ≠ ulId ∧ slot.chInUse = false ∧
          (reservedId ulId = none ∨ reservedId ulId = some (i + d)) ∧
          (searchLoop ulId i slots = .freeNoId (i + d) ∨
            searchLoop ulId i slots = .freeId (i + d))))) ∨
    ((∀ e s, slots[e]? = some s → ¬ Stops ulId (i + e) s) ∧
      searchLoop ulId i slots = .exhausted) := by
  induction slots generalizing i with
  | nil => exact Or.inr ⟨by simp, rfl⟩
  | cons slot slots ih =>
    by_cases own : slot.ulId = ulId
    · exact Or.inl ⟨0, slot, rfl, by simp, Or.inl ⟨own, by simp [searchLoop, own]⟩⟩
    · by_cases free : slot.chInUse = false ∧
          (reservedId ulId = none ∨ reservedId ulId = some i)
      · refine Or.inl ⟨0, slot, rfl, by simp, Or.inr ⟨own, free.1, free.2, ?_⟩⟩
        rw [searchLoop, if_neg (not_or.mpr ⟨Ne.symm own, known⟩), if_pos free]
        by_cases unused : slot.ulId = 0
        · exact Or.inl (if_pos unused)
        · exact Or.inr (if_neg unused)
      · -- The slot does not end the search, so the rest of the loop decides.
        have skip : searchLoop ulId i (slot :: slots) = searchLoop ulId (i + 1) slots := by
          simp only [searchLoop, Ne.symm own, known, free, or_self, if_false]
        have passed : ¬ Stops ulId i slot := fun stops => stops.elim own free
        have shift : ∀ e, i + 1 + e = i + (e + 1) := fun e => by omega
        rw [skip]
        rcases ih (i + 1) with ⟨d, found, at_d, before, kind⟩ | ⟨before, exhausted⟩
        · rw [shift] at kind
          refine Or.inl ⟨d + 1, found, at_d, ?_, kind⟩
          intro e less s at_e
          cases e with
          | zero =>
            cases at_e
            exact passed
          | succ e => exact shift e ▸ before e (by omega) s at_e
        · grind

/-- Outcomes of `kerSysGetMacAddress`: a slot is granted to the id, one is taken over from the end
of an exhausted pool, or nothing is written. -/
inductive GetResult (info : NvramInfo) (ulId : UInt32) :
    (Int × Option MacAddr) × NvramInfo → Prop where
  | grant (i : Nat) (slot : MacAddrInfo) (firm : Bool) (found : info.macAddrs[i]? = some slot)
      (first : NoneStops info ulId i)
      (kind : (slot.ulId = ulId ∧ firm = true) ∨
        (slot.ulId ≠ ulId ∧ slot.chInUse = false ∧
          (reservedId ulId = none ∨ reservedId ulId = some i) ∧
          firm = (reservedId ulId).isNone))
      (searched : info.search ulId ≠ .exhausted) :
      GetResult info ulId ((0, some (info.address i)), info.put i ⟨ulId, firm⟩)
  | takeOver (i : Nat) (inside : i < info.macAddrs.length)
      (none_stops : NoneStops info ulId info.macAddrs.length)
      (searched : info.search ulId = .exhausted) :
      GetResult info ulId ((0, some (info.address i)),
        { info.put i ⟨ulId, true⟩ with reservedMacBeUsedNum := info.reservedMacBeUsedNum + 1 })
  | nothing (ret : Int) (none_stops : NoneStops info ulId info.macAddrs.length)
      (searched : info.search ulId = .exhausted)
      (last : ret = 0 → info.macAddrs.length ≤ info.reservedMacBeUsedNum + 1) :
      GetResult info ulId ((ret, none), info)

theorem kerSysGetMacAddress_cases (info : NvramInfo) (known : ulId ≠ macAddressAny) :
    GetResult info ulId (kerSysGetMacAddress info ulId) := by
  rcases searchLoop_cases known info.macAddrs 0 with
    ⟨i, slot, found, before, kind⟩ | ⟨none_stops, exhausted⟩
  · simp only [Nat.zero_add] at before kind
    rcases kind with ⟨own, search⟩ | ⟨other, free, fits, search⟩
    · have call : kerSysGetMacAddress info ulId =
          ((0, some (info.address i)), info.put i ⟨ulId, true⟩) := by
        simp [kerSysGetMacAddress, NvramInfo.search, search, own]
      rw [call]
      exact .grant i slot true found before (Or.inl ⟨own, rfl⟩) (by simp [NvramInfo.search, search])
    · have call : kerSysGetMacAddress info ulId =
          ((0, some (info.address i)), info.put i ⟨ulId, (reservedId ulId).isNone⟩) := by
        rcases search with search | search <;>
          simp [kerSysGetMacAddress, NvramInfo.search, search, NvramInfo.takeFree]
      rw [call]
      exact .grant i slot _ found before (Or.inr ⟨other, free, fits, rfl⟩)
        (by rcases search with search | search <;> simp [NvramInfo.search, search])
  · simp only [Nat.zero_add] at none_stops
    have searched : info.search ulId = .exhausted := exhausted
    have none_stops' : NoneStops info ulId info.macAddrs.length :=
      fun j _ slot => none_stops j slot
    simp only [kerSysGetMacAddress, searched]
    split
    · split
      · exact .takeOver _ (by omega) none_stops' searched
      · exact .nothing 0 none_stops' searched (by omega)
    · exact .nothing _ none_stops' searched (by simp [eaddrnotavail])

@[simp]
theorem NvramInfo.put_base (info : NvramInfo) (i : Nat) (slot : MacAddrInfo) :
    (info.put i slot).ucaBaseMacAddr = info.ucaBaseMacAddr := rfl

@[simp]
theorem NvramInfo.length_put (info : NvramInfo) (i : Nat) (slot : MacAddrInfo) :
    (info.put i slot).macAddrs.length = info.macAddrs.length :=
  length_set

def SameShape (base : MacAddr) (num : Nat) (info : NvramInfo) : Prop :=
  info.ucaBaseMacAddr = base ∧ info.macAddrs.length = num

theorem SameShape.get (known : ulId ≠ macAddressAny) (shape : SameShape base num info) :
    SameShape base num (kerSysGetMacAddress info ulId).2 := by
  have result := kerSysGetMacAddress_cases info known
  generalize kerSysGetMacAddress info ulId = answer at result
  cases result with
  | grant i slot firm found first kind searched
  | takeOver i inside none_stops searched => exact ⟨shape.1, by simp [shape.2]⟩
  | nothing ret none_stops searched last => exact shape

/-! ## Addresses and slots -/

theorem MacAddr.plus_injective (base : MacAddr) (i_small : i < 2 ^ 24) (j_small : j < 2 ^ 24)
    (same : (base.plus i).nic = (base.plus j).nic) : i = j := by
  have offsets : BitVec.ofNat 24 i = BitVec.ofNat 24 j := by
    simpa [MacAddr.plus] using same
  have values := congrArg BitVec.toNat offsets
  simp only [BitVec.toNat_ofNat] at values
  omega

open NvramInfo

theorem NvramInfo.nic_of_ulIdx (info : NvramInfo) (small : info.ulIdx mac < 2 ^ 24) :
    mac.nic = (info.address (info.ulIdx mac)).nic := by
  apply BitVec.eq_of_toNat_eq
  simp only [ulIdx, address, MacAddr.plus, BitVec.toNat_sub,
    BitVec.toNat_setWidth, BitVec.toNat_add, BitVec.toNat_ofNat] at small ⊢
  omega

theorem NvramInfo.ulIdx_address (info : NvramInfo) (small : i < 2 ^ 24)
    (no_wrap : info.ucaBaseMacAddr.nic ≤ (info.address i).nic) :
    info.ulIdx (info.address i) = i := by
  rw [BitVec.le_def] at no_wrap
  simp only [ulIdx, address, MacAddr.plus, BitVec.toNat_sub,
    BitVec.toNat_setWidth, BitVec.toNat_add, BitVec.toNat_ofNat] at no_wrap ⊢
  omega

/-- **What `kerSysReleaseMacAddress` can do**: the slot with the address is freed, or nothing
changes. -/
theorem kerSysReleaseMacAddress_cases (info : NvramInfo) (mac : MacAddr)
    (small : info.macAddrs.length ≤ 2 ^ 24) :
    (∃ i slot, info.macAddrs[i]? = some slot ∧ mac.nic = (info.address i).nic ∧
      kerSysReleaseMacAddress info mac = (0, info.put i { slot with chInUse := false })) ∨
    kerSysReleaseMacAddress info mac = (-einval, info) := by
  cases found : info.macAddrs[info.ulIdx mac]? with
  | none => exact Or.inr (by simp [kerSysReleaseMacAddress, found])
  | some slot =>
    have inside := (List.getElem?_eq_some_iff.mp found).1
    cases used : slot.chInUse with
    | false => exact Or.inr (by simp [kerSysReleaseMacAddress, found, used])
    | true => exact Or.inl ⟨info.ulIdx mac, slot, found, info.nic_of_ulIdx (by omega),
        by simp [kerSysReleaseMacAddress, found, used]⟩

/-! ## How a slot changes -/

inductive SlotChange (base : MacAddr) (u : MacTransition) (i : Nat) (slot : MacAddrInfo) :
    MacAddrInfo → Prop where
  | same : SlotChange base u i slot slot
  | granted (ulId : UInt32) (firm : Bool) (call : u.call = .get ulId)
      (out : u.out = (0, some (base.plus i)))
      (kind : (slot.ulId = ulId ∧ firm = true) ∨ slot.chInUse = false ∨
        (u.before.search ulId = .exhausted ∧ firm = true)) :
      SlotChange base u i slot ⟨ulId, firm⟩
  | freed (mac : MacAddr) (call : u.call = .release mac) (address : mac.nic = (base.plus i).nic) :
      SlotChange base u i slot { slot with chInUse := false }

def KnownId : MacCall → Prop
  | .get ulId => ulId ≠ 0 ∧ ulId ≠ macAddressAny
  | .release _ => True

section Step

variable {base : MacAddr} {num : Nat} {u : MacTransition} {i : Nat} {slot : MacAddrInfo}

theorem getElem?_put (found : info.macAddrs[i]? = some slot) (j : Nat) (new : MacAddrInfo) :
    (info.put j new).macAddrs[i]? = some (if j = i then new else slot) := by
  by_cases here : j = i
  · subst here
    have inside := (List.getElem?_eq_some_iff.mp found).1
    simp [put, inside]
  · simp [put, here, found]

theorem getElem?_put_ne (info : NvramInfo) (new : MacAddrInfo) (ne : i ≠ j) :
    (info.put i new).macAddrs[j]? = info.macAddrs[j]? :=
  getElem?_set_ne ne

theorem slotChange_put {new : MacAddrInfo}
    (stored : u.after.macAddrs = (u.before.put j new).macAddrs)
    (found : u.before.macAddrs[i]? = some slot) (here : j = i → SlotChange base u i slot new) :
    ∃ slot', u.after.macAddrs[i]? = some slot' ∧ SlotChange base u i slot slot' := by
  rw [stored]
  refine ⟨_, getElem?_put found j new, ?_⟩
  split
  next same => exact here same
  next => exact .same

theorem slotChange (small : num ≤ 2 ^ 24) (step : macStep u.before u.call = (u.out, u.after))
    (known : KnownId u.call) (shape : SameShape base num u.before)
    (found : u.before.macAddrs[i]? = some slot) :
    SameShape base num u.after ∧
      ∃ slot', u.after.macAddrs[i]? = some slot' ∧ SlotChange base u i slot slot' := by
  obtain ⟨before, call, out, after⟩ := u
  obtain ⟨rfl, length⟩ := shape
  simp only at *
  cases call with
  | get ulId =>
    have result := kerSysGetMacAddress_cases before known.2
    rw [show kerSysGetMacAddress before ulId = (out, after) from step] at result
    cases result with
    | grant j granted firm found_j first kind searched =>
      refine ⟨⟨rfl, by simp [length]⟩, slotChange_put (u := ⟨before, _, _, _⟩) rfl found ?_⟩
      rintro rfl
      cases found.symm.trans found_j
      exact .granted ulId firm rfl rfl (kind.imp_right fun free => Or.inl free.2.1)
    | takeOver j inside none_stops searched =>
      refine ⟨⟨rfl, by simp [length]⟩, slotChange_put (u := ⟨before, _, _, _⟩) rfl found ?_⟩
      rintro rfl
      exact .granted ulId true rfl rfl (Or.inr (Or.inr ⟨searched, rfl⟩))
    | nothing ret none_stops searched last => exact ⟨⟨rfl, length⟩, slot, found, .same⟩
  | release mac =>
    have after_eq : (kerSysReleaseMacAddress before mac).2 = after := congrArg Prod.snd step
    rcases kerSysReleaseMacAddress_cases before mac (by omega) with
      ⟨j, freed, found_j, address, released⟩ | refused
    · rw [released] at after_eq
      subst after_eq
      refine ⟨⟨rfl, by simp [length]⟩, slotChange_put (u := ⟨before, _, _, _⟩) rfl found ?_⟩
      rintro rfl
      cases found.symm.trans found_j
      exact .freed mac rfl address
    · rw [refused] at after_eq
      subst after_eq
      exact ⟨⟨rfl, length⟩, slot, found, .same⟩

end Step

/-! ## Start-up -/

theorem sameShape_initSlot (i : Nat) (shape : SameShape base num info) :
    SameShape base num (initSlot info i) := by
  unfold initSlot
  split
  · exact shape.get (by decide)
  all_goals first | exact shape.get (by decide) | exact shape

theorem sameShape_init (init : initNvramInfo base num = some info) :
    SameShape base num info ∧ num ≤ nvramMacCountMax := by
  unfold initNvramInfo at init
  split at init
  case isFalse => simp at init
  case isTrue range =>
    have shape : ∀ (slots : List Nat) (start : NvramInfo), SameShape base num start →
        SameShape base num (slots.foldl initSlot start) := by
      intro slots
      induction slots with
      | nil => exact fun _ shape => shape
      | cons i slots ih => exact fun start shape => ih _ (sameShape_initSlot i shape)
    cases init
    exact ⟨shape _ _ ⟨rfl, by simp⟩, range.2⟩

/-! ## Ownership over whole runs -/

def Grants (t : MacTransition) (ulId : UInt32) (mac : MacAddr) : Prop :=
  t.call = .get ulId ∧ t.out = (0, some mac)

def InUse (info : NvramInfo) (mac : MacAddr) : Prop :=
  ∃ i slot, info.macAddrs[i]? = some slot ∧ info.address i = mac ∧ slot.chInUse = true

def Releases (t : MacTransition) (mac : MacAddr) : Prop :=
  ∃ released, t.call = .release released ∧ released.nic = mac.nic

def TakesOver (t : MacTransition) (mac : MacAddr) : Prop :=
  ∃ ulId, Grants t ulId mac ∧ t.before.search ulId = .exhausted

def Holds (run : List MacTransition) (ulId : UInt32) (mac : MacAddr) : Prop :=
  ∃ earlier t later, run = earlier ++ t :: later ∧ Grants t ulId mac ∧ InUse t.after mac ∧
    ∀ u ∈ later, ¬ Releases u mac ∧ ¬ TakesOver u mac

def SlotIs (base : MacAddr) (num i : Nat) (slot : MacAddrInfo) (info : NvramInfo) : Prop :=
  SameShape base num info ∧ info.macAddrs[i]? = some slot

theorem slot_of_kerSysGetMacAddress {after : NvramInfo} (known : ulId ≠ macAddressAny)
    (call : kerSysGetMacAddress info ulId = ((0, some mac), after)) :
    ∃ i firm, i < info.macAddrs.length ∧ mac = info.address i ∧
      after.macAddrs[i]? = some ⟨ulId, firm⟩ ∧
      ∀ j < i, ∀ slot, after.macAddrs[j]? = some slot → slot.ulId ≠ ulId := by
  have result := kerSysGetMacAddress_cases info known
  rw [call] at result
  cases result with
  | grant i slot firm found first kind searched =>
    refine ⟨i, firm, (List.getElem?_eq_some_iff.mp found).1, rfl, ?_, ?_⟩
    · exact (getElem?_put found i _).trans (by rw [if_pos rfl])
    · intro j less slot' found' own
      rw [getElem?_put_ne info _ (by omega)] at found'
      exact first j less slot' found' (Or.inl own)
  | takeOver i inside none_stops searched =>
    refine ⟨i, true, inside, rfl, by simp [put, inside], ?_⟩
    intro j less slot' found' own
    have found'' : info.macAddrs[j]? = some slot' :=
      (getElem?_put_ne info ⟨ulId, true⟩ (by omega : i ≠ j)).symm.trans found'
    exact none_stops j (by omega) slot' found'' (Or.inl own)

section Run

variable {base : MacAddr} {num : Nat} {info : NvramInfo} {calls : List MacCall}
  (init : initNvramInfo base num = some info) (known : ∀ c ∈ calls, KnownId c)
include init known

theorem step_of_run (mem : u ∈ macRun info calls) :
    macStep u.before u.call = (u.out, u.after) ∧ KnownId u.call ∧
      SameShape base num u.before ∧ num ≤ 2 ^ 24 := by
  obtain ⟨shape, bound⟩ := sameShape_init init
  have small : num ≤ 2 ^ 24 := Nat.le_trans bound (by decide)
  refine ⟨step_of_mem mem, known _ (call_mem mem), ?_, small⟩
  refine (invariant_of_mem shape ?_ mem).1
  intro c called s shape'
  cases c with
  | get ulId => exact shape'.get (known _ called).2
  | release mac =>
    obtain ⟨rfl, length⟩ := shape'
    rcases kerSysReleaseMacAddress_cases s mac (by omega) with ⟨j, _, _, _, released⟩ | refused
    · exact ⟨by simp [macStep, released], by simp [macStep, released, length]⟩
    · exact ⟨by simp [macStep, refused], by simp [macStep, refused, length]⟩

theorem slot_of_grants (mem : t ∈ macRun info calls) (grants : Grants t ulId mac) :
    ∃ i firm, i < num ∧ mac = base.plus i ∧ SlotIs base num i ⟨ulId, firm⟩ t.after ∧
      ∀ j < i, ∀ slot, t.after.macAddrs[j]? = some slot → slot.ulId ≠ ulId := by
  obtain ⟨step, known', shape, small⟩ := step_of_run init known mem
  rw [grants.1] at known'
  have call : kerSysGetMacAddress t.before ulId = ((0, some mac), t.after) := by
    rw [← grants.2, ← step, grants.1]
    rfl
  obtain ⟨i, firm, inside, address, found, in_front⟩ :=
    slot_of_kerSysGetMacAddress known'.2 call
  have shape' : SameShape base num t.after := by
    have := shape.get known'.2
    rwa [call] at this
  rw [shape.2] at inside
  rw [NvramInfo.address, shape.1] at address
  exact ⟨i, firm, inside, address, ⟨shape', found⟩, in_front⟩

theorem slot_of_inUse (mem : t ∈ macRun info calls) (grants : Grants t ulId mac)
    (used : InUse t.after mac) :
    ∃ i < num, mac = base.plus i ∧ SlotIs base num i ⟨ulId, true⟩ t.after := by
  obtain ⟨i, firm, less, rfl, ⟨shape, found⟩, -⟩ := slot_of_grants init known mem grants
  obtain ⟨k, slot, found_k, address, marked⟩ := used
  obtain ⟨-, -, -, small⟩ := step_of_run init known mem
  have same : k = i := by
    have inside := (List.getElem?_eq_some_iff.mp found_k).1
    rw [shape.2] at inside
    rw [NvramInfo.address, shape.1] at address
    exact base.plus_injective (by omega) (by omega) (congrArg MacAddr.nic address)
  subst same
  obtain rfl : slot = ⟨ulId, firm⟩ := Option.some.inj (found_k.symm.trans found)
  obtain rfl : firm = true := marked
  exact ⟨k, less, rfl, shape, found⟩

theorem slot_of_holds (holds : Holds (macRun info calls) ulId mac) :
    ∃ i < num, mac = base.plus i ∧
      SlotIs base num i ⟨ulId, true⟩ (final macStep info calls) := by
  obtain ⟨earlier, t, later, split, grants, used, since⟩ := holds
  have mem : t ∈ macRun info calls := by simp [split]
  obtain ⟨i, less, rfl, slot⟩ := slot_of_inUse init known mem grants used
  refine ⟨i, less, rfl, holds_since split slot ?_⟩
  rintro u mem' ⟨-, found'⟩
  have in_run : u ∈ macRun info calls := by simp [split, mem']
  obtain ⟨step, known', shape', small⟩ := step_of_run init known in_run
  obtain ⟨after_shape, slot', found_after, change⟩ := slotChange small step known' shape' found'
  refine ⟨after_shape, ?_⟩
  rw [found_after]
  cases change with
  | same => rfl
  | granted ulId' firm call out kind =>
    rcases kind with ⟨rfl, rfl⟩ | free | ⟨exhausted, rfl⟩
    · rfl
    · simp at free
    · exact ((since u mem').2 ⟨ulId', ⟨call, out⟩, exhausted⟩).elim
  | freed mac call address => exact ((since u mem').1 ⟨mac, call, address⟩).elim

/-- **Exclusive ownership.** Different ids hold different addresses, and a successful call has
written an address of the board, unless the pool is exhausted and all slots but the first have
been taken over. -/
theorem mac_exclusive :
    (∀ id₁ id₂ mac, Holds (macRun info calls) id₁ mac → Holds (macRun info calls) id₂ mac →
      id₁ = id₂) ∧
    (∀ t ∈ macRun info calls, ∀ ulId, t.call = .get ulId → t.out.1 = 0 →
      (∃ i < num, t.out.2 = some (base.plus i)) ∨
        (t.out.2 = none ∧ t.before.search ulId = .exhausted ∧
          num ≤ t.before.reservedMacBeUsedNum + 1)) := by
  constructor
  · intro id₁ id₂ mac holds₁ holds₂
    obtain ⟨i, i_less, rfl, -, found₁⟩ := slot_of_holds init known holds₁
    obtain ⟨j, j_less, address, -, found₂⟩ := slot_of_holds init known holds₂
    have small : num ≤ 2 ^ 24 := Nat.le_trans (sameShape_init init).2 (by decide)
    obtain rfl : i = j :=
      base.plus_injective (by omega) (by omega) (congrArg MacAddr.nic address)
    have same := Option.some.inj (found₁.symm.trans found₂)
    exact congrArg MacAddrInfo.ulId same
  · intro t mem ulId call success
    obtain ⟨step, known', shape, -⟩ := step_of_run init known mem
    rw [call] at known' step
    have result := kerSysGetMacAddress_cases t.before known'.2
    rw [show kerSysGetMacAddress t.before ulId = _ from step] at result
    generalize t.out = out, t.after = after at result success
    cases result with
    | grant i slot firm found first kind searched =>
      have inside := (List.getElem?_eq_some_iff.mp found).1
      exact Or.inl ⟨i, shape.2 ▸ inside, by rw [NvramInfo.address, shape.1]⟩
    | takeOver i inside none_stops searched =>
      exact Or.inl ⟨i, shape.2 ▸ inside, by rw [NvramInfo.address, shape.1]⟩
    | nothing ret none_stops searched last =>
      exact Or.inr ⟨rfl, searched, shape.2 ▸ last success⟩

def FrontTaken (info : NvramInfo) (ulId : UInt32) (mac : MacAddr) : Prop :=
  ∀ i < info.macAddrs.length, info.address i = mac → ∀ j < i, ∀ slot,
    info.macAddrs[j]? = some slot → slot.chInUse = false →
      ∃ r, reservedId ulId = some r ∧ r ≠ j

structure OwnsSlot (base : MacAddr) (num i : Nat) (ulId : UInt32) (info : NvramInfo) : Prop where
  shape : SameShape base num info
  own : ∃ slot, info.macAddrs[i]? = some slot ∧ slot.ulId = ulId
  front : ∀ j < i, ∀ slot, info.macAddrs[j]? = some slot → slot.ulId ≠ ulId

omit init known in
theorem OwnsSlot.grants {s : NvramInfo} (owns : OwnsSlot base num i ulId s)
    (known : ulId ≠ macAddressAny) :
    ∃ k slot, k ≤ i ∧ s.macAddrs[k]? = some slot ∧ Stops ulId k slot ∧
      (kerSysGetMacAddress s ulId).1 = (0, some (base.plus k)) := by
  obtain ⟨slot, found, own⟩ := owns.own
  have inside := (List.getElem?_eq_some_iff.mp found).1
  have result := kerSysGetMacAddress_cases s known
  generalize kerSysGetMacAddress s ulId = answer at result
  cases result with
  | grant k slot' firm found' first kind searched =>
    refine ⟨k, slot', ?_, found', ?_, by rw [address, owns.shape.1]⟩
    · by_contra beyond
      exact first i (by omega) slot found (Or.inl own)
    · rcases kind with ⟨own', -⟩ | ⟨-, free, fits, -⟩
      · exact Or.inl own'
      · exact Or.inr ⟨free, fits⟩
  | takeOver k inside' none_stops searched | nothing ret none_stops searched last =>
    exact (none_stops i inside slot found (Or.inl own)).elim

theorem OwnsSlot.keep {v : MacTransition} (mem : v ∈ macRun info calls)
    (proper : ulId ≠ macAddressAny) (refused : v.call = .get ulId → v.out.1 ≠ 0)
    (elsewhere : v.out.2 ≠ some (base.plus i)) (owns : OwnsSlot base num i ulId v.before) :
    OwnsSlot base num i ulId v.after := by
  obtain ⟨step, known', shape, small⟩ := step_of_run init known mem
  have other : v.call ≠ .get ulId := by
    intro call
    obtain ⟨k, -, -, -, -, granted⟩ := owns.grants proper
    rw [call] at step
    have out : v.out = (0, some (base.plus k)) := by
      rw [← granted, show kerSysGetMacAddress v.before ulId = _ from step]
    exact refused call (by rw [out])
  obtain ⟨slot, found, own⟩ := owns.own
  obtain ⟨shape', slot', found', change⟩ := slotChange small step known' shape found
  refine ⟨shape', ⟨slot', found', ?_⟩, ?_⟩
  · cases change with
    | same => exact own
    | granted ulId' firm call out kind => exact (elsewhere (by rw [out])).elim
    | freed mac call address => exact own
  · intro j less after_slot found_after
    have inside : j < v.before.macAddrs.length := by
      have := (List.getElem?_eq_some_iff.mp found).1
      omega
    obtain ⟨-, slot_j, found_j, change_j⟩ :=
      slotChange small step known' shape (getElem?_eq_getElem inside)
    obtain rfl := Option.some.inj (found_j.symm.trans found_after)
    have before_ne := owns.front j less _ (getElem?_eq_getElem inside)
    cases change_j with
    | same => exact before_ne
    | granted ulId' firm call out kind =>
      rintro rfl
      exact other call
    | freed mac call address => exact before_ne

theorem inUse_keep {v : MacTransition} (mem : v ∈ macRun info calls)
    (unreleased : ¬ Releases v (base.plus i))
    (used : ∃ ulId, SlotIs base num i ⟨ulId, true⟩ v.before) :
    ∃ ulId, SlotIs base num i ⟨ulId, true⟩ v.after := by
  obtain ⟨ulId, shape, found⟩ := used
  obtain ⟨step, known', -, small⟩ := step_of_run init known mem
  obtain ⟨shape', slot', found', change⟩ := slotChange small step known' shape found
  cases change with
  | same => exact ⟨ulId, shape', found'⟩
  | granted ulId' firm call out kind =>
    rcases kind with ⟨-, rfl⟩ | free | ⟨-, rfl⟩
    · exact ⟨ulId', shape', found'⟩
    · simp at free
    · exact ⟨ulId', shape', found'⟩
  | freed mac call address => exact (unreleased ⟨mac, call, address⟩).elim

theorem grants_again {earlier between : List MacTransition}
    (split : macRun info calls = earlier ++ t :: between ++ [u]) (grants : Grants t ulId mac)
    (since : ∀ v ∈ between, (v.call = .get ulId → v.out.1 ≠ 0) ∧ v.out.2 ≠ some mac)
    (call : u.call = .get ulId) (front_taken : FrontTaken u.before ulId mac) :
    Grants u ulId mac := by
  have t_mem := mem_of_split split (Or.inl rfl)
  obtain ⟨i, firm, less, rfl, slot, front⟩ := slot_of_grants init known t_mem grants
  obtain ⟨-, known_t, -, -⟩ := step_of_run init known t_mem
  rw [grants.1] at known_t
  have owns : OwnsSlot base num i ulId u.before :=
    holds_before_last split ⟨slot.1, ⟨_, slot.2, rfl⟩, front⟩ fun v mem owns =>
      owns.keep init known (mem_of_split split (Or.inr (Or.inl mem))) known_t.2 (since v mem).1
        (since v mem).2
  obtain ⟨k, found_slot, le, found, stops, granted⟩ := owns.grants known_t.2
  have here : k = i := by
    by_contra elsewhere
    have less' : k < i := by omega
    rcases stops with own | ⟨free, fits⟩
    · exact owns.front k less' found_slot found own
    · obtain ⟨r, reserved, ne⟩ := front_taken i (by rw [owns.shape.2]; exact less)
        (by rw [address, owns.shape.1]) k less' found_slot found free
      rw [reserved] at fits
      simp [ne] at fits
  obtain ⟨step, -, -, -⟩ := step_of_run init known (mem_of_split split (Or.inr (Or.inr rfl)))
  rw [call] at step
  refine ⟨call, ?_⟩
  rw [← here, ← granted, show kerSysGetMacAddress u.before ulId = _ from step]

theorem release_given {earlier between : List MacTransition}
    (split : macRun info calls = earlier ++ t :: between ++ [u]) (grants : Grants t ulId mac)
    (used : InUse t.after mac) (no_wrap : base.nic ≤ mac.nic)
    (unreleased : ∀ v ∈ between, ¬ Releases v mac) (call : u.call = .release mac) :
    u.out.1 = 0 ∧ ∃ i slot, base.plus i = mac ∧ u.before.macAddrs[i]? = some slot ∧
      slot.chInUse = true ∧ u.after = u.before.put i { slot with chInUse := false } := by
  obtain ⟨i, less, rfl, slot⟩ :=
    slot_of_inUse init known (mem_of_split split (Or.inl rfl)) grants used
  have still : ∃ owner, SlotIs base num i ⟨owner, true⟩ u.before :=
    holds_before_last (I := fun s => ∃ owner, SlotIs base num i ⟨owner, true⟩ s) split ⟨ulId, slot⟩
      fun v mem => inUse_keep init known (mem_of_split split (Or.inr (Or.inl mem)))
        (unreleased v mem)
  obtain ⟨owner, shape, found⟩ := still
  obtain ⟨step, -, -, small⟩ := step_of_run init known (mem_of_split split (Or.inr (Or.inr rfl)))
  rw [call] at step
  have index : u.before.ulIdx (base.plus i) = i := by
    have address : u.before.address i = base.plus i := by rw [address, shape.1]
    rw [← address]
    exact u.before.ulIdx_address (by omega) (by rw [address, shape.1]; exact no_wrap)
  have released : kerSysReleaseMacAddress u.before (base.plus i) =
      (0, u.before.put i ⟨owner, false⟩) := by
    simp [kerSysReleaseMacAddress, index, found]
  rw [macStep, released, Prod.mk.injEq] at step
  exact ⟨by rw [← step.1], i, _, rfl, found, rfl, step.2.symm⟩

/-- **Sticky and releasable addresses.** An id that was given an address gets it again as long as
no other id was given it and no slot in front of it is available to the id. An address that was
given out with its slot marked in use can be released, which frees exactly that slot, if it does
not lie behind the wrap of the low three bytes. -/
theorem mac_sticky :
    (∀ earlier t between u ulId mac, macRun info calls = earlier ++ t :: between ++ [u] →
      Grants t ulId mac →
      (∀ v ∈ between, (v.call = .get ulId → v.out.1 ≠ 0) ∧ v.out.2 ≠ some mac) →
      u.call = .get ulId → FrontTaken u.before ulId mac → Grants u ulId mac) ∧
    (∀ earlier t between u ulId mac, macRun info calls = earlier ++ t :: between ++ [u] →
      Grants t ulId mac → InUse t.after mac → base.nic ≤ mac.nic →
      (∀ v ∈ between, ¬ Releases v mac) → u.call = .release mac →
      u.out.1 = 0 ∧ ∃ i slot, base.plus i = mac ∧ u.before.macAddrs[i]? = some slot ∧
        slot.chInUse = true ∧ u.after = u.before.put i { slot with chInUse := false }) := by
  constructor
  · intro earlier t between u ulId mac split grants since call front_taken
    exact grants_again init known split grants since call front_taken
  · intro earlier t between u ulId mac split grants used no_wrap unreleased call
    exact release_given init known split grants used no_wrap unreleased call

end Run

/-! ## Small pools -/

def someBase : MacAddr := ⟨0x001018, 0x000010⟩

/-- In a pool of two addresses the first ordinary id holds the first one, and nobody else does. -/
theorem mac_exclusive_two :
    ∃ info, initNvramInfo someBase 2 = some info ∧
      (∀ c ∈ [MacCall.get 1, .get 2], KnownId c) ∧
      Holds (macRun info [.get 1, .get 2]) 1 (someBase.plus 0) ∧
      ∀ ulId, Holds (macRun info [.get 1, .get 2]) ulId (someBase.plus 0) → ulId = 1 := by
  have known : ∀ c ∈ [MacCall.get 1, .get 2], KnownId c := by simp [KnownId, macAddressAny]
  have init : initNvramInfo someBase 2 =
    some ⟨someBase, [⟨0xFF000000, false⟩, ⟨0, false⟩], 0⟩ := by decide
  have holds : Holds (macRun ⟨someBase, [⟨0xFF000000, false⟩, ⟨0, false⟩], 0⟩ [.get 1, .get 2]) 1
      (someBase.plus 0) := by
    refine ⟨[], _, _, rfl, ⟨rfl, by decide⟩, ⟨0, ⟨1, true⟩, by decide, by decide, rfl⟩, ?_⟩
    intro u mem
    simp only [mem_cons, not_mem_nil, or_false, history] at mem
    subst mem
    refine ⟨?_, ?_⟩
    · rintro ⟨_, released, _⟩
      cases released
    · rintro ⟨_, ⟨_, out⟩, _⟩
      revert out
      decide
  exact ⟨_, init, known, holds, fun ulId other => (mac_exclusive init known).1 _ _ _ other holds⟩

/-- Two ids that reserve the first slot are both given its address; nothing is released. -/
theorem reserved_ids_share_address :
    ∃ info, initNvramInfo someBase 1 = some info ∧
      (macRun info [.get 0xFF000001, .get 0xFF000002]).map (fun t => (t.call, t.out)) =
        [(.get 0xFF000001, 0, some (someBase.plus 0)),
          (.get 0xFF000002, 0, some (someBase.plus 0))] :=
  ⟨_, rfl, by decide⟩

/-- An ordinary id gets its address a second time, and it can be released. -/
theorem mac_sticky_two :
    ∃ info, initNvramInfo someBase 2 = some info ∧
      (∃ t u, macRun info [.get 1, .get 1] = [t, u] ∧ Grants t 1 (someBase.plus 0) ∧
        Grants u 1 (someBase.plus 0)) ∧
      (∃ t u, macRun info [.get 1, .release (someBase.plus 0)] = [t, u] ∧
        Grants t 1 (someBase.plus 0) ∧ u.out.1 = 0) := by
  have init : initNvramInfo someBase 2 =
    some ⟨someBase, [⟨0xFF000000, false⟩, ⟨0, false⟩], 0⟩ := by decide
  have known : ∀ c ∈ [MacCall.get 1, .get 1], KnownId c := by simp [KnownId, macAddressAny]
  have known' : ∀ c ∈ [MacCall.get 1, .release (someBase.plus 0)], KnownId c := by
    simp [KnownId, macAddressAny]
  refine ⟨_, init, ⟨_, _, rfl, ⟨rfl, by decide⟩, ?_⟩, ⟨_, _, rfl, ⟨rfl, by decide⟩, ?_⟩⟩
  · refine (mac_sticky init known).1 [] _ [] _ 1 (someBase.plus 0) rfl ⟨rfl, by decide⟩ (by simp)
      rfl ?_
    intro i inside address j less slot found free
    have first : i = 0 := someBase.plus_injective (Nat.lt_trans inside (by decide)) (by decide)
      (congrArg MacAddr.nic address)
    omega
  · exact ((mac_sticky init known').2 [] _ [] _ 1 (someBase.plus 0) rfl ⟨rfl, by decide⟩
      ⟨0, ⟨1, true⟩, by decide, by decide, rfl⟩ (by decide) (by simp) rfl).1

/-- An address given to an id that reserves its slot cannot be released. -/
theorem reserved_address_not_released :
    ∃ info, initNvramInfo someBase 1 = some info ∧
      (macRun info [.get 0xFF000001, .release (someBase.plus 0)]).map (fun t => (t.call, t.out)) =
        [(.get 0xFF000001, 0, some (someBase.plus 0)),
          (.release (someBase.plus 0), -einval, none)] :=
  ⟨_, rfl, by decide⟩

-- The search stops at a free slot in front of the slot that the id has.
example : (macRun ⟨someBase, [⟨1, false⟩, ⟨2, true⟩], 0⟩ [.get 2]).map Transition.out =
    [(0, some (someBase.plus 0))] := by decide

end EchoLife.Board
