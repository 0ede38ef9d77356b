import EchoLife.Psi.Store

/-!
# Setting an object when memory runs out

`PsiApp::set` asks the allocator for up to three pieces of memory and answers an error when one is
missing. `PsiIfc::set` does not look at the answer, and `PsiObject::set` frees the old value first.
So a call is all or nothing exactly when it gets the memory that it asks for
(`set_allOrNothing_iff`); `set_loses_value` reports success and leaves an object that cannot be
read.
-/

namespace EchoLife.Psi

open List Option LinkedList PsiObject

def PsiIfc.object (s : PsiIfc) (handle : Ptr) (id : UInt16) : Option PsiObject := do
  let app ← s.app handle
  let found ← app.find s.objectNodes id
  let node ← found
  let cell ← s.objectNodes node
  pure cell.item

/-- A call of `set` that reports success has stored the value, and one that reports an error has
changed nothing that can be read. -/
def AllOrNothing (s : PsiIfc) (appId : Option Ptr) (id : UInt16) (value : List UInt8)
    (answers : Answers) : Prop :=
  ∀ status s', s.set appId id value answers = some (status, s') →
    (status = .ok → ∀ beyond,
      s'.get appId id value.length beyond = some (.ok, some (value.length, value))) ∧
    (status ≠ .ok → ∀ len beyond, s'.get appId id len beyond = s.get appId id len beyond)

/-- A call of `set` gets the memory that it asks for, needs none, or fails an assertion of the
allocator, which has no buffers of size zero and does not free the null pointer. -/
def Affords (s : PsiIfc) (appId : Option Ptr) (id : UInt16) (value : List UInt8)
    (answers : Answers) : Prop :=
  ∀ handle, appId = some handle →
    match s.object handle id with
    | none =>
      answers.object = true ∧
        (value.length = 0 ∨ (answers.value = true ∧ answers.node ≠ none))
    | some object =>
      object.length = value.length ∨ object.value = none ∨ value.length = 0 ∨
        answers.value = true

variable {bget : Bool} {id : UInt16} {answers : Answers}

theorem PsiObject.set_cases {object object' : PsiObject} {value : List UInt8} {status : StoreStatus}
    (set : object.set value bget = some (status, object')) :
    (object' = ⟨object.id, value.length, some value⟩ ∧
      (object.length = value.length ∨ bget = true)) ∨
    (object' = ⟨object.id, value.length, none⟩ ∧ object.length ≠ value.length ∧
      object.value ≠ none ∧ value.length ≠ 0 ∧ bget = false) ∨
    (object' = object ∧ object.length = value.length ∧ value.length = 0 ∧ object.value = none) := by
  rw [PsiObject.set] at set
  by_cases same : object.length = value.length
  · grind
  · rw [if_pos same] at set
    by_cases crash : object.disposable = false ∨ value.length = 0
    · rw [if_pos crash] at set
      cases set
    · rw [if_neg crash] at set
      rw [not_or, PsiObject.disposable, isSome_eq_false_iff, isNone_iff_eq_none]
        at crash
      cases bget with
      | true =>
        simp only [if_true, some_inj, Prod.mk.injEq] at set
        exact .inl ⟨set.2.symm, .inr rfl⟩
      | false =>
        simp only [Bool.false_eq_true, if_false, some_inj, Prod.mk.injEq] at set
        exact .inr (.inl ⟨set.2.symm, same, crash.1, crash.2, rfl⟩)

theorem PsiObject.set_id {object object' : PsiObject} {value : List UInt8} {status : StoreStatus}
    (set : object.set value bget = some (status, object')) : object'.id = object.id := by
  rcases set_cases set with ⟨rfl, -⟩ | ⟨rfl, -⟩ | ⟨rfl, -⟩ <;> rfl

theorem PsiObject.set_read {object object' : PsiObject} {value : List UInt8} {status : StoreStatus}
    (set : object.set value bget = some (status, object')) :
    (∀ beyond, object'.get value.length beyond = some (.ok, value.length, value)) ↔
      object.length = value.length ∨ object.value = none ∨ value.length = 0 ∨ bget = true := by
  rcases set_cases set with ⟨rfl, served⟩ | ⟨rfl, other, stored, size, unserved⟩ |
    ⟨rfl, same, empty, missing⟩
  · constructor
    · exact fun _ => served.imp_right fun served => .inr (.inr served)
    · exact fun _ beyond => get_stored rfl rfl beyond
  · constructor
    · intro read
      have crash := read fun _ => 0
      rw [get, if_neg size] at crash
      cases crash
    · rintro (same | missing | empty | served)
      · exact absurd same other
      · exact absurd missing stored
      · exact absurd empty size
      · rw [unserved] at served
        cases served
  · constructor
    · exact fun _ => .inl same
    · intro _ beyond
      rw [length_eq_zero_iff] at empty
      subst empty
      rw [get, missing, same]
      rfl

theorem PsiObject.set_none {object : PsiObject} {value : List UInt8}
    (crash : object.set value bget = none) :
    object.length = value.length ∨ object.value = none ∨ value.length = 0 := by
  by_contra absurdity
  rw [not_or, not_or] at absurdity
  obtain ⟨other, stored, size⟩ := absurdity
  have disposable : object.disposable ≠ false := by
    rw [disposable, ne_eq, isSome_eq_false_iff, isNone_iff_eq_none]
    exact stored
  rw [set, if_pos other, if_neg (not_or.mpr ⟨disposable, size⟩)] at crash
  cases bget <;> cases crash

namespace Holds

variable {s : PsiIfc} {apps front back : List App} {a : App}

theorem object (holds : Holds s apps) (mem : a ∈ apps) (id : UInt16) :
    s.object a.node id = (a.object id).map Prod.snd := by
  rw [PsiIfc.object, holds.app mem, bind_eq_bind, bind_some, holds.find_object mem]
  cases found : a.object id with
  | none => rfl
  | some c =>
    obtain ⟨next, cell⟩ := (holds.objects a mem).cell (mem_of_find?_eq_some found)
    simp only [map_some, bind_eq_bind, bind_some, cell]
    rfl

theorem set (holds : Holds s apps) (mem : a ∈ apps) (id : UInt16) (value : List UInt8)
    (answers : Answers) :
    s.set (some a.node) id value answers
      = (s.appSet a.node ⟨a.name, a.head⟩ id value answers).map fun r => (.ok, r.2) := by
  rw [PsiIfc.set, holds.app mem]
  simp only [bind_eq_bind, bind_some]
  cases s.appSet a.node ⟨a.name, a.head⟩ id value answers <;> rfl

theorem allOrNothing_iff_read {s' : PsiIfc} (holds' : Holds s' apps) (mem : a ∈ apps)
    {value : List UInt8} (set : s.set (some a.node) id value answers = some (.ok, s'))
    {c : Ptr × PsiObject} (found : a.object id = some c) :
    AllOrNothing s (some a.node) id value answers ↔
      ∀ beyond, c.2.get value.length beyond = some (.ok, value.length, value) := by
  have get := fun beyond => holds'.get mem id value.length beyond
  simp only [found] at get
  constructor
  · intro all beyond
    have read := (all .ok s' set).1 rfl beyond
    rw [get] at read
    obtain ⟨⟨status, result⟩, read, same⟩ := map_eq_some_iff.mp read
    obtain ⟨rfl, rfl⟩ := same
    exact read
  · intro read status t set'
    rw [set, some_inj, Prod.mk.injEq] at set'
    obtain ⟨rfl, rfl⟩ := set'
    refine ⟨fun _ beyond => ?_, fun failed => absurd rfl failed⟩
    rw [get, read, map_some]

theorem allOrNothing_new (holds : Holds s (front ++ a :: back)) (absent : a.object id = none)
    {value : List UInt8} (fresh : ∀ node, answers.node = some node → s.objectNodes node = none) :
    AllOrNothing s (some a.node) id value answers ↔
      answers.object = true ∧
        (value.length = 0 ∨ (answers.value = true ∧ answers.node ≠ none)) := by
  have mem : a ∈ front ++ a :: back := mem_append_cons_self
  have looked := holds.find_object mem id
  rw [absent] at looked
  -- Success is reported, and the object is still not there.
  have lost : s.appSet a.node ⟨a.name, a.head⟩ id value answers = some (.errMemory, s) →
      ¬ AllOrNothing s (some a.node) id value answers := by
    intro failed all
    have read := (all .ok s (by rw [holds.set mem, failed]; rfl)).1 rfl fun _ => 0
    rw [holds.get mem, absent] at read
    cases read
  obtain ⟨object, stored, node⟩ := answers
  cases object with
  | false =>
    refine iff_of_false (lost ?_) fun served => ?_
    · simp only [PsiIfc.appSet, looked, map_none, Bool.false_eq_true, if_false]
    · cases served.1
  | true =>
    by_cases empty : value.length = 0
    · refine iff_of_true ?_ ⟨rfl, .inl empty⟩
      intro status s' set
      rw [holds.set mem] at set
      simp only [PsiIfc.appSet, looked, map_none, if_true, PsiObject.new, if_pos empty,
        bind_eq_bind, bind_none, reduceCtorEq] at set
    · cases node with
      | none =>
        refine iff_of_false (lost ?_) ?_
        · simp only [PsiIfc.appSet, looked, map_none, if_true, PsiObject.new,
            if_neg empty, bind_eq_bind, bind_some, PsiIfc.addObject]
        · grind
      | some node =>
        obtain ⟨s', added, holds'⟩ := holds.addObject (fresh node rfl)
          ⟨id, value.length, if stored then some value else none⟩
        have set : s.set (some a.node) id value ⟨true, stored, some node⟩ = some (.ok, s') := by
          rw [holds.set mem]
          simp only [PsiIfc.appSet, looked, map_none, if_true, PsiObject.new,
            if_neg empty, bind_eq_bind, bind_some, added, map_some]
        have found : App.object { a with objects := a.objects ++
            [(node, ⟨id, value.length, if stored then some value else none⟩)] } id
            = some (node, ⟨id, value.length, if stored then some value else none⟩) :=
          lookup_first (lookup_eq_none.mp absent)
        rw [allOrNothing_iff_read holds' mem_append_cons_self set found]
        cases stored with
        | true => exact iff_of_true (PsiObject.get_stored rfl rfl) ⟨rfl, .inr ⟨rfl, by simp⟩⟩
        | false =>
          refine iff_of_false (fun read => ?_) ?_
          · have crash := read fun _ => 0
            simp only [PsiObject.get, Bool.false_eq_true, if_false, if_neg empty,
              reduceCtorEq] at crash
          · grind

theorem allOrNothing_old (holds : Holds s (front ++ a :: back)) {q : Ptr} {object : PsiObject}
    (found : a.object id = some (q, object)) {value : List UInt8} :
    AllOrNothing s (some a.node) id value answers ↔
      object.length = value.length ∨ object.value = none ∨ value.length = 0 ∨
        answers.value = true := by
  have mem : a ∈ front ++ a :: back := mem_append_cons_self
  have looked := holds.find_object mem id
  rw [found] at looked
  obtain ⟨before, behind, split, rfl, first⟩ := lookup_eq_some found
  have appSet : s.appSet a.node ⟨a.name, a.head⟩ object.id value answers
      = s.setObject q value answers.value := by
    simp only [PsiIfc.appSet, looked, map_some]
  cases set : object.set value answers.value with
  | none =>
    refine iff_of_true ?_ ?_
    · intro status s' set'
      rw [holds.set mem, appSet,
        holds.setObject_none mem (mem_of_find?_eq_some found) set] at set'
      cases set'
    · rcases set_none set with same | missing | empty
      · exact .inl same
      · exact .inr (.inl missing)
      · exact .inr (.inr (.inl empty))
  | some r =>
    obtain ⟨status, object'⟩ := r
    obtain ⟨s', changed, holds'⟩ := holds.setObject split set
    have found' : App.object { a with objects := before ++ (q, object') :: behind } object.id
        = some (q, object') := by
      rw [App.object, ← set_id set]
      refine lookup_first (b := (q, object')) ?_
      rw [set_id set]
      exact first
    rw [← set_read set]
    refine allOrNothing_iff_read holds' mem_append_cons_self ?_ found'
    rw [holds.set mem, appSet, changed, map_some]

end Holds

/-- **`set` is all or nothing only where it gets its memory.** In a well-linked store, for a null
or live handle and memory that is not in use, a call of `set` is all or nothing exactly when it gets
what it asks for: failures of `PsiApp::set` are reported as success, and the old value is freed
before there is memory for the new one. -/
theorem set_allOrNothing_iff {s : PsiIfc} {apps : List App} (holds : Holds s apps)
    {appId : Option Ptr} (live : ∀ handle, appId = some handle → s.appNodes handle ≠ none)
    (id : UInt16) (value : List UInt8) {answers : Answers}
    (fresh : ∀ node, answers.node = some node → s.objectNodes node = none) :
    AllOrNothing s appId id value answers ↔ Affords s appId id value answers := by
  cases appId with
  | none =>
    refine iff_of_true ?_ fun handle null => nomatch null
    intro status s' set
    obtain ⟨rfl, rfl⟩ := set
    exact ⟨fun ok => (nomatch ok), fun _ _ _ => rfl⟩
  | some handle =>
    obtain ⟨front, a, back, rfl, rfl⟩ := holds.split (live handle rfl)
    have object := holds.object mem_append_cons_self id
    simp only [Affords, some_inj, forall_eq', object]
    cases found : a.object id with
    | none => exact holds.allOrNothing_new found fresh
    | some c => exact holds.allOrNothing_old found

local instance idsNeZero : NeZero (2 ^ 32) := ⟨by decide⟩

def oneObject : PsiIfc where
  apps := some 1
  appNodes := fun p => if p = 1 then some ⟨⟨⟨[97], by decide⟩, some 2⟩, none⟩ else none
  objectNodes := fun p => if p = 2 then some ⟨⟨7, 1, some [5]⟩, none⟩ else none
  numberOfChanges := 0

theorem holds_oneObject :
    Holds oneObject [⟨1, ⟨[97], by decide⟩, [(2, ⟨7, 1, some [5]⟩)]⟩] where
  linked := .cons rfl (.nil _)
  objects := by
    intro a mem
    rw [mem_singleton.mp mem]
    exact .cons rfl (.nil _)
  apart := by decide
  all := by
    intro p live
    refine mem_singleton.mpr ?_
    by_contra other
    exact live (if_neg other)

theorem set_allOrNothing_oneObject :
    AllOrNothing oneObject (some 1) 8 [9, 9] ⟨true, true, some 3⟩ ↔
      Affords oneObject (some 1) 8 [9, 9] ⟨true, true, some 3⟩ :=
  set_allOrNothing_iff holds_oneObject
    (by rintro handle same; cases same; exact some_ne_none _) 8 [9, 9]
    (by rintro node same; cases same; rfl)

/-- Without memory for a longer value, success is reported, and reading the object crashes. -/
theorem set_loses_value :
    oneObject.get (some 1) 7 1 (fun _ => 0) = some (.ok, some (1, [5])) ∧
      ∃ s', oneObject.set (some 1) 7 [9, 9] ⟨true, false, some 3⟩ = some (.ok, s') ∧
        s'.get (some 1) 7 2 (fun _ => 0) = none ∧ s'.get (some 1) 7 1 (fun _ => 0) = none := by
  refine ⟨by decide +kernel, ((oneObject.set (some 1) 7 [9, 9] ⟨true, false, some 3⟩).get
    (by decide +kernel)).2, rfl, by decide +kernel, by decide +kernel⟩

end EchoLife.Psi
