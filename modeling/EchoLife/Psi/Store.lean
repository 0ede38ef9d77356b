import EchoLife.Lib.LinkedList

/-!
# The configuration store

The store is a list of applications, each with a name and a list of objects, all of them allocated
cells that point to each other. A caller opens an application by its name and then names it by the
address of its cell, the handle. The allocator is a parameter: each call that allocates is given
the answer it gets.

`Holds s apps` says which applications and objects the cells of a store represent, and the lemmas in
its namespace what each call does to them.
-/

namespace EchoLife.Psi

open List Option Function LinkedList

/-! ## Data -/

abbrev Ptr : Type := Fin (2 ^ 32)

def addresses : Nat := 2 ^ 32

abbrev AppName : Type := { name : List UInt8 // 0 ∉ name }

inductive StoreStatus
  | ok
  | errMemory
  | errObjectNotFound
  | errAppNotFound
  | errInvalidLength
  deriving Repr, DecidableEq

structure PsiObject where
  id : UInt16
  length : Nat
  value : Option (List UInt8)
  deriving Repr, DecidableEq

structure PsiApp where
  appName : AppName
  objects : Option Ptr
  deriving DecidableEq

structure PsiIfc where
  apps : Option Ptr
  appNodes : Heap Ptr PsiApp
  objectNodes : Heap Ptr PsiObject
  numberOfChanges : UInt32

def PsiIfc.empty : PsiIfc where
  apps := none
  appNodes := fun _ => none
  objectNodes := fun _ => none
  numberOfChanges := 0

/-! ## Objects -/

def PsiObject.disposable (object : PsiObject) : Bool := object.value.isSome

def PsiObject.new (id : UInt16) (value : List UInt8) (bget : Bool) : Option PsiObject :=
  if value.length = 0 then none
  else some ⟨id, value.length, if bget then some value else none⟩

def PsiObject.set (object : PsiObject) (value : List UInt8) (bget : Bool) :
    Option (StoreStatus × PsiObject) :=
  if object.length ≠ value.length then
    if object.disposable = false ∨ value.length = 0 then none
    else if bget then some (.ok, ⟨object.id, value.length, some value⟩)
    else some (.errMemory, ⟨object.id, value.length, none⟩)
  else
    match object.value with
    | some _ => some (.ok, { object with value := some value })
    | none => if value.length = 0 then some (.ok, object) else none

/-- `PsiObject::get`: the bytes copied into the buffer, from beyond the value too when the buffer is
longer. -/
def PsiObject.get (object : PsiObject) (len : Nat) (beyond : Nat → UInt8) :
    Option (StoreStatus × Nat × List UInt8) :=
  let status := if len < object.length then .errInvalidLength else .ok
  match object.value with
  | some value =>
    some (status, object.length,
      value.take len ++ (List.range (len - value.length)).map beyond)
  | none => if len = 0 then some (status, object.length, []) else none

theorem PsiObject.set_served {object : PsiObject} {old value : List UInt8}
    (stored : object.value = some old) (size : value.length ≠ 0) :
    object.set value true = some (.ok, ⟨object.id, value.length, some value⟩) := by
  have disposable : object.disposable = true := by
    rw [PsiObject.disposable, stored]
    rfl
  rw [PsiObject.set]
  by_cases same : object.length = value.length
  · rw [if_neg (not_not.mpr same), stored, ← same]
  · rw [if_pos same, disposable, if_neg (by simp [size])]
    rfl

theorem PsiObject.get_stored {object : PsiObject} {value : List UInt8}
    (stored : object.value = some value) (size : object.length = value.length)
    (beyond : Nat → UInt8) :
    object.get value.length beyond = some (.ok, value.length, value) := by
  simp [PsiObject.get, stored, size]

/-! ## Applications -/

def PsiApp.find (objectNodes : Heap Ptr PsiObject) (app : PsiApp) (id : UInt16) :
    Option (Option Ptr) :=
  seek objectNodes (fun _ object => object.id = id) addresses app.objects

def PsiIfc.app (s : PsiIfc) (handle : Ptr) : Option PsiApp :=
  (s.appNodes handle).map Cell.item

def PsiIfc.setApp (s : PsiIfc) (handle : Ptr) (app : PsiApp) : Option PsiIfc :=
  (setItem s.appNodes handle app).map fun appNodes => { s with appNodes }

/-- How the allocator answers `PsiApp::set`: whether there is memory for the object and for its
value, and where the new cell is. -/
structure Answers where
  object : Bool
  value : Bool
  node : Option Ptr
  deriving Repr, DecidableEq

def PsiIfc.addObject (s : PsiIfc) (handle : Ptr) (app : PsiApp) (object : PsiObject)
    (bget : Option Ptr) : Option (StoreStatus × PsiIfc) :=
  match bget with
  | none => some (.errMemory, s)
  | some node => do
      let (objectNodes, objects) ←
        append addresses (update s.objectNodes node (some ⟨object, none⟩)) app.objects node
      let s ← { s with objectNodes }.setApp handle { app with objects }
      pure (.ok, s)

def PsiIfc.setObject (s : PsiIfc) (node : Ptr) (value : List UInt8) (bget : Bool) :
    Option (StoreStatus × PsiIfc) := do
  let cell ← s.objectNodes node
  let (status, object) ← cell.item.set value bget
  let objectNodes ← setItem s.objectNodes node object
  let numberOfChanges :=
    if status = .ok then s.numberOfChanges + 1 else s.numberOfChanges
  pure (status, { s with objectNodes, numberOfChanges })

def PsiIfc.appSet (s : PsiIfc) (handle : Ptr) (app : PsiApp) (id : UInt16) (value : List UInt8)
    (answers : Answers) : Option (StoreStatus × PsiIfc) :=
  match app.find s.objectNodes id with
  | none => none
  | some none =>
    if answers.object then do
      let object ← PsiObject.new id value answers.value
      s.addObject handle app object answers.node
    else some (.errMemory, s)
  | some (some node) => s.setObject node value answers.value

def PsiIfc.appGet (s : PsiIfc) (app : PsiApp) (id : UInt16) (len : Nat) (beyond : Nat → UInt8) :
    Option (StoreStatus × Option (Nat × List UInt8)) :=
  match app.find s.objectNodes id with
  | none => none
  | some none => some (.errObjectNotFound, none)
  | some (some node) => do
      let cell ← s.objectNodes node
      let (status, result) ← cell.item.get len beyond
      pure (status, some result)

def PsiIfc.appRemove (s : PsiIfc) (handle : Ptr) (app : PsiApp) (id : UInt16) :
    Option (StoreStatus × PsiIfc) :=
  match remove addresses s.objectNodes app.objects (fun _ object => object.id = id) with
  | none => none
  | some none => some (.errObjectNotFound, s)
  | some (some (curr, objectNodes, objects)) => do
      let cell ← objectNodes curr
      if cell.item.disposable then
        let s ← { s with objectNodes }.setApp handle { app with objects }
        pure (.ok, s)
      else none

/-! ## The interface -/

def PsiIfc.find (s : PsiIfc) (appId : AppName) : Option (Option Ptr) :=
  seek s.appNodes (fun _ app => app.appName = appId) addresses s.apps

def PsiIfc.openApp (s : PsiIfc) (appId : AppName) (bget : Ptr) : Option (Ptr × PsiIfc) :=
  match s.find appId with
  | none => none
  | some (some node) => some (node, s)
  | some none => do
      let (appNodes, apps) ←
        append addresses (update s.appNodes bget (some ⟨⟨appId, none⟩, none⟩)) s.apps bget
      pure (bget, { s with appNodes, apps })

def PsiIfc.rename (s : PsiIfc) (oldAppId newAppId : AppName) : Option (StoreStatus × PsiIfc) :=
  match s.find oldAppId with
  | none => none
  | some none => some (.errAppNotFound, s)
  | some (some node) => do
      let app ← s.app node
      let s ← s.setApp node { app with appName := newAppId }
      pure (.ok, s)

def PsiIfc.removeApp (s : PsiIfc) (appId : Option Ptr) : Option (StoreStatus × PsiIfc) :=
  match appId with
  | none => some (.errAppNotFound, s)
  | some node =>
    match remove addresses s.appNodes s.apps (fun p _ => p = node) with
    | none => none
    | some none => some (.errAppNotFound, s)
    | some (some (curr, appNodes, apps)) => do
        let cell ← appNodes curr
        let objectNodes ←
          release PsiObject.disposable addresses s.objectNodes cell.item.objects
        pure (.ok, { s with appNodes := update appNodes curr none, objectNodes, apps })

def PsiIfc.removeObject (s : PsiIfc) (appId : Option Ptr) (objectId : UInt16) :
    Option (StoreStatus × PsiIfc) :=
  match appId with
  | none => some (.errAppNotFound, s)
  | some node => do
      let app ← s.app node
      s.appRemove node app objectId

def PsiIfc.set (s : PsiIfc) (appId : Option Ptr) (objectId : UInt16) (value : List UInt8)
    (answers : Answers) : Option (StoreStatus × PsiIfc) :=
  match appId with
  | none => some (.errAppNotFound, s)
  | some node => do
      let app ← s.app node
      let (_, s) ← s.appSet node app objectId value answers
      pure (.ok, s)

def PsiIfc.get (s : PsiIfc) (appId : Option Ptr) (objectId : UInt16) (len : Nat)
    (beyond : Nat → UInt8) : Option (StoreStatus × Option (Nat × List UInt8)) :=
  match appId with
  | none => some (.errAppNotFound, none)
  | some node => do
      let app ← s.app node
      s.appGet app objectId len beyond

/-! ## What the cells represent -/

structure App where
  node : Ptr
  name : AppName
  objects : List (Ptr × PsiObject)

namespace App

def head (a : App) : Option Ptr := a.objects.head?.map Prod.fst

def cell (a : App) : Ptr × PsiApp := (a.node, ⟨a.name, a.head⟩)

def nodes (a : App) : List Ptr := a.objects.map Prod.fst

def object (a : App) (id : UInt16) : Option (Ptr × PsiObject) :=
  lookup (fun c : Ptr × PsiObject => c.2.id) a.objects id

end App

structure Holds (s : PsiIfc) (apps : List App) : Prop where
  linked : Chain s.appNodes s.apps (apps.map App.cell)
  objects : ∀ a ∈ apps, Chain s.objectNodes a.head a.objects
  apart : (apps.flatMap App.nodes).Nodup
  all : ∀ p, s.appNodes p ≠ none → p ∈ apps.map App.node

theorem holds_empty : Holds PsiIfc.empty [] where
  linked := .nil _
  objects := fun _ mem => nomatch mem
  apart := nodup_nil
  all := fun _ allocated => absurd rfl allocated

theorem length_le_addresses {α : Type} {heap : Heap Ptr α} {head : Option Ptr}
    {cells : List (Ptr × α)} (chain : Chain heap head cells) : cells.length ≤ addresses :=
  chain.length_le.trans_eq (Fintype.card_fin _)

open App

theorem map_cell_fst (apps : List App) : (apps.map cell).map Prod.fst = apps.map node := by
  rw [List.map_map]
  rfl

theorem nodes_middle (front back : List App) (a : App) :
    ((front ++ a :: back).flatMap nodes).Nodup
      ↔ (a.nodes ++ (front ++ back).flatMap nodes).Nodup := by
  exact (perm_middle.flatMap_right _).nodup_iff

namespace Holds

variable {s : PsiIfc} {apps front back : List App} {a : App}

section

variable (holds : Holds s apps)
include holds

theorem nodes_nodup : (apps.map node).Nodup := by
  rw [← map_cell_fst]
  exact holds.linked.nodup

theorem split {p : Ptr} (live : s.appNodes p ≠ none) :
    ∃ front a back, apps = front ++ a :: back ∧ a.node = p := by
  obtain ⟨a, mem, rfl⟩ := mem_map.mp (holds.all p live)
  obtain ⟨front, back, rfl⟩ := append_of_mem mem
  exact ⟨front, a, back, rfl, rfl⟩

theorem app (mem : a ∈ apps) : s.app a.node = some ⟨a.name, a.head⟩ := by
  obtain ⟨next, cell⟩ := holds.linked.cell (mem_map_of_mem mem)
  rw [PsiIfc.app, cell, map_some]

theorem allocated (mem : a ∈ apps) {q : Ptr} (inside : q ∈ a.nodes) : s.objectNodes q ≠ none := by
  obtain ⟨⟨q, object⟩, mem', rfl⟩ := mem_map.mp inside
  obtain ⟨next, cell⟩ := (holds.objects a mem).cell mem'
  rw [cell]
  exact some_ne_none _

end

theorem replace {s' : PsiIfc} {a' : App} (holds : Holds s (front ++ a :: back))
    (node : a'.node = a.node)
    (linked' : Chain s'.appNodes s'.apps ((front ++ a' :: back).map cell))
    (all' : ∀ p, s'.appNodes p ≠ none → s.appNodes p ≠ none)
    (objects' : Chain s'.objectNodes a'.head a'.objects)
    (new : ∀ q ∈ a'.nodes, q ∈ a.nodes ∨ s.objectNodes q = none)
    (kept : ∀ q, q ∉ a.nodes → s.objectNodes q ≠ none → s'.objectNodes q = s.objectNodes q) :
    Holds s' (front ++ a' :: back) := by
  obtain ⟨-, rest, apart⟩ := nodup_append.mp ((nodes_middle front back a).mp holds.apart)
  have others : ∀ b ∈ front ++ back, b ∈ front ++ a :: back := by grind
  have outside : ∀ b ∈ front ++ back, ∀ q ∈ b.nodes, q ∉ a.nodes := by
    intro b mem q inside inside'
    exact apart q inside' q (mem_flatMap.mpr ⟨b, mem, inside⟩) rfl
  refine ⟨linked', ?_, ?_, ?_⟩
  · intro b mem
    rw [mem_append, mem_cons, or_left_comm, ← mem_append] at mem
    rcases mem with rfl | mem
    · exact objects'
    · refine (holds.objects b (others b mem)).congr fun q inside => ?_
      exact kept q (outside b mem q inside) (holds.allocated (others b mem) inside)
  · rw [nodes_middle]
    refine nodup_append.mpr ⟨objects'.nodup, rest, ?_⟩
    rintro q inside r inside' rfl
    obtain ⟨b, mem, inside'⟩ := mem_flatMap.mp inside'
    rcases new q inside with old | fresh
    · exact outside b mem q inside' old
    · exact holds.allocated (others b mem) inside' fresh
  · intro p live
    have old := holds.all p (all' p live)
    rw [map_append, map_cons] at old ⊢
    rw [node]
    exact old

theorem replace_app {a' : App} {objectNodes : Heap Ptr PsiObject}
    (holds : Holds s (front ++ a :: back)) (node : a'.node = a.node)
    (objects' : Chain objectNodes a'.head a'.objects)
    (new : ∀ q ∈ a'.nodes, q ∈ a.nodes ∨ s.objectNodes q = none)
    (kept : ∀ q, q ∉ a.nodes → s.objectNodes q ≠ none → objectNodes q = s.objectNodes q) :
    ∃ s', { s with objectNodes }.setApp a.node ⟨a'.name, a'.head⟩ = some s' ∧
      Holds s' (front ++ a' :: back) := by
  have linked := holds.linked
  rw [map_append, map_cons] at linked
  obtain ⟨appNodes, written, linked, same⟩ := Chain.setItem linked ⟨a'.name, a'.head⟩
  refine ⟨{ s with objectNodes, appNodes }, ?_, ?_⟩
  · rw [PsiIfc.setApp, written, map_some]
  · refine holds.replace node ?_ ?_ objects' new kept
    · rw [map_append, map_cons, cell, node]
      exact linked
    · intro p live
      by_cases own : p = a.node
      · obtain ⟨next, cell⟩ := holds.linked.cell (mem_map_of_mem (mem_append_right _
          mem_cons_self))
        rw [own, cell]
        exact some_ne_none _
      · rw [← same p own]
        exact live

/-! ## What the calls do -/

theorem find_object (holds : Holds s apps) (mem : a ∈ apps) (id : UInt16) :
    PsiApp.find s.objectNodes ⟨a.name, a.head⟩ id = some ((a.object id).map Prod.fst) :=
  Chain.seek _ (holds.objects a mem) (length_le_addresses (holds.objects a mem))

theorem find (holds : Holds s apps) (name : AppName) :
    s.find name = some ((lookup App.name apps name).map App.node) := by
  rw [PsiIfc.find, Chain.seek _ holds.linked (length_le_addresses holds.linked), find?_map,
    Option.map_map]
  rfl

theorem get (holds : Holds s apps) (mem : a ∈ apps) (id : UInt16) (len : Nat)
    (beyond : Nat → UInt8) :
    s.get (some a.node) id len beyond
      = match a.object id with
        | none => some (.errObjectNotFound, none)
        | some (_, object) => (object.get len beyond).map fun r => (r.1, some r.2) := by
  rw [PsiIfc.get, holds.app mem, bind_eq_bind, bind_some, PsiIfc.appGet,
    holds.find_object mem]
  cases found : a.object id with
  | none => rfl
  | some c =>
    obtain ⟨q, object⟩ := c
    obtain ⟨next, cell⟩ := (holds.objects a mem).cell (mem_of_find?_eq_some found)
    simp only [map_some, cell, bind_eq_bind, bind_some]
    cases object.get len beyond <;> rfl

theorem addObject (holds : Holds s (front ++ a :: back)) {node : Ptr}
    (fresh : s.objectNodes node = none) (object : PsiObject) :
    ∃ s', s.addObject a.node ⟨a.name, a.head⟩ object (some node) = some (.ok, s') ∧
      Holds s' (front ++ { a with objects := a.objects ++ [(node, object)] } :: back) := by
  have mem : a ∈ front ++ a :: back := mem_append_cons_self
  have outside : node ∉ a.nodes := fun inside => holds.allocated mem inside fresh
  have chain := (holds.objects a mem).update outside (some ⟨object, none⟩)
  obtain ⟨objectNodes, objects, appended, chain', kept⟩ :=
    Chain.append chain (length_le_addresses chain) (update_self ..) outside
  obtain ⟨s', written, holds'⟩ :=
    @replace_app s front back a { a with objects := a.objects ++ [(node, object)] } objectNodes
      holds rfl (by rw [App.head, ← chain'.head_eq_first]; exact chain')
      (by
        intro q inside
        rw [App.nodes, map_append, map_singleton, mem_append,
          mem_singleton] at inside
        exact inside.imp_right fun same => by rw [same, fresh])
      (by
        intro q other live
        rw [kept q other, update_of_ne]
        rintro rfl
        exact live fresh)
  refine ⟨s', ?_, holds'⟩
  rw [PsiIfc.addObject]
  simp only [appended, chain'.head_eq_first, bind_eq_bind, bind_some]
  rw [App.head] at written
  rw [written]
  rfl

theorem setObject_none (holds : Holds s apps) (mem : a ∈ apps) {q : Ptr} {object : PsiObject}
    (inside : (q, object) ∈ a.objects) {value : List UInt8} {bget : Bool}
    (crash : object.set value bget = none) : s.setObject q value bget = none := by
  obtain ⟨next, cell⟩ := (holds.objects a mem).cell inside
  simp only [PsiIfc.setObject, cell, bind_eq_bind, bind_some, crash, bind_none]

theorem setObject (holds : Holds s (front ++ a :: back)) {before behind : List (Ptr × PsiObject)}
    {q : Ptr} {object object' : PsiObject} (split : a.objects = before ++ (q, object) :: behind)
    {value : List UInt8} {bget : Bool} {status : StoreStatus}
    (set : object.set value bget = some (status, object')) :
    ∃ s', s.setObject q value bget = some (status, s') ∧
      Holds s' (front ++ { a with objects := before ++ (q, object') :: behind } :: back) := by
  have mem : a ∈ front ++ a :: back := mem_append_cons_self
  have chain := holds.objects a mem
  rw [split] at chain
  obtain ⟨next, cell⟩ := chain.cell (mem_append_right _ mem_cons_self)
  obtain ⟨objectNodes, written, chain', kept⟩ := Chain.setItem chain object'
  have sameHead : App.head { a with objects := before ++ (q, object') :: behind } = a.head := by
    rw [App.head, App.head, split]
    cases before <;> rfl
  have sameNodes : App.nodes { a with objects := before ++ (q, object') :: behind } = a.nodes := by
    rw [App.nodes, App.nodes, split, map_append, map_append, map_cons, map_cons]
  let numberOfChanges := if status = .ok then s.numberOfChanges + 1 else s.numberOfChanges
  refine ⟨{ s with objectNodes, numberOfChanges }, ?_,
    holds.replace rfl ?_ (fun _ live => live) ?_ ?_ ?_⟩
  · simp only [PsiIfc.setObject, cell, bind_eq_bind, bind_some, set, written]
    rfl
  · rw [map_append, map_cons, App.cell, sameHead]
    have linked := holds.linked
    rw [map_append, map_cons] at linked
    exact linked
  · rw [sameHead]
    exact chain'
  · intro r inside
    rw [sameNodes] at inside
    exact .inl inside
  · intro r other _
    refine kept r ?_
    rintro rfl
    refine other ?_
    rw [App.nodes, split]
    exact mem_map_of_mem (mem_append_right _ mem_cons_self)

theorem appRemove (holds : Holds s (front ++ a :: back)) {before behind : List (Ptr × PsiObject)}
    {q : Ptr} {object : PsiObject} (split : a.objects = before ++ (q, object) :: behind)
    (first : object.id ∉ before.map fun c => c.2.id) (disposable : object.disposable = true) :
    ∃ s', s.appRemove a.node ⟨a.name, a.head⟩ object.id = some (.ok, s') ∧
      Holds s' (front ++ { a with objects := before ++ behind } :: back) := by
  have mem : a ∈ front ++ a :: back := mem_append_cons_self
  have chain := holds.objects a mem
  rw [split] at chain
  have passed : ∀ c ∈ before, decide (c.2.id = object.id) = false := by grind
  obtain ⟨objectNodes, objects, removed, chain', cell, kept⟩ :=
    @Chain.remove _ _ _ _ _ _ _ _ (fun _ other => decide (other.id = object.id)) _ _ chain
      (length_le_addresses chain) passed (decide_eq_true rfl)
  have nodes : ∀ r, r ∈ a.nodes ↔ r ∈ before.map Prod.fst ∨ r = q ∨ r ∈ behind.map Prod.fst := by
    intro r
    rw [App.nodes, split, map_append, map_cons, mem_append, mem_cons]
  obtain ⟨s', written, holds'⟩ :=
    @replace_app s front back a { a with objects := before ++ behind } objectNodes holds rfl
      (by rw [App.head, ← chain'.head_eq_first]; exact chain')
      (by
        intro r inside
        rw [App.nodes, map_append, mem_append] at inside
        exact .inl ((nodes r).mpr (inside.imp_right .inr)))
      (by
        intro r other _
        rw [nodes, not_or, not_or] at other
        exact kept r other.2.1 other.1)
  refine ⟨s', ?_, holds'⟩
  rw [PsiIfc.appRemove]
  simp only [removed, cell, disposable, if_true, chain'.head_eq_first, bind_eq_bind,
    bind_some]
  rw [App.head] at written
  rw [written]
  rfl

theorem appRemove_none (holds : Holds s apps) (mem : a ∈ apps) {id : UInt16}
    (absent : a.object id = none) :
    s.appRemove a.node ⟨a.name, a.head⟩ id = some (.errObjectNotFound, s) := by
  have chain := holds.objects a mem
  have passed : ∀ c ∈ a.objects, decide (c.2.id = id) = false := by
    intro c mem
    refine decide_eq_false ?_
    rintro rfl
    exact lookup_eq_none.mp absent (mem_map_of_mem mem)
  rw [PsiIfc.appRemove, Chain.remove_none chain (length_le_addresses chain) passed]

theorem rename (holds : Holds s (front ++ a :: back)) (name : AppName) :
    ∃ s', s.setApp a.node ⟨name, a.head⟩ = some s' ∧
      Holds s' (front ++ { a with name } :: back) := by
  have mem : a ∈ front ++ a :: back := mem_append_cons_self
  exact @replace_app s front back a { a with name } s.objectNodes holds rfl (holds.objects a mem)
    (fun _ inside => .inl inside) (fun _ _ _ => rfl)

theorem openApp (holds : Holds s apps) {name : AppName} {node : Ptr}
    (fresh : s.appNodes node = none) (absent : lookup App.name apps name = none) :
    ∃ s', s.openApp name node = some (node, s') ∧ Holds s' (apps ++ [⟨node, name, []⟩]) := by
  have outside : node ∉ (apps.map App.cell).map Prod.fst := by
    intro inside
    obtain ⟨⟨p, app⟩, mem, rfl⟩ := mem_map.mp inside
    obtain ⟨next, cell⟩ := holds.linked.cell mem
    rw [cell] at fresh
    cases fresh
  have chain := holds.linked.update outside (some ⟨⟨name, none⟩, none⟩)
  obtain ⟨appNodes, first, appended, chain', kept⟩ :=
    Chain.append chain (length_le_addresses chain) (update_self ..) outside
  refine ⟨{ s with appNodes, apps := first }, ?_, ?_, ?_, ?_, ?_⟩
  · rw [PsiIfc.openApp, holds.find, absent]
    simp only [map_none, appended, bind_eq_bind, bind_some]
    rfl
  · rw [map_append]
    exact chain'
  · intro b mem
    rcases mem_append.mp mem with mem | mem
    · exact holds.objects b mem
    · rw [mem_singleton] at mem
      rw [mem]
      exact .nil _
  · rw [flatMap_append, flatMap_singleton]
    exact (append_nil _).symm ▸ holds.apart
  · intro p live
    rw [map_append, mem_append]
    by_cases inside : p ∈ (apps.map App.cell).map Prod.fst
    · rw [map_cell_fst] at inside
      exact .inl inside
    · right
      by_cases new : p = node
      · exact mem_singleton.mpr new
      · have same : appNodes p = s.appNodes p :=
          (kept p inside).trans (update_of_ne new ..)
        rw [map_cell_fst] at inside
        exact absurd (holds.all p (same ▸ live)) inside

theorem removeApp (holds : Holds s (front ++ a :: back))
    (disposable : ∀ c ∈ a.objects, c.2.disposable = true) :
    ∃ s', s.removeApp (some a.node) = some (.ok, s') ∧ Holds s' (front ++ back) := by
  have mem : a ∈ front ++ a :: back := mem_append_cons_self
  have unique := holds.nodes_nodup
  rw [map_append, map_cons, nodup_middle, nodup_cons, mem_append,
    not_or] at unique
  have chain := holds.linked
  rw [map_append, map_cons] at chain
  have passed : ∀ c ∈ front.map cell, decide (c.1 = a.node) = false := by
    intro c mem
    refine decide_eq_false fun same => unique.1.1 ?_
    rw [← same, ← map_cell_fst]
    exact mem_map_of_mem mem
  obtain ⟨appNodes, first, removed, chain', cell, kept⟩ :=
    @Chain.remove _ _ _ _ _ _ _ _ (fun p _ => decide (p = a.node)) _ _ chain
      (length_le_addresses chain) passed (decide_eq_true rfl)
  have objects := holds.objects a mem
  obtain ⟨objectNodes, released, kept'⟩ :=
    Chain.release objects (length_le_addresses objects) disposable
  obtain ⟨-, rest, apart⟩ := nodup_append.mp ((nodes_middle front back a).mp holds.apart)
  rw [← map_append] at chain'
  refine ⟨{ s with appNodes := update appNodes a.node none, objectNodes, apps := first },
    ?_, ?_, ?_, rest, ?_⟩
  · simp only [PsiIfc.removeApp, removed, cell, released, bind_eq_bind, bind_some]
    rfl
  · refine chain'.update ?_ none
    rw [map_cell_fst, map_append, mem_append, not_or]
    exact unique.1
  · intro b mem'
    have others : b ∈ front ++ a :: back := by
      rw [mem_append] at mem' ⊢
      exact mem'.imp_right (mem_cons_of_mem _)
    refine (holds.objects b others).congr fun q inside => kept' q fun inside' => ?_
    exact apart q inside' q (mem_flatMap.mpr ⟨b, mem', inside⟩) rfl
  · intro p live
    have other : p ≠ a.node := by
      rintro rfl
      exact live (update_self ..)
    have live : appNodes p ≠ none := fun gone => live ((update_of_ne other ..).trans gone)
    rw [map_append, mem_append]
    by_cases inside : p ∈ front.map node
    · exact .inl inside
    · rw [kept p other (by rwa [map_cell_fst])] at live
      have old := holds.all p live
      rw [map_append, map_cons, mem_append, mem_cons] at old
      exact old.imp_right fun behind => behind.resolve_left other

end Holds

end EchoLife.Psi
