import EchoLife.Psi.Store

/-!
# The configuration store as a map

`Directory` is the store as its callers see it: a map from application names to maps from object ids
to bytes. Every run of calls, none of them renaming an application to the name of another one,
answers as the same run on the directory (`store_refines_directory`); `rename_repeats_name` is a run
with such a renaming.
-/

namespace EchoLife.Psi

open List Option Function LinkedList PsiIfc App

/-! ## Directories -/

structure Directory where
  name : Ptr → Option AppName
  content : AppName → Option (UInt16 → Option (List UInt8))

inductive Call
  | openApp (appId : AppName) (node : Ptr)
  | rename (oldAppId newAppId : AppName)
  | removeApp (appId : Ptr)
  | removeObject (appId : Ptr) (objectId : UInt16)
  | set (appId : Ptr) (objectId : UInt16) (value : List UInt8) (node : Ptr)

namespace Directory

def empty : Directory where
  name := fun _ => none
  content := fun _ => none

def edit (d : Directory) (handle : Ptr)
    (change : (UInt16 → Option (List UInt8)) → UInt16 → Option (List UInt8)) : Directory :=
  match d.name handle with
  | none => d
  | some name => { d with content := update d.content name ((d.content name).map change) }

def insert (d : Directory) (handle : Ptr) (appName : AppName)
    (objects : UInt16 → Option (List UInt8)) : Directory where
  name := update d.name handle (some appName)
  content := update d.content appName (some objects)

def call (d : Directory) : Call → Directory
  | .openApp appId node =>
    match d.content appId with
    | some _ => d
    | none => d.insert node appId fun _ => none
  | .rename oldAppId newAppId =>
    match d.content oldAppId with
    | none => d
    | some objects =>
      { name := fun p => if d.name p = some oldAppId then some newAppId else d.name p
        content := update (update d.content oldAppId none) newAppId
          (some objects) }
  | .removeApp appId =>
    match d.name appId with
    | none => d
    | some name =>
      { name := update d.name appId none
        content := update d.content name none }
  | .removeObject appId objectId =>
    d.edit appId fun objects => update objects objectId none
  | .set appId objectId value _ =>
    d.edit appId fun objects => update objects objectId (some value)

def run (calls : List Call) : Directory := calls.foldl call empty

end Directory

/-! ## Runs of the store -/

def PsiIfc.call (s : PsiIfc) : Call → Option PsiIfc
  | .openApp appId node => (s.openApp appId node).map Prod.snd
  | .rename oldAppId newAppId => (s.rename oldAppId newAppId).map Prod.snd
  | .removeApp appId => (s.removeApp (some appId)).map Prod.snd
  | .removeObject appId objectId => (s.removeObject (some appId) objectId).map Prod.snd
  | .set appId objectId value node =>
    (s.set (some appId) objectId value ⟨true, true, some node⟩).map Prod.snd

def PsiIfc.run (s : PsiIfc) (calls : List Call) : Option PsiIfc := calls.foldlM PsiIfc.call s

def Call.Served (s : PsiIfc) : Call → Prop
  | .openApp appId node => s.find appId = some none → s.appNodes node = none
  | .rename _ _ => True
  | .removeApp appId => s.appNodes appId ≠ none
  | .removeObject appId _ => s.appNodes appId ≠ none
  | .set appId objectId value node =>
    s.appNodes appId ≠ none ∧ value.length ≠ 0 ∧
      (((s.app appId).bind fun app => app.find s.objectNodes objectId) = some none →
        s.objectNodes node = none)

def Call.KeepsNames (s : PsiIfc) : Call → Prop
  | .rename oldAppId newAppId =>
    s.find oldAppId = some none ∨ s.find newAppId = some none ∨ oldAppId = newAppId
  | _ => True

instance (s : PsiIfc) (c : Call) : Decidable (c.Served s) :=
  match c with
  | .openApp _ _ => inferInstanceAs (Decidable (_ → _))
  | .rename _ _ => inferInstanceAs (Decidable True)
  | .removeApp _ => inferInstanceAs (Decidable (_ ≠ _))
  | .removeObject _ _ => inferInstanceAs (Decidable (_ ≠ _))
  | .set _ _ _ _ => inferInstanceAs (Decidable (_ ∧ _ ∧ (_ → _)))

instance (s : PsiIfc) (c : Call) : Decidable (c.KeepsNames s) :=
  match c with
  | .rename _ _ => inferInstanceAs (Decidable (_ ∨ _ ∨ _))
  | .openApp _ _ | .removeApp _ | .removeObject _ _ | .set _ _ _ _ =>
    inferInstanceAs (Decidable True)

def Along (condition : PsiIfc → Call → Prop) : PsiIfc → List Call → Prop
  | _, [] => True
  | s, c :: calls =>
    condition s c ∧
      match s.call c with
      | none => True
      | some s' => Along condition s' calls

instance {condition : PsiIfc → Call → Prop} [∀ s c, Decidable (condition s c)] :
    ∀ s calls, Decidable (Along condition s calls)
  | _, [] => inferInstanceAs (Decidable True)
  | s, c :: calls =>
    haveI : Decidable (match s.call c with
        | none => True
        | some s' => Along condition s' calls) :=
      match s.call c with
      | none => inferInstanceAs (Decidable True)
      | some s' => instDecidableAlong s' calls
    inferInstanceAs (Decidable (_ ∧ _))

def Call.handle : Call → Option Ptr
  | .openApp _ _ => none
  | .rename _ _ => none
  | .removeApp appId => some appId
  | .removeObject appId _ => some appId
  | .set appId _ _ _ => some appId

structure Refines (s : PsiIfc) (d : Directory) : Prop where
  unique : ∀ p q name, d.name p = some name → d.name q = some name → p = q
  /-- The handles are those of the cells in use, and stand for the applications of their names. -/
  name : ∀ p, (s.app p).map PsiApp.appName = d.name p
  content : ∀ name, d.content name ≠ none ↔ ∃ p, d.name p = some name
  find : ∀ name p, s.find name = some (some p) ↔ d.name p = some name
  /-- An object's bytes are read into a buffer of their length. -/
  get : ∀ p name objects id bytes, d.name p = some name → d.content name = some objects →
    objects id = some bytes → ∀ beyond,
      s.get (some p) id bytes.length beyond = some (.ok, some (bytes.length, bytes))
  absent : ∀ p name objects id, d.name p = some name → d.content name = some objects →
    objects id = none → ∀ len beyond,
      s.get (some p) id len beyond = some (.errObjectNotFound, none)

/-! ## The directory of the represented applications -/

structure Sound (apps : List App) : Prop where
  names : (apps.map App.name).Nodup
  ids : ∀ a ∈ apps, (a.objects.map fun c => c.2.id).Nodup
  values : ∀ a ∈ apps, ∀ c ∈ a.objects, ∃ value, c.2.value = some value ∧ c.2.length = value.length

def App.content (a : App) (id : UInt16) : Option (List UInt8) :=
  (a.object id).bind fun c => c.2.value

def directory (apps : List App) : Directory where
  name p := (lookup App.node apps p).map App.name
  content name := (lookup App.name apps name).map App.content

theorem content_middle {before behind : List (Ptr × PsiObject)} {c : Ptr × PsiObject}
    (unique : ((before ++ c :: behind).map fun c => c.2.id).Nodup) (node : Ptr) (name : AppName) :
    content ⟨node, name, before ++ c :: behind⟩
      = update (content ⟨node, name, before ++ behind⟩) c.2.id c.2.value := by
  funext id
  rw [content, object, lookup_middle unique]
  by_cases same : c.2.id = id
  · rw [if_pos same, ← same, update_self, bind_some]
  · rw [if_neg same, update_of_ne (Ne.symm same)]
    rfl

theorem content_middle_none {before behind : List (Ptr × PsiObject)} {c : Ptr × PsiObject}
    (unique : ((before ++ c :: behind).map fun c => c.2.id).Nodup) (node : Ptr) (name : AppName) :
    content ⟨node, name, before ++ behind⟩ c.2.id = none := by
  rw [content, object]
  rw [lookup_middle_none unique, bind_none]

section Directories

variable {front back : List App} {a : App}

theorem directory_middle (nodes : ((front ++ a :: back).map node).Nodup)
    (names : ((front ++ a :: back).map name).Nodup) :
    directory (front ++ a :: back)
      = (directory (front ++ back)).insert a.node a.name a.content := by
  rw [directory, Directory.insert, Directory.mk.injEq]
  constructor
  · funext p
    rw [lookup_middle nodes]
    by_cases same : a.node = p
    · rw [if_pos same, ← same, update_self, map_some]
    · rw [if_neg same, update_of_ne (Ne.symm same)]
      rfl
  · funext name
    rw [lookup_middle names]
    by_cases same : a.name = name
    · rw [if_pos same, ← same, update_self, map_some]
    · rw [if_neg same, update_of_ne (Ne.symm same)]
      rfl

theorem directory_name_none (nodes : ((front ++ a :: back).map node).Nodup) :
    (directory (front ++ back)).name a.node = none := by
  rw [directory]
  simp only [lookup_middle_none nodes, map_none]

theorem directory_content_none (names : ((front ++ a :: back).map name).Nodup) :
    (directory (front ++ back)).content a.name = none := by
  rw [directory]
  simp only [lookup_middle_none names, map_none]

theorem mem_names_of_directory {apps : List App} {p : Ptr} {name : AppName}
    (named : (directory apps).name p = some name) : name ∈ apps.map App.name := by
  obtain ⟨b, found, rfl⟩ := map_eq_some_iff.mp named
  exact mem_map_of_mem (mem_of_find?_eq_some found)

theorem directory_edit {objects : List (Ptr × PsiObject)}
    (nodes : ((front ++ a :: back).map node).Nodup)
    (names : ((front ++ a :: back).map name).Nodup)
    {change : (UInt16 → Option (List UInt8)) → UInt16 → Option (List UInt8)}
    (changed : content { a with objects } = change a.content) :
    directory (front ++ { a with objects } :: back)
      = (directory (front ++ a :: back)).edit a.node change := by
  have nodes' : ((front ++ { a with objects } :: back).map node).Nodup := by
    rw [map_append, map_cons] at nodes ⊢
    exact nodes
  have names' : ((front ++ { a with objects } :: back).map name).Nodup := by
    rw [map_append, map_cons] at names ⊢
    exact names
  rw [directory_middle nodes' names', directory_middle nodes names, changed, Directory.edit,
    Directory.insert, Directory.insert]
  simp only [update_self, map_some, update_idem]

end Directories

/-! ## One call -/

namespace Sound

variable {apps front back : List App} {a : App}

theorem replace (sound : Sound (front ++ a :: back)) {a' : App}
    (name : a'.name = a.name ∨ a'.name ∉ (front ++ a :: back).map name)
    (ids : (a'.objects.map fun c => c.2.id).Nodup)
    (values : ∀ c ∈ a'.objects, ∃ value, c.2.value = some value ∧ c.2.length = value.length) :
    Sound (front ++ a' :: back) := by
  have others : ∀ b ∈ front ++ a' :: back, b = a' ∨ b ∈ front ++ a :: back := by grind
  refine ⟨?_, ?_, ?_⟩
  · have names := sound.names
    rw [map_append, map_cons] at names name ⊢
    rcases name with same | new
    · rw [same]
      exact names
    · rw [nodup_middle, nodup_cons] at names ⊢
      refine ⟨fun mem => new ?_, names.2⟩
      rw [mem_append] at mem ⊢
      exact mem.imp_right (mem_cons_of_mem _)
  · intro b mem
    rcases others b mem with rfl | mem
    · exact ids
    · exact sound.ids b mem
  · intro b mem
    rcases others b mem with rfl | mem
    · exact values
    · exact sound.values b mem

theorem disposable (sound : Sound apps) (mem : a ∈ apps) {c : Ptr × PsiObject}
    (inside : c ∈ a.objects) : c.2.disposable = true := by
  obtain ⟨value, stored, -⟩ := sound.values a mem c inside
  rw [PsiObject.disposable, stored]
  rfl

end Sound

structure Simulates (apps : List App) (c : Call) (s' : PsiIfc) (apps' : List App) : Prop where
  holds : Holds s' apps'
  sound : Sound apps'
  directory : directory apps' = (directory apps).call c
  frame : ∀ b ∈ apps, c.handle ≠ some b.node → ∃ b' ∈ apps', b'.node = b.node ∧
    b'.objects = b.objects

section Steps

variable {s : PsiIfc} {apps front back : List App} {a : App}

theorem frame_replace (front back : List App) (a : App) (objects : List (Ptr × PsiObject))
    {c : Call} (own : c.handle = some a.node) :
    ∀ b ∈ front ++ a :: back, c.handle ≠ some b.node →
      ∃ b' ∈ front ++ { a with objects } :: back, b'.node = b.node ∧ b'.objects = b.objects := by
  intro b mem other
  refine ⟨b, ?_, rfl, rfl⟩
  rw [mem_append, mem_cons] at mem ⊢
  rcases mem with mem | rfl | mem
  · exact .inl mem
  · exact absurd own other
  · exact .inr (.inr mem)

section

variable (holds : Holds s apps) (sound : Sound apps)
include holds sound

theorem call_openApp {appId : AppName} {node : Ptr}
    (served : s.find appId = some none → s.appNodes node = none) :
    ∃ s' apps', s.call (.openApp appId node) = some s' ∧
      Simulates apps (.openApp appId node) s' apps' := by
  cases found : lookup name apps appId with
  | some a =>
    have content : (directory apps).content appId = some a.content := by
      rw [directory]
      simp only [found, map_some]
    refine ⟨s, apps, ?_, holds, sound, ?_, fun b mem _ => ⟨b, mem, rfl, rfl⟩⟩
    · rw [call, openApp, holds.find, found]
      rfl
    · rw [Directory.call, content]
  | none =>
    have fresh : s.appNodes node = none := served (by rw [holds.find, found, map_none])
    obtain ⟨s', opened, holds'⟩ := holds.openApp fresh found
    have content : (directory apps).content appId = none := by
      rw [directory]
      simp only [found, map_none]
    have names : ((apps ++ [(⟨node, appId, []⟩ : App)]).map name).Nodup := by
      rw [nodup_middle_iff, append_nil]
      exact ⟨lookup_eq_none.mp found, sound.names⟩
    refine ⟨s', apps ++ [⟨node, appId, []⟩], ?_, holds', ⟨names, ?_, ?_⟩, ?_, ?_⟩
    · rw [call, opened, map_some]
    · intro b mem
      rcases mem_append.mp mem with mem | mem
      · exact sound.ids b mem
      · rw [mem_singleton.mp mem]
        exact nodup_nil
    · intro b mem c inside
      rcases mem_append.mp mem with mem | mem
      · exact sound.values b mem c inside
      · rw [mem_singleton.mp mem] at inside
        cases inside
    · rw [directory_middle holds'.nodes_nodup names, append_nil, Directory.call, content]
      rfl
    · exact fun b mem _ => ⟨b, mem_append_left _ mem, rfl, rfl⟩

theorem call_rename {oldAppId newAppId : AppName}
    (keeps : (Call.rename oldAppId newAppId).KeepsNames s) :
    ∃ s' apps', s.call (.rename oldAppId newAppId) = some s' ∧
      Simulates apps (.rename oldAppId newAppId) s' apps' := by
  cases found : lookup App.name apps oldAppId with
  | none =>
    have content : (directory apps).content oldAppId = none := by
      rw [directory]
      simp only [found, map_none]
    refine ⟨s, apps, ?_, holds, sound, ?_, fun b mem _ => ⟨b, mem, rfl, rfl⟩⟩
    · rw [call, rename, holds.find, found]
      rfl
    · rw [Directory.call, content]
  | some a =>
    have found' := holds.find oldAppId
    rw [found, map_some] at found'
    obtain ⟨front, back, rfl, rfl, -⟩ := lookup_eq_some found
    have mem : a ∈ front ++ a :: back := mem_append_cons_self
    have new : newAppId = a.name ∨ newAppId ∉ (front ++ a :: back).map App.name := by
      rw [Call.KeepsNames, found', holds.find newAppId] at keeps
      rcases keeps with absurdity | absent | same
      · cases absurdity
      · rw [some_inj, map_eq_none_iff] at absent
        exact .inr (lookup_eq_none.mp absent)
      · exact .inl same.symm
    obtain ⟨s', written, holds'⟩ := holds.rename newAppId
    have sound' := @Sound.replace _ _ _ sound { a with name := newAppId } new (sound.ids a mem)
      (sound.values a mem)
    refine ⟨s', _, ?_, holds', sound', ?_, ?_⟩
    · rw [call, rename, found']
      simp only [holds.app mem, bind_eq_bind, bind_some, written, Option.pure_def,
        map_some]
    · rw [directory_middle holds'.nodes_nodup sound'.names,
        directory_middle holds.nodes_nodup sound.names, Directory.call, Directory.insert,
        Directory.insert]
      simp only [update_self, Directory.mk.injEq]
      constructor
      · funext p
        by_cases own : p = a.node
        · rw [own, update_self, update_self, if_pos rfl]
        · rw [update_of_ne own, update_of_ne own, if_neg]
          intro named
          exact (nodup_middle_iff.mp sound.names).1 (mem_names_of_directory named)
      · have cleared : update (directory (front ++ back)).content a.name none
            = (directory (front ++ back)).content :=
          update_eq_self_iff.mpr (directory_content_none sound.names).symm
        rw [update_idem, cleared]
        rfl
    · intro b mem _
      rw [mem_append, mem_cons] at mem
      rcases mem with mem | rfl | mem
      · exact ⟨b, mem_append_left _ mem, rfl, rfl⟩
      · exact ⟨_, mem_append_right _ mem_cons_self, rfl, rfl⟩
      · exact ⟨b, mem_append_right _ (mem_cons_of_mem _ mem), rfl, rfl⟩

theorem call_removeApp {appId : Ptr} (live : s.appNodes appId ≠ none) :
    ∃ s' apps', s.call (.removeApp appId) = some s' ∧
      Simulates apps (.removeApp appId) s' apps' := by
  obtain ⟨front, a, back, rfl, rfl⟩ := holds.split live
  have mem : a ∈ front ++ a :: back := mem_append_cons_self
  have others : ∀ b ∈ front ++ back, b ∈ front ++ a :: back := by grind
  obtain ⟨s', removed, holds'⟩ := holds.removeApp fun c inside => sound.disposable mem inside
  refine ⟨s', front ++ back, ?_, holds', ⟨?_, ?_, ?_⟩, ?_, ?_⟩
  · rw [call, removed, map_some]
  · exact (nodup_middle_iff.mp sound.names).2
  · exact fun b mem => sound.ids b (others b mem)
  · exact fun b mem => sound.values b (others b mem)
  · rw [directory_middle holds.nodes_nodup sound.names, Directory.call, Directory.insert]
    simp only [update_self, update_idem]
    rw [update_eq_self_iff.mpr (directory_name_none holds.nodes_nodup).symm,
      update_eq_self_iff.mpr (directory_content_none sound.names).symm]
  · intro b mem other
    refine ⟨b, ?_, rfl, rfl⟩
    rw [mem_append, mem_cons] at mem
    rw [mem_append]
    refine mem.imp_right fun behind => behind.resolve_left ?_
    rintro rfl
    exact other rfl

theorem call_removeObject {appId : Ptr} (live : s.appNodes appId ≠ none) (id : UInt16) :
    ∃ s' apps', s.call (.removeObject appId id) = some s' ∧
      Simulates apps (.removeObject appId id) s' apps' := by
  obtain ⟨front, a, back, rfl, rfl⟩ := holds.split live
  have mem : a ∈ front ++ a :: back := mem_append_cons_self
  cases found : a.object id with
  | none =>
    refine ⟨s, _, ?_, holds, sound, ?_, fun b mem _ => ⟨b, mem, rfl, rfl⟩⟩
    · simp only [call, removeObject, holds.app mem, bind_eq_bind,
        bind_some, holds.appRemove_none mem found, map_some]
    · refine @directory_edit _ _ a a.objects holds.nodes_nodup sound.names _ ?_
      symm
      exact update_eq_self_iff.mpr (by rw [content, found]; rfl)
  | some c =>
    obtain ⟨q, object⟩ := c
    obtain ⟨before, behind, split, rfl, first⟩ := lookup_eq_some found
    have inside : (q, object) ∈ a.objects := mem_of_find?_eq_some found
    have ids := sound.ids a mem
    rw [split] at ids
    obtain ⟨s', removed, holds'⟩ :=
      holds.appRemove split first (sound.disposable mem inside)
    refine ⟨s', _, ?_, holds', sound.replace (.inl rfl) ?_ ?_, ?_, ?_⟩
    · simp only [call, removeObject, holds.app mem, bind_eq_bind,
        bind_some, removed, map_some]
    · exact (nodup_middle_iff.mp ids).2
    · intro c inside
      refine sound.values a mem c ?_
      rw [split, mem_append]
      exact (mem_append.mp inside).imp_right (mem_cons_of_mem _)
    · refine directory_edit holds.nodes_nodup sound.names ?_
      have content : a.content
          = content ⟨a.node, a.name, before ++ (q, object) :: behind⟩ := by rw [← split]
      rw [content, content_middle ids, update_idem]
      exact (update_eq_self_iff.mpr (content_middle_none ids a.node a.name).symm).symm
    · exact frame_replace front back a _ rfl

theorem call_set {appId node : Ptr} {id : UInt16} {value : List UInt8}
    (served : (Call.set appId id value node).Served s) :
    ∃ s' apps', s.call (.set appId id value node) = some s' ∧
      Simulates apps (.set appId id value node) s' apps' := by
  obtain ⟨live, size, fresh⟩ := served
  obtain ⟨front, a, back, rfl, rfl⟩ := holds.split live
  have mem : a ∈ front ++ a :: back := mem_append_cons_self
  have looked := holds.find_object mem id
  cases found : a.object id with
  | none =>
    have ids : ((a.objects ++ [(node, (⟨id, value.length, some value⟩ : PsiObject))]).map
        fun c => c.2.id).Nodup := by
      rw [nodup_middle_iff, append_nil]
      exact ⟨lookup_eq_none.mp found, sound.ids a mem⟩
    rw [found] at looked
    rw [holds.app mem, bind_some] at fresh
    obtain ⟨s', added, holds'⟩ := holds.addObject (fresh looked) ⟨id, value.length, some value⟩
    refine ⟨s', _, ?_, holds', sound.replace (.inl rfl) ids ?_, ?_, ?_⟩
    · simp only [PsiIfc.call, PsiIfc.set, holds.app mem, bind_eq_bind, bind_some,
        PsiIfc.appSet, looked, map_none, if_true, PsiObject.new, size, if_false, added,
        Option.pure_def, map_some]
    · intro c inside
      rcases mem_append.mp inside with inside | inside
      · exact sound.values a mem c inside
      · rw [mem_singleton.mp inside]
        exact ⟨value, rfl, rfl⟩
    · refine directory_edit holds.nodes_nodup sound.names ?_
      rw [content_middle ids, append_nil]
    · exact frame_replace front back a _ rfl
  | some c =>
    obtain ⟨q, object⟩ := c
    obtain ⟨before, behind, split, rfl, -⟩ := lookup_eq_some found
    have inside : (q, object) ∈ a.objects := mem_of_find?_eq_some found
    obtain ⟨old, stored, -⟩ := sound.values a mem _ inside
    have ids := sound.ids a mem
    rw [split] at ids
    have ids' : ((before ++ (q, (⟨object.id, value.length, some value⟩ : PsiObject))
        :: behind).map fun c => c.2.id).Nodup := by
      rw [nodup_middle_iff] at ids ⊢
      exact ids
    obtain ⟨s', changed, holds'⟩ :=
      holds.setObject split (PsiObject.set_served stored size)
    refine ⟨s', _, ?_, holds', sound.replace (.inl rfl) ids' ?_, ?_, ?_⟩
    · rw [found] at looked
      simp only [PsiIfc.call, PsiIfc.set, holds.app mem, bind_eq_bind, bind_some,
        PsiIfc.appSet, looked, map_some, changed, Option.pure_def]
    · intro c inside
      rw [mem_append, mem_cons] at inside
      rcases inside with inside | rfl | inside
      · exact sound.values a mem c (by rw [split]; exact mem_append_left _ inside)
      · exact ⟨value, rfl, rfl⟩
      · refine sound.values a mem c ?_
        rw [split]
        exact mem_append_right _ (mem_cons_of_mem _ inside)
    · refine directory_edit holds.nodes_nodup sound.names ?_
      have content : a.content
          = content ⟨a.node, a.name, before ++ (q, object) :: behind⟩ := by rw [← split]
      rw [content, content_middle ids, content_middle ids', update_idem]
    · exact frame_replace front back a _ rfl

theorem call_simulates {c : Call} (served : c.Served s) (keeps : c.KeepsNames s) :
    ∃ s' apps', s.call c = some s' ∧ Simulates apps c s' apps' := by
  cases c with
  | openApp appId node => exact call_openApp holds sound served
  | rename oldAppId newAppId => exact call_rename holds sound keeps
  | removeApp appId => exact call_removeApp holds sound served
  | removeObject appId objectId => exact call_removeObject holds sound served objectId
  | set appId objectId value node => exact call_set holds sound served

end

end Steps

/-! ## Runs -/

theorem run_simulates {s : PsiIfc} {apps : List App} (holds : Holds s apps) (sound : Sound apps)
    {calls : List Call} (served : Along (fun s c => c.Served s) s calls)
    (keeps : Along (fun s c => c.KeepsNames s) s calls) :
    ∃ s' apps', s.run calls = some s' ∧ Holds s' apps' ∧ Sound apps' ∧
      directory apps' = calls.foldl Directory.call (directory apps) := by
  induction calls generalizing s apps with
  | nil => exact ⟨s, apps, rfl, holds, sound, rfl⟩
  | cons c calls ih =>
    obtain ⟨s', apps', called, simulates⟩ := call_simulates holds sound served.1 keeps.1
    rw [Along, called] at served keeps
    obtain ⟨s'', apps'', ran, holds', sound', same⟩ :=
      ih simulates.holds simulates.sound served.2 keeps.2
    refine ⟨s'', apps'', ?_, holds', sound', ?_⟩
    · rw [run, foldlM_cons, called]
      exact ran
    · rw [same, simulates.directory, foldl_cons]

section Reading

variable {s : PsiIfc} {apps : List App} {a : App}

theorem directory_name_iff (holds : Holds s apps) {p : Ptr} {name : AppName} :
    (directory apps).name p = some name ↔ ∃ a ∈ apps, a.node = p ∧ a.name = name := by
  constructor
  · intro named
    obtain ⟨a, found, rfl⟩ := map_eq_some_iff.mp named
    obtain ⟨front, back, rfl, rfl, -⟩ := lookup_eq_some found
    exact ⟨a, mem_append_cons_self, rfl, rfl⟩
  · rintro ⟨a, mem, rfl, rfl⟩
    exact map_eq_some_iff.mpr ⟨a, lookup_of_mem holds.nodes_nodup mem, rfl⟩

theorem refines_directory (holds : Holds s apps) (sound : Sound apps) :
    Refines s (directory apps) where
  unique := by
    intro p q name first second
    obtain ⟨a, mem, rfl, rfl⟩ := (directory_name_iff holds).mp first
    obtain ⟨b, mem', rfl, same⟩ := (directory_name_iff holds).mp second
    have found := lookup_of_mem sound.names mem
    rw [← same, lookup_of_mem sound.names mem', some_inj] at found
    rw [found]
  name := by
    intro p
    cases live : s.appNodes p with
    | none =>
      rw [app, live, map_none, map_none]
      symm
      refine map_eq_none_iff.mpr (lookup_eq_none.mpr fun there => ?_)
      obtain ⟨a, mem, rfl⟩ := mem_map.mp there
      have known := holds.app mem
      rw [app, live] at known
      cases known
    | some cell =>
      obtain ⟨front, a, back, rfl, rfl⟩ :=
        holds.split (by rw [live]; exact some_ne_none _)
      have mem : a ∈ front ++ a :: back := mem_append_cons_self
      rw [holds.app mem, map_some]
      exact ((directory_name_iff holds).mpr ⟨a, mem, rfl, rfl⟩).symm
  content := by
    intro name
    constructor
    · intro there
      obtain ⟨objects, content⟩ := ne_none_iff_exists'.mp there
      obtain ⟨a, found, rfl⟩ := map_eq_some_iff.mp content
      obtain ⟨front, back, rfl, rfl, -⟩ := lookup_eq_some found
      have mem : a ∈ front ++ a :: back := mem_append_cons_self
      exact ⟨a.node, (directory_name_iff holds).mpr ⟨a, mem, rfl, rfl⟩⟩
    · rintro ⟨p, named⟩
      obtain ⟨a, mem, rfl, rfl⟩ := (directory_name_iff holds).mp named
      rw [directory]
      simp only [lookup_of_mem sound.names mem, map_some]
      exact some_ne_none _
  find := by
    intro name p
    rw [holds.find, directory_name_iff holds, some_inj, map_eq_some_iff]
    constructor
    · rintro ⟨a, found, rfl⟩
      obtain ⟨front, back, rfl, rfl, -⟩ := lookup_eq_some found
      exact ⟨a, mem_append_cons_self, rfl, rfl⟩
    · rintro ⟨a, mem, rfl, rfl⟩
      exact ⟨a, lookup_of_mem sound.names mem, rfl⟩
  get := by
    intro p name objects id bytes named content stored beyond
    obtain ⟨a, mem, rfl, rfl⟩ := (directory_name_iff holds).mp named
    rw [directory] at content
    simp only [lookup_of_mem sound.names mem, map_some, some_inj] at content
    subst content
    obtain ⟨⟨q, object⟩, found, value⟩ := bind_eq_some_iff.mp stored
    obtain ⟨value', stored', size⟩ :=
      sound.values a mem _ (mem_of_find?_eq_some found)
    rw [value, some_inj] at stored'
    subst stored'
    rw [holds.get mem, found]
    simp only [PsiObject.get_stored value size, map_some]
  absent := by
    intro p name objects id named content missing len beyond
    obtain ⟨a, mem, rfl, rfl⟩ := (directory_name_iff holds).mp named
    rw [directory] at content
    simp only [lookup_of_mem sound.names mem, map_some, some_inj] at content
    subst content
    rw [holds.get mem]
    cases found : a.object id with
    | none => rfl
    | some c =>
      obtain ⟨value, stored, -⟩ := sound.values a mem c (mem_of_find?_eq_some found)
      rw [content, found, bind_some, stored] at missing
      cases missing

end Reading

/-- **The store refines the directory.** After every run of calls with live handles and memory for
all they ask for, in which no application is renamed to the name of another one, the store answers
as the directory says; the next call succeeds, and leaves the objects of the other applications. -/
theorem store_refines_directory {calls : List Call}
    (served : Along (fun s c => c.Served s) PsiIfc.empty calls)
    (keeps : Along (fun s c => c.KeepsNames s) PsiIfc.empty calls) :
    ∃ s, PsiIfc.empty.run calls = some s ∧ Refines s (Directory.run calls) ∧
      ∀ c : Call, c.Served s → c.KeepsNames s →
        ∃ s', s.call c = some s' ∧
          ∀ p, s.appNodes p ≠ none → c.handle ≠ some p → ∀ id len beyond,
            s'.get (some p) id len beyond = s.get (some p) id len beyond := by
  have start : Sound [] :=
    ⟨nodup_nil, fun _ mem => (nomatch mem), fun _ mem => (nomatch mem)⟩
  obtain ⟨s, apps, ran, holds, sound, same⟩ := run_simulates holds_empty start served keeps
  refine ⟨s, ran, ?_, ?_⟩
  · have refines := refines_directory holds sound
    rw [same] at refines
    exact refines
  · intro c served keeps
    obtain ⟨s', apps', called, simulates⟩ := call_simulates holds sound served keeps
    refine ⟨s', called, fun p live other id len beyond => ?_⟩
    obtain ⟨front, a, back, rfl, rfl⟩ := holds.split live
    have mem : a ∈ front ++ a :: back := mem_append_cons_self
    obtain ⟨a', mem', node, objects⟩ := simulates.frame a mem other
    rw [← node, simulates.holds.get mem', node, holds.get mem, App.object, App.object, objects]

def letter (c : UInt8) (nonzero : 0 ≠ c) : AppName := ⟨[c], by simpa using nonzero⟩

def renamedRun : List Call :=
  [.openApp (letter 97 (by decide)) 1, .set 1 7 [1, 2] 2, .set 1 8 [3] 3,
    .rename (letter 97 (by decide)) (letter 98 (by decide)), .set 1 7 [4, 5, 6] 4,
    .removeObject 1 8]

theorem store_refines_directory_renamedRun :
    ∃ s, PsiIfc.empty.run renamedRun = some s ∧ Refines s (Directory.run renamedRun) ∧
      ∀ c : Call, c.Served s → c.KeepsNames s →
        ∃ s', s.call c = some s' ∧
          ∀ p, s.appNodes p ≠ none → c.handle ≠ some p → ∀ id len beyond,
            s'.get (some p) id len beyond = s.get (some p) id len beyond :=
  store_refines_directory (by decide +kernel) (by decide +kernel)

def repeatedRun : List Call :=
  [.openApp (letter 97 (by decide)) 1, .openApp (letter 98 (by decide)) 2, .set 2 7 [42] 3,
    .rename (letter 97 (by decide)) (letter 98 (by decide))]

/-- Renaming can give two applications one name; the object set under it is then not found. -/
theorem rename_repeats_name :
    Along (fun s c => c.Served s) PsiIfc.empty repeatedRun ∧
      ∃ s, PsiIfc.empty.run repeatedRun = some s ∧
        (s.app 1).map PsiApp.appName = some (letter 98 (by decide)) ∧
        (s.app 2).map PsiApp.appName = some (letter 98 (by decide)) ∧
        s.find (letter 98 (by decide)) = some (some 1) ∧
        s.get (some 1) 7 1 (fun _ => 0) = some (.errObjectNotFound, none) := by
  refine ⟨by decide +kernel, (PsiIfc.empty.run repeatedRun).get (by decide +kernel),
    (some_get _).symm, ?_, ?_, ?_, ?_⟩
  all_goals decide +kernel

end EchoLife.Psi
