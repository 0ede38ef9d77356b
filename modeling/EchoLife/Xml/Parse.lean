import EchoLife.Xml.Feed

/-!
# Reading a configuration document

`xmlParse` gives a whole document to the XML parser. Its callbacks keep the names of the
application, the object, the table and the attribute they are in, in fields of 32 bytes, and hand
each object to the application's functions for it.

`xmlParse_fits_iff` says for which documents no name is written behind its field: the names that are
copied have less than 32 bytes. `long_name_overflows` is a document with a name of 32 bytes.
-/

namespace EchoLife.Xml

open List TextSearch Transducer

/-! ## The parse state -/

inductive PsxStatus
  | ok
  | errGeneral
  | errMemory
  | errFindApp
  | errFindObj
  | errFindHdlFnc
  | errFatal
  | errMild
  deriving Repr, DecidableEq

inductive ParseState
  | start
  | psiBegin
  | psiEnd
  deriving Repr, DecidableEq

inductive NameField
  | appName
  | objName
  | attrName
  | tableName
  deriving Repr, DecidableEq

structure XmlState (W : Type) where
  state : ParseState
  appName : List UInt8
  objName : List UInt8
  attrName : List UInt8
  tableName : List UInt8
  errorFlag : PsxStatus
  verify : Bool
  world : W
  deriving Repr, DecidableEq

/-- A function for an object. It sees the flags of `xmlState`, and says whether it sets `errorFlag`
to `PSX_STS_ERR_FATAL`; no function sets it to anything else. -/
abbrev Handler (W : Type) := (verify : Bool) → (errorFlag : PsxStatus) → W → Bool × W

structure AppItem (W : Type) where
  appName : List UInt8
  getObjFnc : (appName objName attrName attrValue : List UInt8) → Handler W
  startObjFnc : (appName objName : List UInt8) → Handler W
  endObjFnc : (appName objName : List UInt8) → Handler W

structure Tables (W : Type) where
  apps : List (AppItem W)
  tableNames : List (List UInt8)
  named : [] ∉ tableNames

def appNames : List (List UInt8) :=
  ["SystemInfo", "TR143Cfg", "Lan", "AtmCfgVcc", "AtmCfgTd", "AtmCfg", "ADSL", "RouteCfg", "E220",
    "PPPProfile", "Hspacfg", "dnscfgInfo", "SecCfg", "Wan", "pppsrv", "ipsrv", "brsrv",
    "AutoUpgrade", "VibCfg"].map ascii

def tableNames : List (List UInt8) :=
  ["vrtSrv", "outFilter", "inFilter", "prtTrigger", "macFilter", "qosCls", "accCtrl", "route",
    "ripIfc", "pppPro", "dnscfg", "secFwTb", "secUrlBlkTb"].map ascii

theorem tableNames_named : [] ∉ tableNames := by decide

def commonTables {W : Type} (fncs : List UInt8 → AppItem W) : Tables W where
  apps := appNames.map fun name => { fncs name with appName := name }
  tableNames := tableNames
  named := tableNames_named

def psitree : List UInt8 := ascii "psitree"

variable {W : Type}

namespace XmlState

def init (verify : Bool) (world : W) : XmlState W := ⟨.start, [], [], [], [], .ok, verify, world⟩

def fatal (s : XmlState W) : XmlState W := { s with errorFlag := .errFatal }

def handle (s : XmlState W) (f : Handler W) : XmlState W :=
  { s with
    errorFlag := if (f s.verify s.errorFlag s.world).1 then .errFatal else s.errorFlag
    world := (f s.verify s.errorFlag s.world).2 }

end XmlState

/-! ## Callbacks -/

def toLower (c : UInt8) : UInt8 := if 65 ≤ c ∧ c ≤ 90 then c + 32 else c

def isCasePrefix (short long : List UInt8) : Bool :=
  (short.map toLower).isPrefixOf (long.map toLower)

def Tables.app (T : Tables W) (name : List UInt8) : Option (AppItem W) :=
  T.apps.find? fun item => isCasePrefix item.appName name

inductive TagType
  | app
  | table
  | obj
  deriving Repr, DecidableEq

def xmlTagType (T : Tables W) (tagName : List UInt8) : TagType :=
  if (T.app tagName).isSome then .app
  else if tagName ∈ T.tableNames then .table
  else .obj

def callApp (T : Tables W) (appName : List UInt8) (fnc : AppItem W → Handler W)
    (s : XmlState W) : XmlState W :=
  match T.app appName with
  | none => s
  | some item => s.handle (fnc item)

def xmlStartObjNode (T : Tables W) (appName objTagName : List UInt8) : XmlState W → XmlState W :=
  callApp T appName fun item => item.startObjFnc appName objTagName

def xmlEndObjNode (T : Tables W) (appName objTagName : List UInt8) : XmlState W → XmlState W :=
  callApp T appName fun item => item.endObjFnc appName objTagName

def xmlGetObjNode (T : Tables W) (appName objTagName attrName value : List UInt8) :
    XmlState W → XmlState W :=
  callApp T appName fun item => item.getObjFnc appName objTagName attrName value

def copyName (field : NameField) (name : List UInt8) : Except NameField (List UInt8) :=
  if name.length < 32 then .ok name else .error field

def xmlTagBegin (T : Tables W) (tagName : List UInt8) (s : XmlState W) :
    Except NameField (XmlState W) :=
  if s.state = .start then
    .ok (if psitree.isPrefixOf tagName then { s with state := .psiBegin } else s.fatal)
  else if psitree.isPrefixOf tagName then .ok s.fatal
  else
    match xmlTagType T tagName with
    | .app => do
        let name ← copyName .appName tagName
        return { s with appName := name }
    | .obj => do
        let name ← copyName .objName tagName
        return xmlStartObjNode T s.appName name { s with objName := name }
    | .table => do
        let objName ← copyName .objName tagName
        let name ← copyName .tableName tagName
        return xmlStartObjNode T s.appName name { s with objName := objName, tableName := name }

def xmlTagEnd (T : Tables W) (tagName : List UInt8) (s : XmlState W) : XmlState W :=
  if tagName = [] then
    if s.objName = [] then s
    else { xmlEndObjNode T s.appName s.objName s with objName := [] }
  else if tagName.isPrefixOf psitree then { s with state := .psiEnd }
  else if s.tableName = [] then
    if s.appName.isPrefixOf tagName then { s with appName := [] } else s.fatal
  else if s.tableName.isPrefixOf tagName then
    { xmlEndObjNode T s.appName s.tableName s with tableName := [] }
  else s.fatal

def xmlAttrBegin (attrName : List UInt8) (s : XmlState W) : Except NameField (XmlState W) := do
  let name ← copyName .attrName attrName
  return { s with attrName := name }

def xmlAttrValue (T : Tables W) (attrValue : List UInt8) (s : XmlState W) : XmlState W :=
  { xmlGetObjNode T s.appName s.objName s.attrName attrValue s with attrName := [] }

def callback (T : Tables W) (s : XmlState W) : Event → Except NameField (XmlState W)
  | .tagBegin tagName => xmlTagBegin T tagName s
  | .attributeBegin attrName => xmlAttrBegin attrName s
  | .attributeValue attrValue => .ok (xmlAttrValue T attrValue s)
  | .data _ => .ok s
  | .tagEnd tagName => .ok (xmlTagEnd T tagName s)

def XmlState.status (s : XmlState W) : PsxStatus :=
  if s.state = .psiEnd then s.errorFlag else .errFatal

def xmlParse (T : Tables W) (allocated verify : Bool) (document : List UInt8) (world : W) :
    Except NameField (PsxStatus × W) :=
  if allocated then do
    let s ← (nxmlWrite nxmlOpen document).1.foldlM (callback T) (.init verify world)
    return (s.status, s.world)
  else .ok (.errGeneral, world)

/-! ## Names that are copied -/

def reading (document : List UInt8) : List Event := (run feed (.text false) document).1

def leavesStart (started : Bool) : Event → Bool
  | .tagBegin name => started || psitree.isPrefixOf name
  | .tagEnd name => started || (name ≠ [] && name.isPrefixOf psitree)
  | _ => started

def copiedName (started : Bool) : Event → List (List UInt8)
  | .tagBegin name => if started && !psitree.isPrefixOf name then [name] else []
  | .attributeBegin name => [name]
  | _ => []

/-- The names that callbacks copy: those of all attributes, and those of the start tags behind the
one that opens the tree, unless they begin with `psitree` again. -/
def copiedNames : (started : Bool) → List Event → List (List UInt8)
  | _, [] => []
  | started, event :: events =>
    copiedName started event ++ copiedNames (leavesStart started event) events

/-! ## Where the callbacks are -/

structure Place where
  state : ParseState
  appName : List UInt8
  tableName : List UInt8
  deriving Repr, DecidableEq

def XmlState.place (s : XmlState W) : Place := ⟨s.state, s.appName, s.tableName⟩

namespace Place

def enter (p : Place) (tagName : List UInt8) : TagType → Place
  | .app => { p with appName := tagName }
  | .obj => p
  | .table => { p with tableName := tagName }

def tagBegin (type : TagType) (tagName : List UInt8) (p : Place) : Option Place :=
  if p.state = .start then
    if psitree.isPrefixOf tagName then some { p with state := .psiBegin } else none
  else if psitree.isPrefixOf tagName then none
  else some (p.enter tagName type)

def tagEnd (tagName : List UInt8) (p : Place) : Option Place :=
  if tagName = [] then some p
  else if tagName.isPrefixOf psitree then some { p with state := .psiEnd }
  else if p.tableName = [] then
    if p.appName.isPrefixOf tagName then some { p with appName := [] } else none
  else if p.tableName.isPrefixOf tagName then some { p with tableName := [] }
  else none

def event (type : List UInt8 → TagType) (p : Place) : Event → Option Place
  | .tagBegin tagName => p.tagBegin (type tagName) tagName
  | .tagEnd tagName => p.tagEnd tagName
  | _ => some p

end Place

structure Goes (s s' : XmlState W) (goal : Option Place) : Prop where
  place : s'.place = goal.getD s.place
  found : goal = none → s'.errorFlag = .errFatal
  kept : s.errorFlag = .errFatal → s'.errorFlag = .errFatal
  verify : s'.verify = s.verify

theorem bind_ok {α β : Type} {x : Except NameField α} {f : α → Except NameField β} {b : β}
    (done : x >>= f = .ok b) : ∃ a, x = .ok a ∧ f a = .ok b := by
  cases x with
  | error => cases done
  | ok a => exact ⟨a, rfl, done⟩

theorem copyName_ok {field : NameField} {name copy : List UInt8}
    (done : copyName field name = .ok copy) : copy = name := by
  rw [copyName] at done
  split at done
  · exact (Except.ok.inj done).symm
  · cases done

section Callbacks

variable {T : Tables W} {s s' : XmlState W}

theorem goes_self (s : XmlState W) : Goes s s (some s.place) := ⟨rfl, nofun, id, rfl⟩

theorem goes_fatal (s : XmlState W) : Goes s s.fatal none := ⟨rfl, fun _ => rfl, fun _ => rfl, rfl⟩

theorem goes_callApp (appName : List UInt8) (fnc : AppItem W → Handler W) :
    Goes s (callApp T appName fnc s) (some s.place) := by
  rw [callApp]
  split
  · exact goes_self s
  · refine ⟨rfl, nofun, fun flag => ?_, rfl⟩
    rw [XmlState.handle, flag]
    exact ite_self _

theorem goes_xmlTagEnd (tagName : List UInt8) :
    Goes s (xmlTagEnd T tagName s) (s.place.tagEnd tagName) := by
  have table : s.place.tableName = s.tableName := rfl
  have app : s.place.appName = s.appName := rfl
  rw [xmlTagEnd, Place.tagEnd, table, app]
  split
  · split
    · exact goes_self s
    · exact ⟨(goes_callApp ..).place, nofun, (goes_callApp ..).kept, (goes_callApp ..).verify⟩
  split
  · exact ⟨rfl, nofun, id, rfl⟩
  split
  · split
    · exact ⟨rfl, nofun, id, rfl⟩
    · exact goes_fatal s
  split
  · have node := goes_callApp (T := T) (s := s) s.appName
      (fun item => item.endObjFnc s.appName s.tableName)
    exact ⟨congrArg (fun p : Place => { p with tableName := [] }) node.place, nofun, node.kept,
      node.verify⟩
  · exact goes_fatal s

theorem goes_xmlTagBegin {tagName : List UInt8} (done : xmlTagBegin T tagName s = .ok s') :
    Goes s s' (s.place.tagBegin (xmlTagType T tagName) tagName) := by
  have state : s.place.state = s.state := rfl
  rw [Place.tagBegin, state]
  rw [xmlTagBegin] at done
  split at done
  · cases done
    rename_i start
    split
    · exact ⟨rfl, nofun, id, rfl⟩
    · exact goes_fatal s
  rename_i behind
  rw [if_neg behind]
  split at done
  · cases done
    rename_i again
    rw [if_pos again]
    exact goes_fatal s
  rename_i other
  rw [if_neg other]
  cases type : xmlTagType T tagName with
  | app =>
    rw [type] at done
    obtain ⟨name, copied, done⟩ := bind_ok done
    cases done
    obtain rfl := copyName_ok copied
    exact ⟨rfl, nofun, id, rfl⟩
  | obj =>
    rw [type] at done
    obtain ⟨name, copied, done⟩ := bind_ok done
    cases done
    have node := goes_callApp (T := T) (s := { s with objName := name }) s.appName
      fun item => item.startObjFnc s.appName name
    exact ⟨node.place, nofun, node.kept, node.verify⟩
  | table =>
    rw [type] at done
    obtain ⟨objName, -, done⟩ := bind_ok done
    obtain ⟨name, copied, done⟩ := bind_ok done
    cases done
    obtain rfl := copyName_ok copied
    have node := goes_callApp (T := T) (s := { s with objName := objName, tableName := name })
      s.appName fun item => item.startObjFnc s.appName name
    exact ⟨node.place, nofun, node.kept, node.verify⟩

theorem goes_callback {event : Event} (done : callback T s event = .ok s') :
    Goes s s' (s.place.event (xmlTagType T) event) := by
  cases event with
  | tagBegin tagName => exact goes_xmlTagBegin done
  | attributeBegin attrName =>
    obtain ⟨name, -, done⟩ := bind_ok done
    cases done
    exact ⟨rfl, nofun, id, rfl⟩
  | attributeValue attrValue =>
    cases done
    exact ⟨(goes_callApp ..).place, nofun, (goes_callApp ..).kept, (goes_callApp ..).verify⟩
  | data text =>
    cases done
    exact goes_self s
  | tagEnd tagName =>
    cases done
    exact goes_xmlTagEnd tagName

/-! ## Names that fit -/

def Place.started (p : Place) : Bool := p.state ≠ .start

theorem started_event (type : List UInt8 → TagType) (p : Place) (event : Event) :
    ((p.event type event).getD p).started = leavesStart p.started event := by
  cases event with
  | attributeBegin | attributeValue | data => rfl
  | tagBegin tagName =>
    rw [Place.event, leavesStart, Place.tagBegin]
    by_cases start : p.state = .start
    · by_cases begins : psitree.isPrefixOf tagName = true
      · simp [Place.started, start, begins]
      · simp [Place.started, start, begins]
    · have started : p.started = true := decide_eq_true start
      rw [if_neg start, started, Bool.true_or]
      split
      · exact started
      · cases type tagName <;> exact started
  | tagEnd tagName =>
    rw [Place.event, leavesStart, Place.tagEnd]
    by_cases empty : tagName = []
    · simp [empty]
    by_cases closes : tagName.isPrefixOf psitree = true
    · simp [empty, closes, Place.started]
    · have same : (p.started || (tagName ≠ [] && tagName.isPrefixOf psitree)) = p.started := by
        simp [closes]
      rw [if_neg empty, if_neg closes, same]
      split <;> split <;> rfl

theorem copyName_error_iff {field : NameField} {name : List UInt8} :
    (∃ field', copyName field name = .error field') ↔ 32 ≤ name.length := by
  rw [copyName]
  split
  case isTrue fits => exact ⟨nofun, fun long => absurd fits (Nat.not_lt.mpr long)⟩
  case isFalse long => exact ⟨fun _ => Nat.le_of_not_lt long, fun _ => ⟨field, rfl⟩⟩

theorem bind_pure_error_iff {α β : Type} {x : Except NameField α} {f : α → β} :
    (∃ field, (x >>= fun a => pure (f a)) = .error field) ↔ ∃ field, x = .error field := by
  cases x with
  | error field => exact ⟨fun _ => ⟨field, rfl⟩, fun _ => ⟨field, rfl⟩⟩
  | ok a => exact ⟨nofun, nofun⟩

theorem xmlTagBegin_error_iff {tagName : List UInt8} (behind : s.state ≠ .start)
    (other : ¬ psitree.isPrefixOf tagName = true) :
    (∃ field, xmlTagBegin T tagName s = .error field) ↔ 32 ≤ tagName.length := by
  rw [xmlTagBegin, if_neg behind, if_neg other]
  cases xmlTagType T tagName with
  | app | obj => exact bind_pure_error_iff.trans copyName_error_iff
  | table =>
    cases copied : copyName .objName tagName with
    | error field => exact ⟨fun _ => copyName_error_iff.mp ⟨field, copied⟩, fun _ => ⟨field, rfl⟩⟩
    | ok objName => exact bind_pure_error_iff.trans copyName_error_iff

theorem callback_error_iff {event : Event} :
    (∃ field, callback T s event = .error field)
      ↔ ∃ name ∈ copiedName s.place.started event, 32 ≤ name.length := by
  cases event with
  | attributeValue | data | tagEnd => simp [callback, copiedName]
  | attributeBegin attrName =>
    rw [copiedName]
    simp only [mem_singleton, exists_eq_left]
    exact bind_pure_error_iff.trans copyName_error_iff
  | tagBegin tagName =>
    rw [callback, copiedName]
    by_cases start : s.state = .start
    · simp [xmlTagBegin, start, XmlState.place, Place.started]
    have started : s.place.started = true := decide_eq_true start
    by_cases begins : psitree.isPrefixOf tagName = true
    · simp [xmlTagBegin, start, begins]
    · rw [xmlTagBegin_error_iff start begins]
      simp [started, begins]

theorem foldlM_callback_fits_iff (events : List Event) (s : XmlState W) :
    (∀ field, events.foldlM (callback T) s ≠ .error field)
      ↔ ∀ name ∈ copiedNames s.place.started events, name.length < 32 := by
  induction events generalizing s with
  | nil => simp [copiedNames, pure, Except.pure]
  | cons event events ih =>
    rw [foldlM_cons, copiedNames]
    cases done : callback T s event with
    | error field =>
      obtain ⟨name, mem, long⟩ := callback_error_iff.mp ⟨field, done⟩
      refine ⟨fun never => absurd rfl (never field), fun fits => ?_⟩
      exact absurd (fits name (mem_append_left _ mem)) (Nat.not_lt.mpr long)
    | ok s' =>
      have here : ∀ name ∈ copiedName s.place.started event, name.length < 32 := by
        intro name mem
        by_contra long
        obtain ⟨field, failed⟩ := callback_error_iff.mpr ⟨name, mem, Nat.le_of_not_lt long⟩
        exact absurd (failed.symm.trans done) nofun
      have started : s'.place.started = leavesStart s.place.started event := by
        rw [(goes_callback done).place, started_event]
      refine (ih s').trans ?_
      rw [started]
      exact ⟨fun later name mem => (mem_append.mp mem).elim (here name) (later name),
        fun fits name mem => fits name (mem_append_right _ mem)⟩

end Callbacks

def Event.mark : Event → List Event
  | .data _ => []
  | .attributeValue _ => []
  | event => [event]

theorem mark_parts {a b ab : Event} (both : joinEvents a b = some ab) :
    ab.mark = a.mark ++ b.mark := by
  cases a <;> cases b <;> cases both <;> rfl

theorem marks_nxmlWrite (document : List UInt8) :
    (nxmlWrite nxmlOpen document).1.flatMap Event.mark
      = (reading document).flatMap Event.mark := by
  have same := congrArg (List.flatMap Event.mark) (nxmlWrite_feed settled_open document).1
  rwa [pieces.flatMap_joined mark_parts, pieces.flatMap_joined mark_parts] at same

theorem copiedNames_marks (started : Bool) (events : List Event) :
    copiedNames started (events.flatMap Event.mark) = copiedNames started events := by
  induction events generalizing started with
  | nil => rfl
  | cons event events ih =>
    cases event <;>
      simp only [flatMap_cons, Event.mark, nil_append, singleton_append,
        copiedNames, copiedName, leavesStart, ih]

theorem foldlM_nxmlWrite_fits_iff {T : Tables W} (verify : Bool) (document : List UInt8)
    (world : W) :
    (∀ field, (nxmlWrite nxmlOpen document).1.foldlM (callback T) (.init verify world)
        ≠ .error field)
      ↔ ∀ name ∈ copiedNames false (reading document), name.length < 32 := by
  rw [← copiedNames_marks, ← marks_nxmlWrite, copiedNames_marks]
  exact foldlM_callback_fits_iff _ (.init verify world)

/-- **No name of a document is written behind its field exactly if every name that is copied has
less than 32 bytes.** -/
theorem xmlParse_fits_iff (T : Tables W) (allocated verify : Bool) (document : List UInt8)
    (world : W) :
    (∀ field, xmlParse T allocated verify document world ≠ .error field)
      ↔ (allocated = true → ∀ name ∈ copiedNames false (reading document), name.length < 32) := by
  cases allocated with
  | false => exact ⟨nofun, nofun⟩
  | true =>
    refine Iff.trans ?_ ((foldlM_nxmlWrite_fits_iff (T := T) verify document world).trans
      ⟨fun fits _ => fits, fun fits => fits rfl⟩)
    rw [← not_exists, ← not_exists]
    exact not_congr bind_pure_error_iff

def idleTables : Tables Unit :=
  commonTables fun name =>
    { appName := name
      getObjFnc := fun _ _ _ _ _ _ world => (false, world)
      startObjFnc := fun _ _ _ _ world => (false, world)
      endObjFnc := fun _ _ _ _ world => (false, world) }

/-- The name of an object has 32 bytes. -/
theorem long_name_overflows :
    xmlParse idleTables true false
      (ascii "<psitree><SystemInfo><sysUserNameOfTheAdministrator001 value=\"a\"/>") ()
        = .error .objName := by
  rfl

end EchoLife.Xml
