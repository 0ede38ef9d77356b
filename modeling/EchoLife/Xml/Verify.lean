import EchoLife.Xml.PppProfile

/-!
# The verify pass

`xmlParse` reads a document first with `verify` set, to check it, and then to store it. Some
functions do not look at `verify`: those that end the objects of the TR-143, E220, HSPA and VIB
applications, those that open the wireless application, and the one for an entry of the PPP
profiles (`unguarded`). Settings stay as they were exactly if each of these writes is idle where it
happens (`xmlParse_verify_keeps`); `verify_sets_userName` is a document for which it is not.
-/

namespace EchoLife.Xml

open List Option Function TextSearch

/-! ## Writes -/

variable {R : Type}

inductive Write
  | appOpen (appId : List UInt8)
  | objStore (appId : List UInt8) (objectId : UInt16)
  | hspaSet (parameter : HspaParameter) (value : List UInt8)
  | setEncodePasswordInfo
  deriving Repr, DecidableEq

def Write.settings (w : World R) : Write → Settings
  | .appOpen appId => w.settings.appOpen appId
  | .objStore appId objectId =>
    match w.psiValue with
    | none => w.settings.appOpen appId
    | some value => (w.settings.appOpen appId).objStore appId objectId value
  | .hspaSet parameter value => w.settings.hspaSet parameter value
  | .setEncodePasswordInfo => { w.settings with encodePassword := true }

/-! ## Functions that write -/

def bcmDbGetEncodePasswordInfo : Bool := true

def encodePasswordWrite (w : World R) : List Write :=
  if w.psiValue.isNone || bcmDbGetEncodePasswordInfo then [] else [.setEncodePasswordInfo]

def hspaWrite (w : World R) (parameter : HspaParameter) (value : List UInt8) : List Write :=
  if w.settings.hspa parameter = [] ∧ value ≠ [] then [.hspaSet parameter value] else []

def profileEntryWrites (decode : List UInt8 → List UInt8) (verify : Bool)
    (attrName attrValue : List UInt8) (w : World R) : List Write :=
  if w.psiValue.isNone ∨ (verify = true ∧ w.tableSize ≤ w.tableIndex) then []
  else if attrName = ascii "UserName" then
    if verify = true ∧ attrValue ≠ [] ∧ validateLength attrValue 64 = false then []
    else hspaWrite w .userName attrValue
  else if (ascii "PassWord").isPrefixOf attrName then
    encodePasswordWrite w ++
      if verify = true ∧ validateLength (decode attrValue) 257 = false then []
      else hspaWrite w .pwd (decode attrValue)
  else if attrName = ascii "acApn" then
    if verify = true ∧ attrValue ≠ [] ∧ validateLength attrValue 64 = false then []
    else hspaWrite w .apn attrValue
  else []

inductive AppKind
  | system
  | tr143
  | e220
  | pppProfile
  | hspa
  | wireless
  | pppsrv
  | vib
  | other
  deriving Repr, DecidableEq

def appKind (appName : List UInt8) : AppKind :=
  if appName = ascii "SystemInfo" then .system
  else if appName = ascii "TR143Cfg" then .tr143
  else if appName = ascii "E220" then .e220
  else if appName = ascii "PPPProfile" then .pppProfile
  else if appName = ascii "Hspacfg" then .hspa
  else if appName = ascii "WirelessCfg" ∨ appName = ascii "Wireless1Cfg" then .wireless
  else if appName = ascii "pppsrv" then .pppsrv
  else if appName = ascii "VibCfg" then .vib
  else .other

def beginsWith (words : List String) (name : List UInt8) : Bool :=
  words.any fun word => (ascii word).isPrefixOf name

def getWrites (decode : List UInt8 → List UInt8) (kind : AppKind) (verify : Bool)
    (appName objName attrName attrValue : List UInt8) (w : World R) : List Write :=
  match kind with
  | .system =>
    if beginsWith ["sysPassword", "sptPassword", "usrPassword"] objName then
      encodePasswordWrite w
    else []
  | .pppsrv => if beginsWith ["password"] attrName then encodePasswordWrite w else []
  | .pppProfile =>
    if objName = ascii "pppProEntry" then profileEntryWrites decode verify attrName attrValue w
    else []
  | .wireless =>
    if beginsWith ["wlMssidVars"] objName ∧
        attrName.map toLower = (ascii "tableSize").map toLower ∧
        (verify = true → validateNumber attrValue = true) then
      [.appOpen appName]
    else []
  | _ => []

def endWrites (kind : AppKind) (appName objName : List UInt8) : List Write :=
  match kind with
  | .tr143 =>
    if beginsWith ["DownloadDiagnostics"] objName then [.objStore (ascii "TR143Cfg") 1]
    else if beginsWith ["UploadDiagnostics"] objName then [.objStore (ascii "TR143Cfg") 2]
    else if beginsWith ["UDPEchoConfig"] objName then [.objStore (ascii "TR143Cfg") 3]
    else []
  | .e220 => [.objStore (ascii "E220") 41]
  | .hspa => [.objStore (ascii "Hspacfg") 1]
  | .vib => [.objStore (ascii "VibCfg") 1]
  | .wireless =>
    if beginsWith ["wlMssidVars", "wlMacFilter", "wdsFilter", "scanWdsFilter"] objName then
      [.appOpen appName]
    else []
  | _ => []

def writing (writes : World R → List Write) (f : Handler (World R)) : Handler (World R) :=
  fun verify errorFlag w =>
    f verify errorFlag
      ((writes w).foldl (fun w write => { w with settings := write.settings w }) w)

def unguarded (decode : List UInt8 → List UInt8) (item : AppItem (World R)) :
    AppItem (World R) where
  appName := item.appName
  getObjFnc appName objName attrName attrValue := fun verify =>
    writing (getWrites decode (appKind item.appName) verify appName objName attrName attrValue)
      (item.getObjFnc appName objName attrName attrValue) verify
  startObjFnc := item.startObjFnc
  endObjFnc appName objName :=
    writing (fun _ => endWrites (appKind item.appName) appName objName)
      (item.endObjFnc appName objName)

/-! ## Idle writes -/

def Write.Idle (w : World R) : Write → Prop
  | .appOpen appId => w.settings.apps appId ≠ none
  | .objStore appId objectId =>
    match w.psiValue with
    | none => w.settings.apps appId ≠ none
    | some value =>
      ∃ objects, w.settings.apps appId = some objects ∧ objects objectId = some value
  | .hspaSet parameter value => w.settings.hspa parameter = value ∨ 64 < value.length
  | .setEncodePasswordInfo => w.settings.encodePassword = true

section

variable (s : Settings) (appId : List UInt8)
include s appId

theorem appOpen_eq_iff : s.appOpen appId = s ↔ s.apps appId ≠ none := by
  rw [Settings.appOpen]
  by_cases there : s.apps appId = none
  · simp only [there, isSome_none, Bool.false_eq_true, if_false, ne_eq, not_true, iff_false]
    intro same
    have gone := congrArg (fun s : Settings => s.apps appId) same
    simp only [update_self, there] at gone
    cases gone
  · rw [if_pos (isSome_iff_ne_none.mpr there)]
    exact ⟨fun _ => there, fun _ => rfl⟩

theorem appOpen_apps : ∃ objects, (s.appOpen appId).apps appId = some objects := by
  rw [Settings.appOpen]
  split
  case isTrue there => exact isSome_iff_exists.mp there
  case isFalse => exact ⟨_, update_self ..⟩

theorem objStore_eq_iff (objectId : UInt16) (value : List UInt8) :
    (s.appOpen appId).objStore appId objectId value = s
      ↔ ∃ objects, s.apps appId = some objects ∧ objects objectId = some value := by
  constructor
  · intro same
    obtain ⟨objects, opened⟩ := appOpen_apps s appId
    have app := congrArg (fun s : Settings => s.apps appId) same
    simp only [Settings.objStore, update_self, opened, map_some] at app
    exact ⟨_, app.symm, update_self ..⟩
  · rintro ⟨objects, app, there⟩
    have opened : s.appOpen appId = s := (appOpen_eq_iff s appId).mpr (by rw [app]; nofun)
    have object : update objects objectId (some value) = objects := by
      rw [← there, update_eq_self]
    rw [opened, Settings.objStore, app, map_some, object, ← app, update_eq_self]

end

theorem hspaSet_eq_iff (s : Settings) (parameter : HspaParameter) (value : List UInt8) :
    s.hspaSet parameter value = s ↔ s.hspa parameter = value ∨ 64 < value.length := by
  rw [Settings.hspaSet]
  split
  case isTrue fits =>
    constructor
    · intro same
      have now := congrArg (fun s : Settings => s.hspa parameter) same
      simp only [update_self] at now
      exact .inl now.symm
    · rintro (same | long)
      · rw [← same, update_eq_self]
      · exact absurd fits (Nat.not_le.mpr long)
  case isFalse long => exact ⟨fun _ => .inr (Nat.lt_of_not_le long), fun _ => rfl⟩

theorem write_eq_iff (w : World R) (write : Write) :
    write.settings w = w.settings ↔ write.Idle w := by
  cases write with
  | appOpen appId => exact appOpen_eq_iff w.settings appId
  | objStore appId objectId =>
    rw [Write.settings, Write.Idle]
    cases w.psiValue with
    | none => exact appOpen_eq_iff w.settings appId
    | some value => exact objStore_eq_iff w.settings appId objectId value
  | hspaSet parameter value => exact hspaSet_eq_iff w.settings parameter value
  | setEncodePasswordInfo =>
    constructor
    · intro same
      exact (congrArg Settings.encodePassword same).symm
    · intro set
      rw [Write.settings, ← set]

/-! ## The verify pass -/

structure Guarded (item : AppItem (World R)) : Prop where
  getObj : ∀ appName objName attrName attrValue errorFlag w,
    (item.getObjFnc appName objName attrName attrValue true errorFlag w).2.settings = w.settings
  startObj : ∀ appName objName errorFlag w,
    (item.startObjFnc appName objName true errorFlag w).2.settings = w.settings
  endObj : ∀ appName objName errorFlag w,
    (item.endObjFnc appName objName true errorFlag w).2.settings = w.settings

theorem encodePasswordWrite_eq (w : World R) : encodePasswordWrite w = [] := by
  rw [encodePasswordWrite, bcmDbGetEncodePasswordInfo, Bool.or_true]
  rfl

theorem hspaWrite_length (w : World R) (parameter : HspaParameter) (value : List UInt8) :
    (hspaWrite w parameter value).length ≤ 1 := by
  rw [hspaWrite]
  split <;> simp

theorem profileEntryWrites_length (decode : List UInt8 → List UInt8) (verify : Bool)
    (attrName attrValue : List UInt8) (w : World R) :
    (profileEntryWrites decode verify attrName attrValue w).length ≤ 1 := by
  rw [profileEntryWrites, encodePasswordWrite_eq, nil_append]
  repeat' split
  all_goals first | exact hspaWrite_length .. | exact Nat.zero_le _

theorem getWrites_length (decode : List UInt8 → List UInt8) (kind : AppKind) (verify : Bool)
    (appName objName attrName attrValue : List UInt8) (w : World R) :
    (getWrites decode kind verify appName objName attrName attrValue w).length ≤ 1 := by
  cases kind <;> simp only [getWrites, encodePasswordWrite_eq, ite_self, length_nil, zero_le]
  · split
    · exact profileEntryWrites_length ..
    · exact Nat.zero_le _
  · split <;> simp

theorem endWrites_length (kind : AppKind) (appName objName : List UInt8) :
    (endWrites kind appName objName).length ≤ 1 := by
  cases kind <;> simp only [endWrites, length_nil, length_singleton, zero_le, le_refl]
  · repeat' split
    all_goals simp
  · split <;> simp

theorem writing_settings_iff {writes : World R → List Write} {f : Handler (World R)}
    {errorFlag : PsxStatus} {w : World R} (single : (writes w).length ≤ 1)
    (guarded : ∀ w, (f true errorFlag w).2.settings = w.settings) :
    (writing writes f true errorFlag w).2.settings = w.settings
      ↔ ∀ write ∈ writes w, write.Idle w := by
  rw [writing, guarded]
  match writes w, single with
  | [], _ => simp
  | [write], _ =>
    simpa using write_eq_iff w write

section Pass

variable (decode : List UInt8 → List UInt8) (items : List (AppItem (World R)))

def verifyTables (tableNames : List (List UInt8)) (named : [] ∉ tableNames) :
    Tables (World R) where
  apps := items.map (unguarded decode)
  tableNames := tableNames
  named := named

def kindAt (appName : List UInt8) : AppKind :=
  ((items.find? fun item => isCasePrefix item.appName appName).map AppItem.appName).elim .other
    appKind

def ending (s : XmlState (World R)) (tagName : List UInt8) : Option (List UInt8) :=
  if tagName = [] then if s.objName = [] then none else some s.objName
  else if tagName.isPrefixOf psitree then none
  else if s.tableName = [] then none
  else if s.tableName.isPrefixOf tagName then some s.tableName
  else none

def pending (s : XmlState (World R)) : Event → List Write
  | .attributeValue attrValue =>
    getWrites decode (kindAt items s.appName) true s.appName s.objName s.attrName attrValue
      s.world
  | .tagEnd tagName =>
    (ending s tagName).elim [] (endWrites (kindAt items s.appName) s.appName)
  | _ => []

def QuietRun (T : Tables (World R)) : XmlState (World R) → List Event → Prop
  | _, [] => True
  | s, event :: events =>
    (∀ write ∈ pending decode items s event, write.Idle s.world) ∧
      ∀ s', callback T s event = .ok s' → QuietRun T s' events

variable {decode items}

theorem app_verifyTables {tableNames : List (List UInt8)} {named : [] ∉ tableNames}
    (name : List UInt8) :
    (verifyTables decode items tableNames named).app name
      = (items.find? fun item => isCasePrefix item.appName name).map (unguarded decode) := by
  rw [Tables.app, verifyTables, find?_map]
  rfl

theorem callApp_settings_iff (writes : AppKind → List Write) {tableNames : List (List UInt8)}
    {named : [] ∉ tableNames} {s : XmlState (World R)} {name : List UInt8}
    {fnc : AppItem (World R) → Handler (World R)}
    (each : ∀ item ∈ items,
      (fnc (unguarded decode item) s.verify s.errorFlag s.world).2.settings = s.world.settings
        ↔ ∀ write ∈ writes (appKind item.appName), write.Idle s.world)
    (other : writes .other = []) :
    (callApp (verifyTables decode items tableNames named) name fnc s).world.settings
        = s.world.settings
      ↔ ∀ write ∈ writes (kindAt items name), write.Idle s.world := by
  rw [callApp, app_verifyTables, kindAt]
  cases found : items.find? fun item => isCasePrefix item.appName name with
  | none => simp [other]
  | some item => exact each item (mem_of_find?_eq_some found)

variable {tableNames : List (List UInt8)} {named : [] ∉ tableNames} {s s' : XmlState (World R)}

section

variable (guarded : ∀ item ∈ items, Guarded item) (verify : s.verify = true)
include guarded verify

theorem startObjNode_settings (appName objName : List UInt8) :
    (xmlStartObjNode (verifyTables decode items tableNames named) appName objName
      s).world.settings = s.world.settings := by
  refine (callApp_settings_iff (fun _ => []) (fun item mem => ?_) rfl).mpr nofun
  rw [verify]
  exact ⟨fun _ => nofun, fun _ => (guarded item mem).startObj ..⟩

theorem tagBegin_settings {tagName : List UInt8}
    (done : xmlTagBegin (verifyTables decode items tableNames named) tagName s = .ok s') :
    s'.world.settings = s.world.settings := by
  rw [xmlTagBegin] at done
  split at done
  · cases done
    split <;> rfl
  split at done
  · cases done
    rfl
  split at done
  · obtain ⟨name, -, done⟩ := bind_ok done
    cases done
    rfl
  · obtain ⟨name, -, done⟩ := bind_ok done
    cases done
    exact startObjNode_settings (s := { s with objName := name }) guarded verify s.appName name
  · obtain ⟨objName, -, done⟩ := bind_ok done
    obtain ⟨name, -, done⟩ := bind_ok done
    cases done
    exact startObjNode_settings (s := { s with objName := objName, tableName := name }) guarded
      verify s.appName name

theorem getObjNode_settings_iff (appName objName attrName value : List UInt8) :
    (xmlGetObjNode (verifyTables decode items tableNames named) appName objName attrName value
        s).world.settings = s.world.settings
      ↔ ∀ write ∈ getWrites decode (kindAt items appName) true appName objName attrName value
          s.world, write.Idle s.world := by
  refine callApp_settings_iff
    (fun kind => getWrites decode kind true appName objName attrName value s.world)
    (fun item mem => ?_) rfl
  rw [verify]
  exact writing_settings_iff (getWrites_length ..)
    ((guarded item mem).getObj appName objName attrName value s.errorFlag)

theorem endObjNode_settings_iff (appName objName : List UInt8) :
    (xmlEndObjNode (verifyTables decode items tableNames named) appName objName
        s).world.settings = s.world.settings
      ↔ ∀ write ∈ endWrites (kindAt items appName) appName objName, write.Idle s.world := by
  refine callApp_settings_iff (fun kind => endWrites kind appName objName)
    (fun item mem => ?_) rfl
  rw [verify]
  exact writing_settings_iff (endWrites_length ..)
    ((guarded item mem).endObj appName objName s.errorFlag)

theorem tagEnd_settings_iff (tagName : List UInt8) :
    (xmlTagEnd (verifyTables decode items tableNames named) tagName s).world.settings
        = s.world.settings
      ↔ ∀ write ∈ pending decode items s (.tagEnd tagName), write.Idle s.world := by
  have node : ∀ objName : List UInt8,
      (xmlEndObjNode (verifyTables decode items tableNames named) s.appName objName
          s).world.settings = s.world.settings
        ↔ ∀ write ∈ endWrites (kindAt items s.appName) s.appName objName,
            write.Idle s.world := endObjNode_settings_iff guarded verify s.appName
  rw [pending, xmlTagEnd, ending]
  by_cases empty : tagName = []
  · grind
  rw [if_neg empty, if_neg empty]
  by_cases closes : tagName.isPrefixOf psitree = true
  · simp [closes]
  rw [if_neg closes, if_neg closes]
  by_cases outside : s.tableName = []
  · rw [if_pos outside, if_pos outside]
    split <;> simp [XmlState.fatal]
  rw [if_neg outside, if_neg outside]
  by_cases same : s.tableName.isPrefixOf tagName = true
  · rw [if_pos same, if_pos same]
    exact node s.tableName
  · simp [same, XmlState.fatal]

/-- **A callback of the verify pass leaves the settings exactly if its unguarded writes are
idle.** -/
theorem callback_settings_iff {event : Event}
    (done : callback (verifyTables decode items tableNames named) s event = .ok s') :
    s'.world.settings = s.world.settings
      ↔ ∀ write ∈ pending decode items s event, write.Idle s.world := by
  cases event with
  | tagBegin tagName =>
    exact ⟨fun _ => nofun, fun _ => tagBegin_settings guarded verify done⟩
  | attributeBegin attrName =>
    obtain ⟨name, -, done⟩ := bind_ok done
    cases done
    exact ⟨fun _ => nofun, fun _ => rfl⟩
  | attributeValue attrValue =>
    cases done
    exact getObjNode_settings_iff guarded verify s.appName s.objName s.attrName attrValue
  | data text =>
    cases done
    exact ⟨fun _ => nofun, fun _ => rfl⟩
  | tagEnd tagName =>
    cases done
    exact tagEnd_settings_iff guarded verify tagName

theorem quietRun_iff (events : List Event) :
    QuietRun decode items (verifyTables decode items tableNames named) s events
      ↔ ∀ (n : Nat) (s' : XmlState (World R)),
          (events.take n).foldlM (callback (verifyTables decode items tableNames named)) s
            = .ok s' → s'.world.settings = s.world.settings := by
  induction events generalizing s with
  | nil =>
    refine ⟨fun _ n s' done => ?_, fun _ => trivial⟩
    rw [take_nil] at done
    cases done
    rfl
  | cons event events ih =>
    constructor
    · rintro ⟨idle, later⟩ n s' done
      cases n with
      | zero =>
        cases done
        rfl
      | succ n =>
        obtain ⟨next, now, done⟩ := bind_ok done
        have step := (callback_settings_iff guarded verify now).mpr idle
        have verify' : next.verify = true := (goes_callback now).verify.trans verify
        rw [(ih verify').mp (later next now) n s' done, step]
    · intro keeps
      have first : ∀ next, callback (verifyTables decode items tableNames named) s event
          = .ok next → next.world.settings = s.world.settings := by
        intro next now
        refine keeps 1 next ?_
        rw [take_succ_cons, foldlM_cons, now]
        rfl
      refine ⟨?_, fun next now => ?_⟩
      · cases now : callback (verifyTables decode items tableNames named) s event with
        | ok next => exact (callback_settings_iff guarded verify now).mp (first next now)
        | error field =>
          -- only the callbacks that copy a name fail, and these write nothing
          cases event with
          | tagBegin | attributeBegin => exact nofun
          | attributeValue | data | tagEnd => cases now
      · have verify' : next.verify = true := (goes_callback now).verify.trans verify
        refine (ih verify').mpr fun n s' done => ?_
        rw [first next now]
        refine keeps (n + 1) s' ?_
        rw [take_succ_cons, foldlM_cons, now]
        exact done

end

def VerifyReaches (T : Tables (World R)) (document : List UInt8) (world : World R)
    (s : XmlState (World R)) : Prop :=
  ∃ n : Nat, ((nxmlWrite nxmlOpen document).1.take n).foldlM (callback T) (.init true world) = .ok s

def QuietDocument (decode : List UInt8 → List UInt8) (items : List (AppItem (World R)))
    (T : Tables (World R)) (document : List UInt8) (world : World R) : Prop :=
  QuietRun decode items T (.init true world) (nxmlWrite nxmlOpen document).1

end Pass

theorem guarded_pppProfileItem (decode : List UInt8 → List UInt8) :
    Guarded (pppProfileItem decode : AppItem (World R)) where
  getObj appName objName attrName attrValue errorFlag w := by
    simp only [pppProfileItem]
    split
    · rw [xmlGetPppProfileAttr]
      repeat' split
      all_goals rfl
    split
    · rw [xmlGetPppProfileEntryAttr]
      repeat' split
      all_goals rfl
    · rfl
  startObj appName objName errorFlag w := rfl
  endObj appName objName errorFlag w := by
    simp only [pppProfileItem]
    repeat' split
    all_goals rfl

def profileTables (decode : List UInt8 → List UInt8) : Tables (World Unit) :=
  verifyTables decode [pppProfileItem decode] tableNames tableNames_named

def freshWorld : World Unit where
  settings := ⟨fun _ => none, fun _ => [], true⟩
  psiValue := none
  tableSize := 0
  tableIndex := 0
  rest := ()

def userDocument : List UInt8 :=
  ascii "<psitree><PPPProfile><pppPro tableSize=\"1\"><pppProEntry UserName=\"user\"/>" ++
    ascii "</pppPro></PPPProfile></psitree>"

def userWorld : World Unit :=
  { freshWorld with settings := freshWorld.settings.hspaSet .userName (ascii "user") }

theorem callbacks_userDocument :
    (nxmlWrite nxmlOpen userDocument).1 =
      [.tagBegin (ascii "psitree"), .tagBegin (ascii "PPPProfile"), .tagBegin (ascii "pppPro"),
        .attributeBegin (ascii "tableSize"), .attributeValue (ascii "1"),
        .tagBegin (ascii "pppProEntry"), .attributeBegin (ascii "UserName"),
        .attributeValue (ascii "user"), .tagEnd [], .tagEnd (ascii "pppPro"),
        .tagEnd (ascii "PPPProfile"), .tagEnd (ascii "psitree")] := by
  decide +kernel

theorem quietDocument_user :
    QuietDocument id [pppProfileItem id] (profileTables id) userDocument userWorld := by
  rw [QuietDocument, callbacks_userDocument]
  -- no callback has a write, as the user name is not empty
  iterate 12
    refine ⟨nofun, ?_⟩
    intro s' now
    cases now
  trivial

end EchoLife.Xml
