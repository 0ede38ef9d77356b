import EchoLife.Psi.Store
import EchoLife.Xml.Attributes

/-!
# Writing the store to a file

`writeConfigToFile` adds up the sizes of the applications, refuses a store that is too large, and
has every application written. The sizes are `UINT16`, and an application whose objects have the
size 0 is left out. `writeConfigToFile_iff` says for which stores everything is written or an error
is reported, and `writeConfigToFile_drops_objects` is a store that loses an object.
-/

namespace EchoLife.Psi

open List LinkedList TextSearch EchoLife.Xml

inductive ExportStatus
  | ok
  | errConfigfileUnknown
  | errProfileTooLarge
  deriving Repr, DecidableEq

inductive Output where
  | text (bytes : List UInt8)
  | objNode (appName : AppName) (object : PsiObject)
  deriving Repr, DecidableEq

def psiBufferToXmlFactor : Nat := 4

/-! ## Applications -/

def sizeObjs (objects : List PsiObject) : UInt16 :=
  objects.foldl (fun sizeObjs object => sizeObjs + (2 + 2 + UInt16.ofNat object.length)) 0

def getAppSize (appName : AppName) (objects : List PsiObject) : UInt16 :=
  2 + 2 + UInt16.ofNat appName.1.length + sizeObjs objects

def appToXml (appName : AppName) (objects : List PsiObject) : List Output :=
  if sizeObjs objects = 0 then []
  else
    [.text (fprintf "<%s>\n" [appName.1])] ++ objects.map (.objNode appName) ++
      [.text (fprintf "</%s>\n" [appName.1])]

/-! ## The store -/

def writeApps (psiSize : Nat) (apps : List (AppName × List PsiObject)) :
    ExportStatus × List Output :=
  let len := UInt32.ofNat (psiSize * psiBufferToXmlFactor)
  let sizeApps : UInt32 :=
    apps.foldl (fun sizeApps app => sizeApps + (getAppSize app.1 app.2).toUInt32) 0
  if sizeApps = 0 then (.ok, [.text (fprintf "<%s/>\n" [ascii "psitree"])])
  else if sizeApps > len then (.errProfileTooLarge, [])
  else
    (.ok, [.text (fprintf "<%s>\n" [ascii "psitree"])] ++
      apps.flatMap (fun app => appToXml app.1 app.2) ++
      [.text (fprintf "</%s>\n" [ascii "psitree"])])

def PsiIfc.writeConfigToFile (s : PsiIfc) (opened : Bool) (psiSize : Nat) :
    Option (ExportStatus × List Output) :=
  if !opened then some (.errConfigfileUnknown, [])
  else do
    let nodes ← items s.appNodes addresses s.apps
    let apps ← nodes.mapM fun app => do
      let objects ← items s.objectNodes addresses app.objects
      pure (app.appName, objects)
    pure (writeApps psiSize apps)

/-! ## The sizes -/

def App.values (a : App) : List PsiObject := a.objects.map Prod.snd

def objectsSize (objects : List PsiObject) : Nat :=
  (objects.map fun object => 4 + object.length).sum

def App.size (a : App) : Nat := 4 + a.name.1.length + objectsSize a.values

def totalSize (apps : List App) : Nat := (apps.map App.size).sum

def summedSize (apps : List App) : Nat := (apps.map fun a => a.size % 2 ^ 16).sum % 2 ^ 32

theorem toNat_foldl_uint16 {α : Type} (g : α → UInt16) (l : List α) (start : UInt16) :
    (l.foldl (fun sum x => sum + g x) start).toNat =
      (start.toNat + (l.map fun x => (g x).toNat).sum) % 2 ^ 16 := by
  induction l generalizing start with
  | nil => simp [Nat.mod_eq_of_lt start.toNat_lt]
  | cons x l ih =>
    rw [foldl_cons, ih, UInt16.toNat_add, map_cons, sum_cons]
    omega

theorem toNat_foldl_uint32 {α : Type} (g : α → UInt32) (l : List α) (start : UInt32) :
    (l.foldl (fun sum x => sum + g x) start).toNat =
      (start.toNat + (l.map fun x => (g x).toNat).sum) % 2 ^ 32 := by
  induction l generalizing start with
  | nil => simp [Nat.mod_eq_of_lt start.toNat_lt]
  | cons x l ih =>
    rw [foldl_cons, ih, UInt32.toNat_add, map_cons, sum_cons]
    omega

theorem toNat_sizeObjs (objects : List PsiObject) :
    (sizeObjs objects).toNat = objectsSize objects % 2 ^ 16 := by
  have entry (object : PsiObject) :
      (2 + 2 + UInt16.ofNat object.length).toNat = (4 + object.length) % 2 ^ 16 := by
    exact Nat.add_mod_mod 4 object.length _
  rw [sizeObjs, toNat_foldl_uint16, objectsSize, sum_nat_mod (objects.map _) (2 ^ 16),
    List.map_map]
  simp only [entry, UInt16.toNat_zero, Nat.zero_add]
  rfl

theorem toNat_getAppSize (a : App) : (getAppSize a.name a.values).toNat = a.size % 2 ^ 16 := by
  rw [getAppSize, UInt16.toNat_add, UInt16.toNat_add, UInt16.toNat_ofNat', toNat_sizeObjs, App.size]
  have four : (2 + 2 : UInt16).toNat = 4 := rfl
  omega

theorem sizeObjs_eq_zero_iff (objects : List PsiObject) :
    sizeObjs objects = 0 ↔ objectsSize objects % 2 ^ 16 = 0 := by
  rw [← toNat_sizeObjs, ← UInt16.toNat_inj]
  rfl

def App.written (a : App) : List (AppName × PsiObject) :=
  if objectsSize a.values % 2 ^ 16 = 0 then [] else a.values.map (a.name, ·)

def objNodes (outputs : List Output) : List (AppName × PsiObject) :=
  outputs.filterMap fun
    | .objNode appName object => some (appName, object)
    | .text _ => none

def allObjects (apps : List App) : List (AppName × PsiObject) :=
  apps.flatMap fun a => a.values.map (a.name, ·)

theorem objNodes_appToXml (a : App) : objNodes (appToXml a.name a.values) = a.written := by
  rw [appToXml, App.written]
  by_cases empty : objectsSize a.values % 2 ^ 16 = 0
  · rw [if_pos ((sizeObjs_eq_zero_iff a.values).mpr empty), if_pos empty]
    rfl
  · rw [if_neg (mt (sizeObjs_eq_zero_iff a.values).mp empty), if_neg empty]
    simp [objNodes, filterMap_append, filterMap_map]

theorem objNodes_flatMap (apps : List App) :
    objNodes (apps.flatMap fun a => appToXml a.name a.values) = apps.flatMap App.written := by
  induction apps with
  | nil => rfl
  | cons a apps ih =>
    rw [flatMap_cons, flatMap_cons, objNodes, filterMap_append, ← objNodes,
      objNodes_appToXml, ← objNodes, ih]

theorem writeApps_eq (apps : List App) {psiSize : Nat}
    (small : psiSize * psiBufferToXmlFactor < 2 ^ 31) :
    let result := writeApps psiSize (apps.map fun a => (a.name, a.values))
    (result.1, objNodes result.2) =
      if summedSize apps = 0 then (.ok, [])
      else if psiSize * psiBufferToXmlFactor < summedSize apps then (.errProfileTooLarge, [])
      else (.ok, apps.flatMap App.written) := by
  have sum : ((apps.map fun a => (a.name, a.values)).foldl
      (fun sizeApps app => sizeApps + (getAppSize app.1 app.2).toUInt32) 0).toNat =
      summedSize apps := by
    rw [toNat_foldl_uint32, List.map_map, summedSize]
    simp only [Function.comp_def, UInt16.toNat_toUInt32, toNat_getAppSize, UInt32.toNat_zero,
      Nat.zero_add]
  have zero : (apps.map fun a => (a.name, a.values)).foldl
      (fun sizeApps app => sizeApps + (getAppSize app.1 app.2).toUInt32) 0 = 0 ↔
      summedSize apps = 0 := by
    rw [← sum, ← UInt32.toNat_inj]
    rfl
  have limit : (UInt32.ofNat (psiSize * psiBufferToXmlFactor)).toNat =
      psiSize * psiBufferToXmlFactor := by
    exact Nat.mod_eq_of_lt (by omega)
  have above : (apps.map fun a => (a.name, a.values)).foldl
      (fun sizeApps app => sizeApps + (getAppSize app.1 app.2).toUInt32) 0 >
        UInt32.ofNat (psiSize * psiBufferToXmlFactor) ↔
      psiSize * psiBufferToXmlFactor < summedSize apps := by
    rw [gt_iff_lt, UInt32.lt_iff_toNat_lt, sum, limit]
  rw [writeApps]
  simp only [zero, above]
  split
  next => rfl
  next =>
    split
    next => rfl
    next =>
      have all := objNodes_flatMap apps
      rw [objNodes] at all
      simp [objNodes, flatMap_map, all]

/-! ## The store -/

theorem Holds.writeConfigToFile {s : PsiIfc} {apps : List App} (holds : Holds s apps)
    (psiSize : Nat) : s.writeConfigToFile true psiSize =
      some (writeApps psiSize (apps.map fun a => (a.name, a.values))) := by
  have nodes := holds.linked.items_eq (length_le_addresses holds.linked)
  have walk (rest : List App) (sub : ∀ a ∈ rest, a ∈ apps) :
      ((rest.map App.cell).map Prod.snd).mapM (fun app => do
        let objects ← items s.objectNodes addresses app.objects
        pure (app.appName, objects)) = some (rest.map fun a => (a.name, a.values)) := by
    induction rest with
    | nil => rfl
    | cons a rest ih =>
      have chain := holds.objects a (sub a mem_cons_self)
      have objects := chain.items_eq (length_le_addresses chain)
      have later := ih fun b mem => sub b (mem_cons_of_mem a mem)
      rw [map_cons, map_cons, mapM_cons, later]
      simp only [App.cell, objects]
      rfl
  rw [PsiIfc.writeConfigToFile, if_neg (by decide), nodes]
  exact congrArg (fun found => found.bind fun apps => some (writeApps psiSize apps))
    (walk apps fun a mem => mem)

theorem flatMap_written_eq_iff (apps : List App) :
    apps.flatMap App.written = allObjects apps ↔
      ∀ a ∈ apps, a.values ≠ [] → objectsSize a.values % 2 ^ 16 ≠ 0 := by
  have short (a : App) : a.written.length ≤ (a.values.map (a.name, ·)).length := by
    rw [App.written]
    split
    next => exact Nat.zero_le _
    next => exact le_rfl
  have shorter (apps : List App) :
      (apps.flatMap App.written).length ≤ (allObjects apps).length := by
    rw [allObjects, length_flatMap, length_flatMap]
    exact sum_le_sum fun a _ => short a
  have one (a : App) : a.written = a.values.map (a.name, ·) ↔
      (a.values ≠ [] → objectsSize a.values % 2 ^ 16 ≠ 0) := by
    rw [App.written]
    split
    next empty =>
      rw [eq_comm, map_eq_nil_iff]
      exact ⟨fun none some => absurd none some, fun skips => by
        by_contra some
        exact skips some empty⟩
    next large => exact iff_of_true rfl fun _ => large
  induction apps with
  | nil => exact iff_of_true rfl fun a mem => absurd mem not_mem_nil
  | cons a apps ih =>
    refine Iff.trans ?_ ((and_congr (one a) ih).trans (forall_mem_cons
      (p := fun a : App => a.values ≠ [] → objectsSize a.values % 2 ^ 16 ≠ 0)).symm)
    constructor
    · intro same
      rw [allObjects, flatMap_cons, flatMap_cons] at same
      have lengths := congrArg List.length same
      rw [length_append, length_append] at lengths
      have first := short a
      have rest := shorter apps
      rw [allObjects] at rest
      exact append_inj same (by omega)
    · rintro ⟨first, rest⟩
      rw [allObjects, flatMap_cons, flatMap_cons, first, rest]
      rfl

theorem summedSize_le (apps : List App) : summedSize apps ≤ totalSize apps := by
  have sum : (apps.map fun a => a.size % 2 ^ 16).sum ≤ totalSize apps :=
    sum_le_sum fun a _ => Nat.mod_le _ _
  exact (Nat.mod_le _ _).trans sum

theorem summedSize_eq_zero_iff {apps : List App} (small : totalSize apps < 2 ^ 32) :
    summedSize apps = 0 ↔ ∀ a ∈ apps, a.size % 2 ^ 16 = 0 := by
  have sum : (apps.map fun a => a.size % 2 ^ 16).sum ≤ totalSize apps :=
    sum_le_sum fun a _ => Nat.mod_le _ _
  rw [summedSize, Nat.mod_eq_of_lt (by omega), sum_eq_zero_iff]
  simp

theorem writeApps_within {apps : List App} {psiSize : Nat}
    (small : psiSize * psiBufferToXmlFactor < 2 ^ 31)
    (fits : totalSize apps ≤ psiSize * psiBufferToXmlFactor) :
    let result := writeApps psiSize (apps.map fun a => (a.name, a.values))
    result.1 = .ok ∧ (objNodes result.2 = allObjects apps ↔
      (∀ a ∈ apps, a.values ≠ [] → objectsSize a.values % 2 ^ 16 ≠ 0) ∧
        (allObjects apps ≠ [] → ∃ a ∈ apps, a.size % 2 ^ 16 ≠ 0)) := by
  have result := writeApps_eq apps small
  dsimp only at result ⊢
  have le := summedSize_le apps
  have zero_iff := @summedSize_eq_zero_iff apps (by omega)
  by_cases zero : summedSize apps = 0
  · -- nothing is written: there must be nothing to write
    rw [if_pos zero] at result
    obtain ⟨ok, nodes⟩ := Prod.mk.inj result
    refine ⟨ok, ?_⟩
    rw [nodes]
    constructor
    · intro none
      refine ⟨fun a mem some => absurd ?_ some, fun some => absurd none.symm some⟩
      have empty := flatMap_eq_nil_iff.mp none.symm a mem
      exact map_eq_nil_iff.mp empty
    · grind
  · rw [if_neg zero, if_neg (by omega)] at result
    obtain ⟨ok, nodes⟩ := Prod.mk.inj result
    refine ⟨ok, ?_⟩
    have large : ∃ a ∈ apps, a.size % 2 ^ 16 ≠ 0 := by grind
    rw [nodes, flatMap_written_eq_iff]
    exact ⟨fun right => ⟨right, fun _ => large⟩, fun right => right.1⟩

theorem writeApps_refuses_iff (apps : List App) {psiSize : Nat}
    (small : psiSize * psiBufferToXmlFactor < 2 ^ 31) :
    (writeApps psiSize (apps.map fun a => (a.name, a.values))).1 = .errProfileTooLarge ↔
      psiSize * psiBufferToXmlFactor < summedSize apps := by
  have status := congrArg Prod.fst (writeApps_eq apps small)
  rw [status]
  by_cases zero : summedSize apps = 0
  · rw [if_pos zero]
    exact iff_of_false nofun (by omega)
  · grind

/-- The stores that are written in full or refused: those within the limit without an application
whose objects, or whose whole size, come to 0, and those beyond the limit of which enough is left by
the sums. -/
def SavesAll (opened : Bool) (limit : Nat) (apps : List App) : Prop :=
  if totalSize apps ≤ limit then
    opened = true → (∀ a ∈ apps, a.values ≠ [] → objectsSize a.values % 2 ^ 16 ≠ 0) ∧
      (allObjects apps ≠ [] → ∃ a ∈ apps, a.size % 2 ^ 16 ≠ 0)
  else opened = true ∧ limit < summedSize apps

/-- **Saving writes every object or reports an error, and reports a store as too large exactly when
it is**, for these stores and no others. -/
theorem writeConfigToFile_iff {s : PsiIfc} {apps : List App} (holds : Holds s apps) (opened : Bool)
    {psiSize : Nat} (small : psiSize * psiBufferToXmlFactor < 2 ^ 31) :
    ∃ status outputs, s.writeConfigToFile opened psiSize = some (status, outputs) ∧
      ((status = .ok → objNodes outputs = allObjects apps) ∧
          (status = .errProfileTooLarge ↔
            psiSize * psiBufferToXmlFactor < totalSize apps) ↔
        SavesAll opened (psiSize * psiBufferToXmlFactor) apps) := by
  rw [SavesAll]
  cases opened with
  | false =>
    refine ⟨.errConfigfileUnknown, [], rfl, ?_⟩
    by_cases fits : totalSize apps ≤ psiSize * psiBufferToXmlFactor
    · grind
    · grind
  | true =>
    have within := @writeApps_within apps psiSize small
    have refuses := writeApps_refuses_iff apps small
    have eq := holds.writeConfigToFile psiSize
    generalize writeApps psiSize (apps.map fun a => (a.name, a.values)) = written
      at eq within refuses
    obtain ⟨status, outputs⟩ := written
    refine ⟨status, outputs, eq, ?_⟩
    rw [forall_prop_of_true rfl, and_iff_right rfl]
    by_cases fits : totalSize apps ≤ psiSize * psiBufferToXmlFactor
    · have accepted : ¬ psiSize * psiBufferToXmlFactor < totalSize apps := not_lt.mpr fits
      obtain ⟨rfl, all⟩ := within fits
      rw [if_pos fits, iff_false_right accepted, forall_prop_of_true rfl, ← all]
      exact and_iff_left (by decide)
    · grind

local instance idNeZero : NeZero (2 ^ 32) := ⟨by decide⟩

def singleApp (length : Nat) : App :=
  ⟨0, ⟨ascii "App", by decide⟩, [(1, ⟨1, length, some (replicate length 0)⟩)]⟩

def singleStore (length : Nat) : PsiIfc :=
  { PsiIfc.empty with
    apps := some 0
    appNodes := fun p => if p = 0 then some ⟨⟨(singleApp length).name, some 1⟩, none⟩ else none
    objectNodes := fun p =>
      if p = 1 then some ⟨⟨1, length, some (replicate length 0)⟩, none⟩ else none }

theorem holds_singleStore (length : Nat) :
    Holds (singleStore length) [singleApp length] where
  linked := .cons rfl (.nil none)
  objects := by
    intro a mem
    obtain rfl := mem_singleton.mp mem
    exact .cons rfl (.nil none)
  apart := nodup_singleton _
  all := by
    intro p allocated
    by_contra other
    refine allocated (if_neg fun zero => other ?_)
    rw [zero]
    exact mem_singleton.mpr rfl

/-- A store with an object of 100 bytes. -/
theorem writeConfigToFile_iff_singleApp :
    ∃ status outputs, (singleStore 100).writeConfigToFile true 24576 = some (status, outputs) ∧
      ((status = .ok → objNodes outputs = allObjects [singleApp 100]) ∧
          (status = .errProfileTooLarge ↔
            24576 * psiBufferToXmlFactor < totalSize [singleApp 100]) ↔
        SavesAll true (24576 * psiBufferToXmlFactor) [singleApp 100]) :=
  writeConfigToFile_iff (holds_singleStore 100) true (by decide)

/-- The size of an object of 65532 bytes is 0 in 16 bits: the application is left out of the file,
and no error is reported. -/
theorem writeConfigToFile_drops_objects :
    Holds (singleStore 65532) [singleApp 65532] ∧
      (allObjects [singleApp 65532]).length = 1 ∧
      ((singleStore 65532).writeConfigToFile true 24576).map
        (fun result => (result.1, (objNodes result.2).length)) = some (.ok, 0) := by
  refine ⟨holds_singleStore 65532, rfl, ?_⟩
  rw [(holds_singleStore 65532).writeConfigToFile]
  decide +kernel

end EchoLife.Psi
