import EchoLife.Db.Validate
import EchoLife.Psi.Dump
import EchoLife.Psi.Export

/-!
# Writing the table of PPP profiles

A table is two objects: its size and its entries. The writer of the entries does not know the size:
it reads the last bytes of the file again (`xmlGetTableSize`) and finds it there, if the object with
the size was written before (`xmlGetTableSize_tableTag`).

`appToXml_emits_iff` says when the application is written as one table with its entries, and
`appToXml_entries_first` is what is written in the other order.
-/

namespace EchoLife.Psi

open List TextSearch EchoLife.Xml EchoLife.Db

/-! ## Reading the file again -/

def fgets (n : Nat) (text : List UInt8) : List UInt8 :=
  let line := text.take (n - 1)
  line.take (line.idxOf 10 + 1)

def xmlTableSizeLen : Nat := 16

def sizeInBuf (buf : List UInt8) : Int :=
  if strstr (ascii "Size") buf = none then 0
  else
    match strstr [34] buf with
    | none => 0
    | some firstQuote =>
      match strstr [34] (buf.drop (firstQuote + 1)) with
      | none => 0
      | some secondQuote => atoi ((buf.drop (firstQuote + 1)).take secondQuote)

/-- `xmlGetTableSize`, at the end of the file. `stale` is what is in the buffer when the file is
too short to be read. -/
def xmlGetTableSize (stale file : List UInt8) : Int :=
  sizeInBuf (if file.length < xmlTableSizeLen then stale
    else fgets xmlTableSizeLen (file.drop (file.length - xmlTableSizeLen)))

/-! ## The objects of the application -/

def uint16Of (value : List UInt8) : Nat := 256 * (value.getD 0 0).toNat + (value.getD 1 0).toNat

def tableTag (n : Nat) : List UInt8 :=
  if n ≠ 0 then fprintf "<%s tableSize=\"%d\">\n" [ascii "pppPro", printD n] else []

def xmlSetPppProfileObjNode (table : List UInt8 → List ProfileInfo) (stale : List UInt8)
    (file : List UInt8) (object : PsiObject) : List UInt8 :=
  match object.value with
  | none => file
  | some value =>
    if object.id = 1 then file ++ tableTag (uint16Of value)
    else if object.id = 2 then
      let num := xmlGetTableSize stale file
      file ++ xmlSetPppProfileAttr (ascii "pppProEntry") ((table value).take num.toNat)
    else file

def writeOutputs (setObjNode : List UInt8 → PsiObject → List UInt8) (file : List UInt8)
    (outputs : List Output) : List UInt8 :=
  outputs.foldl
    (fun file output =>
      match output with
      | .text bytes => file ++ bytes
      | .objNode _ object => setObjNode file object) file

def pppProfileName : AppName := ⟨ascii "PPPProfile", by decide⟩

/-! ## The size is found -/

theorem decimal_concat (front : List UInt8) (c : UInt8) :
    decimal (front ++ [c]) = 10 * decimal front + (c.toNat - 48) := by
  simp [decimal, foldl_append]

theorem digits_printD (n : Nat) :
    (∀ c ∈ printD n, IsDigit c) ∧ decimal (printD n) = n := by
  have digit (d : Nat) (small : d < 10) : IsDigit (Nat.digitChar d).toNat.toUInt8 ∧
      ((Nat.digitChar d).toNat.toUInt8).toNat - 48 = d := by
    revert d
    decide
  refine toDigits_induction (P := fun n digits =>
    (∀ c ∈ digits.map fun c => c.toNat.toUInt8, IsDigit c) ∧
      decimal (digits.map fun c => c.toNat.toUInt8) = n) ?_ ?_ n
  · intro d small
    simpa [decimal] using digit d small
  · rintro m front d small ⟨digits, value⟩
    have last := digit d small
    rw [map_append, map_singleton, decimal_concat, value, last.2]
    refine ⟨fun c mem => ?_, rfl⟩
    rcases mem_append.mp mem with mem | mem
    · exact digits c mem
    · rw [mem_singleton.mp mem]
      exact last.1

variable {n : Nat} {objects : List PsiObject} {entries : List ProfileInfo}

theorem length_printD (pos : 0 < n) (small : n < 10 ^ 5) :
    0 < (printD n).length ∧ (printD n).length ≤ 5 := by
  constructor
  · refine length_pos_of_ne_nil fun none => ?_
    have value := (digits_printD n).2
    rw [none] at value
    exact absurd value (Nat.ne_of_lt pos)
  · have text : printD n = (Nat.toDigits 10 n).map fun c => c.toNat.toUInt8 := by simp [printD]
    rw [text, length_map]
    exact Nat.toDigits_length 10 n 5 (by decide) small

theorem tableTag_eq (pos : 0 < n) :
    tableTag n =
      ascii "<pppPro table" ++ (ascii "Size=" ++ 34 :: (printD n ++ 34 :: ascii ">\n")) := by
  rw [tableTag, if_pos (by omega)]
  rfl

theorem avoids_singleton {c : UInt8} {front : List UInt8} (nul : 0 ∉ front) (away : c ∉ front) :
    Avoids 0 [c] front := by
  induction front with
  | nil => trivial
  | cons b front ih =>
    rw [mem_cons, not_or] at nul away
    refine ⟨Ne.symm nul.1, ?_, ih nul.2 away.2⟩
    simp [away.1]

theorem strstr_singleton {c : UInt8} {front : List UInt8} (nul : 0 ∉ front) (away : c ∉ front)
    (rest : List UInt8) : strstr [c] (front ++ c :: rest) = some front.length := by
  rw [strstr, find_avoids (avoids_singleton nul away), find]
  simp

theorem fgets_of_length {line : List UInt8} (rest : List UInt8) (length : line.length = n - 1)
    (newline : 10 ∉ line) : fgets n (line ++ rest) = line := by
  rw [fgets, take_left' length, idxOf_eq_length newline, take_of_length_le]
  exact Nat.le_succ _

theorem sizeInBuf_eq {front number : List UInt8} (nul : 0 ∉ front) (quote : 34 ∉ front)
    (digits : ∀ c ∈ number, IsDigit c) :
    sizeInBuf (front ++ (ascii "Size=" ++ 34 :: (number ++ [34, 62]))) = decimal number := by
  have other (c : UInt8) (letter : ¬ IsDigit c) : c ∉ number := fun mem => letter (digits c mem)
  have word (c : UInt8) (away : c ∉ front) (letter : c ∉ ascii "Size=") :
      c ∉ front ++ ascii "Size=" := by
    rw [mem_append]
    exact not_or.mpr ⟨away, letter⟩
  have sized : strstr (ascii "Size") (front ++ (ascii "Size=" ++ 34 :: (number ++ [34, 62]))) ≠
      none := find_ne_none nul (61 :: 34 :: (number ++ [34, 62]))
  have first := strstr_singleton (word 0 nul (by decide)) (word 34 quote (by decide))
    (number ++ [34, 62])
  have behind : (front ++ ascii "Size=" ++ 34 :: (number ++ [34, 62])).drop
      ((front ++ ascii "Size=").length + 1) = number ++ [34, 62] := by
    rw [← drop_drop, drop_left]
    rfl
  have second := strstr_singleton (other 0 (by decide)) (other 34 (by decide)) [62]
  rw [append_assoc] at first behind
  rw [sizeInBuf, if_neg sized, first]
  dsimp only
  rw [behind, second]
  dsimp only
  rw [take_left, atoi_digits digits]

theorem fgets_tableTag (pos : 0 < n) (small : n < 10 ^ 5) (before : List UInt8) :
    xmlTableSizeLen ≤ (before ++ tableTag n).length ∧
      fgets xmlTableSizeLen
          ((before ++ tableTag n).drop ((before ++ tableTag n).length - xmlTableSizeLen)) =
        (ascii "<pppPro table").drop (6 + (printD n).length) ++
          (ascii "Size=" ++ 34 :: (printD n ++ [34, 62])) := by
  obtain ⟨some, few⟩ := length_printD pos small
  have length : (before ++ tableTag n).length =
      before.length + (6 + (printD n).length) + xmlTableSizeLen := by
    rw [tableTag_eq pos]
    simp [xmlTableSizeLen, ascii]
    omega
  have whole : tableTag n = ascii "<pppPro table" ++
      (ascii "Size=" ++ 34 :: (printD n ++ [34, 62]) ++ [10]) := by
    rw [tableTag_eq pos]
    simp [ascii]
  refine ⟨by omega, ?_⟩
  rw [length, Nat.add_sub_cancel, ← drop_drop, drop_left, whole,
    drop_append_of_le_length (show _ ≤ 13 by omega), ← append_assoc]
  refine fgets_of_length _ ?_ ?_
  · simp [xmlTableSizeLen, ascii]
    omega
  · rw [mem_append]
    refine not_or.mpr ⟨mt mem_of_mem_drop (by decide), ?_⟩
    have number : 10 ∉ printD n := fun mem => absurd ((digits_printD n).1 10 mem) (by decide)
    simp [number, ascii]

theorem xmlGetTableSize_tableTag (pos : 0 < n) (small : n < 10 ^ 5) (stale before : List UInt8) :
    xmlGetTableSize stale (before ++ tableTag n) = n := by
  obtain ⟨digits, value⟩ := digits_printD n
  obtain ⟨long, buf⟩ := fgets_tableTag pos small before
  rw [xmlGetTableSize, if_neg (not_lt.mpr long), buf,
    sizeInBuf_eq (mt mem_of_mem_drop (by decide)) (mt mem_of_mem_drop (by decide)) digits,
    value]

theorem xmlGetTableSize_appTag (stale before : List UInt8) (some : 3 ≤ before.length) :
    xmlGetTableSize stale (before ++ fprintf "<%s>\n" [pppProfileName.1]) = 0 := by
  obtain ⟨x, y, z, last⟩ : ∃ x y z, before.drop (before.length - 3) = [x, y, z] := by
    rw [← length_eq_three, length_drop]
    omega
  have text : before ++ fprintf "<%s>\n" [pppProfileName.1] =
      before.take (before.length - 3) ++ (x :: y :: z :: ascii "<PPPProfile>" ++ [10]) := by
    conv_lhs => rw [← take_append_drop (before.length - 3) before, last]
    rw [append_assoc]
    rfl
  have length : (before.take (before.length - 3) ++
      (x :: y :: z :: ascii "<PPPProfile>" ++ [10])).length =
      (before.take (before.length - 3)).length + xmlTableSizeLen := by
    rw [length_append]
    rfl
  have absent : strstr (ascii "Size") (x :: y :: z :: ascii "<PPPProfile>") = none := by
    simp [strstr, find, ascii]
  have line : (x :: y :: z :: ascii "<PPPProfile>" ++ [10]).take (xmlTableSizeLen - 1) =
      x :: y :: z :: ascii "<PPPProfile>" := rfl
  rw [xmlGetTableSize, text, length, if_neg (by omega), Nat.add_sub_cancel, drop_left, fgets,
    line, sizeInBuf, if_pos]
  by_contra found
  obtain ⟨i, found⟩ := Option.ne_none_iff_exists'.mp found
  have whole := find_append found ((x :: y :: z :: ascii "<PPPProfile>").drop
    ((x :: y :: z :: ascii "<PPPProfile>").idxOf 10 + 1))
  rw [take_append_drop, ← strstr, absent] at whole
  cases whole

/-! ## The application -/

structure TableObjects (table : List UInt8 → List ProfileInfo) (objects : List PsiObject) (n : Nat)
    (entries : List ProfileInfo) : Prop where
  size : ∃ object ∈ objects, object.id = 1 ∧ ∃ value, object.value = some value ∧ uint16Of value = n
  entry : ∃ object ∈ objects, object.id = 2 ∧ ∃ value, object.value = some value ∧
    table value = entries
  enough : n ≤ entries.length
  ids : (objects.map PsiObject.id).Nodup

def SizeFirst (objects : List PsiObject) : Prop :=
  (objects.map PsiObject.id).filter (fun id => id = 1 ∨ id = 2) = [1, 2]

instance (objects : List PsiObject) : Decidable (SizeFirst objects) :=
  inferInstanceAs (Decidable (_ = _))

def Emits (n : Nat) (entries : List ProfileInfo) (emitted : List UInt8) : Prop :=
  emitted = toXml pppProfileName.1
      (xmlSetPppProfileAttr (ascii "pppPro") (entries.take n) ++
        xmlSetPppProfileAttr (ascii "pppProEntry") (entries.take n)) ∨
    n = 0 ∧ emitted = []

theorem uint16Of_lt (value : List UInt8) : uint16Of value < 10 ^ 5 := by
  have first := (value.getD 0 0).toNat_lt
  have second := (value.getD 1 0).toNat_lt
  rw [uint16Of]
  omega

variable {table : List UInt8 → List ProfileInfo} {stale : List UInt8}

theorem foldl_setObjNode_filter (objects : List PsiObject) (file : List UInt8) :
    objects.foldl (xmlSetPppProfileObjNode table stale) file =
      (objects.filter fun object => object.id = 1 ∨ object.id = 2).foldl
        (xmlSetPppProfileObjNode table stale) file := by
  induction objects generalizing file with
  | nil => rfl
  | cons object objects ih =>
    by_cases known : object.id = 1 ∨ object.id = 2
    · rw [filter_cons_of_pos (by simpa using known), foldl_cons, foldl_cons, ih]
    · rw [filter_cons_of_neg (by simpa using known), foldl_cons, ← ih]
      rw [not_or] at known
      congr 1
      rw [xmlSetPppProfileObjNode]
      cases object.value with
      | none => rfl
      | some value => simp only [if_neg known.1, if_neg known.2]

theorem TableObjects.order (has : TableObjects table objects n entries) :
    ∃ size entry : PsiObject,
      (size.id = 1 ∧ ∃ value, size.value = some value ∧ uint16Of value = n) ∧
      (entry.id = 2 ∧ ∃ value, entry.value = some value ∧ table value = entries) ∧
      (SizeFirst objects ∧
          objects.filter (fun object => object.id = 1 ∨ object.id = 2) = [size, entry] ∨
        ¬ SizeFirst objects ∧
          objects.filter (fun object => object.id = 1 ∨ object.id = 2) = [entry, size]) := by
  obtain ⟨size, size_mem, size_id, size_value⟩ := has.size
  obtain ⟨entry, entry_mem, entry_id, entry_value⟩ := has.entry
  refine ⟨size, entry, ⟨size_id, size_value⟩, ⟨entry_id, entry_value⟩, ?_⟩
  have ids : (objects.map PsiObject.id).filter (fun id => id = 1 ∨ id = 2) =
      (objects.filter fun object => object.id = 1 ∨ object.id = 2).map PsiObject.id :=
    filter_map
  have same : ∀ object ∈ objects, ∀ other ∈ objects, object.id = other.id → object = other :=
    fun object mem other mem' eq => inj_on_of_nodup_map has.ids mem mem' eq
  have distinct : size ≠ entry := by
    rintro rfl
    rw [size_id] at entry_id
    exact absurd entry_id (by decide)
  have found : (objects.filter fun object => object.id = 1 ∨ object.id = 2).Perm [size, entry] := by
    refine (perm_ext_iff_of_nodup (has.ids.of_map.filter _) (by simpa using distinct)).mpr ?_
    intro object
    rw [mem_filter, decide_eq_true_iff, mem_cons, mem_singleton]
    constructor
    · rintro ⟨mem, one | two⟩
      · exact Or.inl (same object mem size size_mem (one.trans size_id.symm))
      · exact Or.inr (same object mem entry entry_mem (two.trans entry_id.symm))
    · rintro (rfl | rfl)
      · exact ⟨size_mem, Or.inl size_id⟩
      · exact ⟨entry_mem, Or.inr entry_id⟩
  rw [SizeFirst, ids]
  generalize (objects.filter fun object => object.id = 1 ∨ object.id = 2) = pair at found
  rcases perm_pair.mp found with rfl | rfl
  · exact Or.inl ⟨by simp [size_id, entry_id], rfl⟩
  · exact Or.inr ⟨by simp [size_id, entry_id], rfl⟩

theorem length_take_entries (enough : n ≤ entries.length) : (entries.take n).length = n := by
  rw [length_take, Nat.min_eq_left enough]

theorem tableTag_eq_attr (enough : n ≤ entries.length) :
    tableTag n = xmlSetPppProfileAttr (ascii "pppPro") (entries.take n) := by
  rw [tableTag, xmlSetPppProfileAttr, if_pos rfl, length_take_entries enough]

theorem entries_ne_nil (pos : 0 < n) (enough : n ≤ entries.length) :
    xmlSetPppProfileAttr (ascii "pppProEntry") (entries.take n) ≠ [] := by
  rw [xmlSetPppProfileAttr, if_neg (by decide), length_take_entries enough, if_pos (by omega)]
  intro none
  exact absurd (append_eq_nil_iff.mp none).2 (by decide)

theorem setObjNode_size {object : PsiObject} (id : object.id = 1)
    (value : ∃ value, object.value = some value ∧ uint16Of value = n) (file : List UInt8) :
    xmlSetPppProfileObjNode table stale file object = file ++ tableTag n := by
  obtain ⟨value, stored, rfl⟩ := value
  simp only [xmlSetPppProfileObjNode, stored, if_pos id]

theorem setObjNode_entry {object : PsiObject} (id : object.id = 2)
    (value : ∃ value, object.value = some value ∧ table value = entries) (file : List UInt8) :
    xmlSetPppProfileObjNode table stale file object =
      file ++ xmlSetPppProfileAttr (ascii "pppProEntry")
        (entries.take (xmlGetTableSize stale file).toNat) := by
  obtain ⟨value, stored, rfl⟩ := value
  have other : ¬ object.id = 1 := by
    rw [id]
    decide
  simp only [xmlSetPppProfileObjNode, stored, if_neg other, if_pos id]

theorem foldl_setObjNode (has : TableObjects table objects n entries) {before : List UInt8}
    (some : 3 ≤ before.length) :
    objects.foldl (xmlSetPppProfileObjNode table stale)
        (before ++ fprintf "<%s>\n" [pppProfileName.1]) =
      before ++ fprintf "<%s>\n" [pppProfileName.1] ++ (tableTag n ++
        if SizeFirst objects then xmlSetPppProfileAttr (ascii "pppProEntry") (entries.take n)
        else []) := by
  obtain ⟨size, entry, ⟨size_id, size_value⟩, ⟨entry_id, entry_value⟩, order⟩ := has.order
  have small : n < 10 ^ 5 := by
    obtain ⟨value, -, rfl⟩ := size_value
    exact uint16Of_lt value
  have none := xmlGetTableSize_appTag stale before some
  rw [foldl_setObjNode_filter]
  rcases order with ⟨first, pair⟩ | ⟨second, pair⟩
  · rw [if_pos first, pair, foldl_cons, foldl_cons, foldl_nil,
      setObjNode_size size_id size_value, setObjNode_entry entry_id entry_value]
    rcases Nat.eq_zero_or_pos n with rfl | pos
    · rw [show tableTag 0 = [] from rfl, append_nil, none]
      rfl
    · rw [xmlGetTableSize_tableTag pos small, Int.toNat_natCast, append_assoc]
  · rw [if_neg second, pair, foldl_cons, foldl_cons, foldl_nil,
      setObjNode_entry entry_id entry_value, setObjNode_size size_id size_value, none]
    simp [xmlSetPppProfileAttr]

theorem writeOutputs_appToXml (some : sizeObjs objects ≠ 0)
    (setObjNode : List UInt8 → PsiObject → List UInt8) (file : List UInt8) :
    writeOutputs setObjNode file (appToXml pppProfileName objects) =
      objects.foldl setObjNode (file ++ fprintf "<%s>\n" [pppProfileName.1]) ++
        fprintf "</%s>\n" [pppProfileName.1] := by
  rw [appToXml, if_neg some, writeOutputs, foldl_append, foldl_append, foldl_map]
  rfl

/-- **The application is written as one table with its entries exactly when the table is empty, or
its size comes before its entries and the objects do not come to 0 in 16 bits.** -/
theorem appToXml_emits_iff (stale before : List UInt8) {objects : List PsiObject} {n : Nat}
    {entries : List ProfileInfo} (has : TableObjects table objects n entries) :
    ∃ emitted, writeOutputs (xmlSetPppProfileObjNode table stale)
        (fprintf "<%s>\n" [ascii "psitree"] ++ before) (appToXml pppProfileName objects) =
        fprintf "<%s>\n" [ascii "psitree"] ++ before ++ emitted ∧
      (Emits n entries emitted ↔
        n = 0 ∨ SizeFirst objects ∧ objectsSize objects % 2 ^ 16 ≠ 0) := by
  have long : 3 ≤ (fprintf "<%s>\n" [ascii "psitree"] ++ before).length := by
    rw [length_append]
    exact Nat.le_add_right_of_le (by decide)
  by_cases zero : sizeObjs objects = 0
  · refine ⟨[], ?_, ?_⟩
    · rw [appToXml, if_pos zero, append_nil]
      rfl
    · have multiple := (sizeObjs_eq_zero_iff objects).mp zero
      constructor
      · rintro (text | ⟨empty, -⟩)
        · exact absurd text.symm (cons_ne_nil _ _)
        · exact Or.inl empty
      · rintro (empty | ⟨-, other⟩)
        · exact Or.inr ⟨empty, rfl⟩
        · exact absurd multiple other
  · have other := mt (sizeObjs_eq_zero_iff objects).mpr zero
    refine ⟨toXml pppProfileName.1 (tableTag n ++ if SizeFirst objects then
      xmlSetPppProfileAttr (ascii "pppProEntry") (entries.take n) else []), ?_, ?_⟩
    · rw [writeOutputs_appToXml zero, foldl_setObjNode has long, toXml]
      simp only [append_assoc]
    · rw [tableTag_eq_attr has.enough]
      by_cases first : SizeFirst objects
      · rw [if_pos first]
        exact iff_of_true (Or.inl rfl) (Or.inr ⟨first, other⟩)
      · rw [if_neg first, append_nil]
        constructor
        · rintro (same | ⟨empty, -⟩)
          · by_contra wrong
            have pos : 0 < n := Nat.pos_of_ne_zero fun empty => wrong (Or.inl empty)
            have lengths := congrArg List.length same
            have some := length_pos_of_ne_nil (entries_ne_nil pos has.enough)
            simp only [toXml, length_append] at lengths
            omega
          · exact Or.inl empty
        · rintro (rfl | ⟨order, -⟩)
          · exact Or.inl (by simp [xmlSetPppProfileAttr])
          · exact absurd order first

def someProfile : ProfileInfo :=
  ⟨ascii "HSPA", ascii "user", ascii "secret", ascii "*99#", 0, 1, ascii "0.0.0.0",
    ascii "0.0.0.0", 1, ascii "internet"⟩

def sizeObject : PsiObject := ⟨1, 2, some [0, 1]⟩

def entryObject : PsiObject := ⟨2, 732, some (replicate 732 0)⟩

/-- The size and the entries of a table with one profile. -/
theorem appToXml_emits_iff_oneProfile :
    ∃ emitted, writeOutputs (xmlSetPppProfileObjNode (fun _ => [someProfile]) [])
        (fprintf "<%s>\n" [ascii "psitree"] ++ [])
        (appToXml pppProfileName [sizeObject, entryObject]) =
        fprintf "<%s>\n" [ascii "psitree"] ++ [] ++ emitted ∧
      (Emits 1 [someProfile] emitted ↔
        1 = 0 ∨ SizeFirst [sizeObject, entryObject] ∧
          objectsSize [sizeObject, entryObject] % 2 ^ 16 ≠ 0) :=
  appToXml_emits_iff [] []
    ⟨⟨sizeObject, by simp, rfl, [0, 1], rfl, rfl⟩,
      ⟨entryObject, by simp, rfl, replicate 732 0, rfl, rfl⟩, le_rfl, by decide⟩

/-- In the other order the table is opened and not closed, and the entry is missing. -/
theorem appToXml_entries_first :
    TableObjects (fun _ => [someProfile]) [entryObject, sizeObject] 1 [someProfile] ∧
      writeOutputs (xmlSetPppProfileObjNode (fun _ => [someProfile]) [])
          (fprintf "<%s>\n" [ascii "psitree"]) (appToXml pppProfileName [entryObject, sizeObject]) =
        fprintf "<%s>\n" [ascii "psitree"] ++
          ascii "<PPPProfile>\n<pppPro tableSize=\"1\">\n</PPPProfile>\n" ∧
      ¬ Emits 1 [someProfile]
        (ascii "<PPPProfile>\n<pppPro tableSize=\"1\">\n</PPPProfile>\n") := by
  refine ⟨⟨⟨sizeObject, by simp, rfl, [0, 1], rfl, rfl⟩,
    ⟨entryObject, by simp, rfl, replicate 732 0, rfl, rfl⟩, le_rfl, by decide⟩, ?_, ?_⟩
  · decide +kernel
  · rw [Emits]
    decide +kernel

end EchoLife.Psi
