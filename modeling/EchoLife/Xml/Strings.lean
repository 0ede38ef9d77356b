import EchoLife.Xml.Attributes
import EchoLife.Xml.PppProfile

/-!
# Strings that are saved and loaded

`xmlSetStrObjAttr` prints a user name as it is. `userName_reads_iff` says that the parser reads it
back exactly if it has no quote in it.
-/

namespace EchoLife.Xml

open List TextSearch

/-! ## User names -/

def ifcLargeLen : Nat := 264

def validateUserName (objValue : List UInt8) : Bool := validateLength objValue 16

def passwordObjs : List (List UInt8) :=
  [ascii "sysPassword", ascii "sptPassword", ascii "usrPassword"]

def userNameObjs : List (List UInt8) :=
  [ascii "sysUserName", ascii "sptUserName", ascii "usrUserName"]

local instance lawfulText : LawfulBEq (List UInt8) := instLawfulBEq

/-- The text that `xmlSetStrObjAttr` prints for an object of `length` bytes, or nothing if the
object is larger than the buffer for it. -/
def xmlSetStrObjAttr (name value : Option (List UInt8)) : Option (List UInt8) :=
  match name, value with
  | some name, some value =>
    if value.length < ifcLargeLen then
      let str := value.takeWhile (· ≠ 0)
      some (fprintf "<%s value=\"%s\"/>\n"
        [name, if name ∈ passwordObjs then base64Encode str else str])
    else none
  | _, _ => some []

def Event.ofTag : Event → Bool
  | .tagBegin _ | .attributeBegin _ | .attributeValue _ => true
  | .data _ | .tagEnd _ => false

theorem userNameObj_plain : ∀ name ∈ userNameObjs,
    name ∉ passwordObjs ∧ name ≠ [] ∧ ∀ c ∈ name, isDelimiter c = false := by
  decide +kernel

theorem xmlSetStrObjAttr_userName {name s : List UInt8} (user : name ∈ userNameObjs)
    (short : s.length < ifcLargeLen) (string : 0 ∉ s) :
    xmlSetStrObjAttr (some name) (some s)
      = some (60 :: (name ++ (Field.of 's' "value").print s [47, 62, 10])) := by
  have whole : s.takeWhile (· ≠ 0) = s := by
    rw [takeWhile_eq_self_iff]
    intro c mem
    exact decide_eq_true (ne_of_mem_of_not_mem mem string)
  simp only [xmlSetStrObjAttr, if_pos short, if_neg (userNameObj_plain name user).1, whole]
  rfl

/-- **A user name is read back exactly if it has no quote in it.** -/
theorem userName_reads_iff {name s : List UInt8} (user : name ∈ userNameObjs)
    (valid : validateUserName s = true) (string : 0 ∉ s) :
    (∃ file, xmlSetStrObjAttr (some name) (some s) = some file ∧
        (nxmlWrite nxmlOpen file).1.filter Event.ofTag
          = [.tagBegin name, .attributeBegin (ascii "value"), .attributeValue s])
      ↔ 34 ∉ s := by
  obtain ⟨-, named, plain⟩ := userNameObj_plain name user
  have short : s.length < ifcLargeLen := Nat.lt_trans (of_decide_eq_true valid) (by decide)
  have reads : ∀ (value rest : List UInt8), 34 ∉ value →
      nxmlWrite nxmlOpen (60 :: (name ++ (Field.of 's' "value").print value rest))
        = after [.tagBegin name, .attributeBegin (ascii "value"), .attributeValue value]
            (nxmlWrite (fresh .attrName) rest) := by
    intro value rest unquoted
    have reads := Field.Plain.reads (f := Field.of 's' "value") (by decide +kernel) unquoted
    rw [← nil_append rest, ← Field.print_append]
    exact nxmlWrite_element named plain rfl reads rest
  simp only [xmlSetStrObjAttr_userName user short string, Option.some.injEq,
    exists_eq_left']
  constructor
  · intro all quoted
    -- the value is read up to the first quote
    obtain ⟨value, rest, rfl, unquoted⟩ := eq_append_cons_of_mem quoted
    have cut : (Field.of 's' "value").print (value ++ 34 :: rest) [47, 62, 10]
        = (Field.of 's' "value").print value (rest ++ [34, 47, 62, 10]) := by
      simp [Field.print]
    rw [cut, reads value _ unquoted] at all
    have third := congrArg (fun events => events[2]?) all
    change some (Event.attributeValue value) = some (.attributeValue (value ++ 34 :: rest)) at third
    simp at third
  · intro unquoted
    rw [reads s _ unquoted, nxmlWrite_close]
    rfl

theorem userName_reads_admin :
    ∃ file, xmlSetStrObjAttr (some (ascii "sysUserName")) (some (ascii "a<b>/ =")) = some file ∧
      (nxmlWrite nxmlOpen file).1.filter Event.ofTag
        = [.tagBegin (ascii "sysUserName"), .attributeBegin (ascii "value"),
            .attributeValue (ascii "a<b>/ =")] :=
  (userName_reads_iff (by decide) (by decide) (by decide)).mpr (by decide)

/-- The user name `a" b="c` becomes two attributes. -/
theorem userName_adds_attribute :
    validateUserName (ascii "a\" b=\"c") = true ∧
      (xmlSetStrObjAttr (some (ascii "sysUserName")) (some (ascii "a\" b=\"c"))).map
          (fun file => (nxmlWrite nxmlOpen file).1.filter Event.ofTag)
        = some [.tagBegin (ascii "sysUserName"), .attributeBegin (ascii "value"),
            .attributeValue (ascii "a"), .attributeBegin (ascii "b"),
            .attributeValue (ascii "c")] := by
  decide +kernel

end EchoLife.Xml
