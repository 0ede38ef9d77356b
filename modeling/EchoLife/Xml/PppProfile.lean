import EchoLife.Lib.ByteStore
import EchoLife.Xml.Parse

/-!
# Settings, and the PPP profiles

`Settings` is what a configuration document sets: the objects of the configuration store, and the
HSPA parameters that are kept in flash.

`pppProfileItem` has the functions that read the PPP profiles of a document, without the writes of
HSPA parameters that reading an entry has as well.
-/

namespace EchoLife.Xml

open TextSearch ByteStore

/-! ## Settings -/

inductive HspaParameter
  | apn
  | userName
  | pwd
  deriving Repr, DecidableEq

/-- The applications and objects of the configuration store, the parameters that the `HspaGet`
functions return, and the flag of `BcmDb_setEncodePasswordInfo`. -/
structure Settings where
  apps : List UInt8 → Option (UInt16 → Option (List UInt8))
  hspa : HspaParameter → List UInt8
  encodePassword : Bool

/-- What the functions for the objects work on: the settings, the object that is being read, and
`tableSize` and `tableIndex` of `xmlState`. -/
structure World (R : Type) where
  settings : Settings
  psiValue : Option (List UInt8)
  tableSize : Int
  tableIndex : Int
  rest : R

variable {R : Type}

namespace Settings

def appOpen (s : Settings) (appId : List UInt8) : Settings :=
  if (s.apps appId).isSome then s
  else { s with apps := Function.update s.apps appId (some fun _ => none) }

def objStore (s : Settings) (appId : List UInt8) (objectId : UInt16) (value : List UInt8) :
    Settings :=
  { s with
    apps := Function.update s.apps appId
      ((s.apps appId).map fun objects => Function.update objects objectId (some value)) }

def hspaSet (s : Settings) (parameter : HspaParameter) (value : List UInt8) : Settings :=
  if value.length ≤ 64 then { s with hspa := Function.update s.hspa parameter value } else s

end Settings

/-! ## Checks of values -/

def validateLength (objValue : List UInt8) (max : Nat) : Bool := objValue.length < max

def validateNumber (objValue : List UInt8) : Bool :=
  let digits := if objValue.head? = some 45 then objValue.tail else objValue
  digits ≠ [] && digits.all fun c => 48 ≤ c && c ≤ 57

def decimal (digits : List UInt8) : Nat := digits.foldl (fun n c => 10 * n + (c.toNat - 48)) 0

def atoi (text : List UInt8) : Int :=
  let black := text.dropWhile fun c => c = 32 || (9 ≤ c && c ≤ 13)
  let digits := if black.head? = some 43 ∨ black.head? = some 45 then black.tail else black
  let number := decimal (digits.takeWhile fun c => 48 ≤ c && c ≤ 57)
  if black.head? = some 45 then -number else number

def validateRange (objValue : List UInt8) (min max : Int) : Bool :=
  validateNumber objValue && (min ≤ atoi objValue && atoi objValue ≤ max)

def validateIpAddress (objValue : List UInt8) : Bool :=
  let tokens := ((objValue.take 19).splitOn 46).filter (· ≠ [])
  4 ≤ tokens.length && (tokens.take 4).all fun token => validateRange token 0 255

/-! ## PPP profiles -/

def word (n : Int) : List UInt8 :=
  [24, 16, 8, 0].map fun shift => (n / 2 ^ shift % 256).toNat.toUInt8

def padded (size : Nat) (text : List UInt8) : List UInt8 :=
  (text ++ List.replicate size 0).take size

def profileInfo (s : Settings) : List UInt8 :=
  List.replicate 48 0 ++ padded 68 (s.hspa .apn) ++ List.replicate 112 0 ++
    padded 240 (s.hspa .pwd) ++ padded 264 (s.hspa .userName)

def profileSize : Nat := 732

def xmlGetPppProfileAttr (attrName attrValue : List UInt8) : Handler (World R) :=
  fun verify _ w =>
    if (ascii "tableSize").isPrefixOf attrName then
      if verify = true ∧ validateRange attrValue 0 16 = false then (true, w)
      else
        (false, { w with
          tableIndex := 0
          tableSize := atoi attrValue
          psiValue :=
            some (List.replicate (atoi attrValue).toNat (profileInfo w.settings)).flatten })
    else (false, w)

def xmlEndPppProfileObj : Handler (World R) := fun verify _ w =>
  (verify && w.tableSize ≠ w.tableIndex,
    { w with
      settings :=
        if verify then w.settings
        else
          ((w.settings.appOpen (ascii "PPPProfile")).objStore (ascii "PPPProfile") 1
            ((word w.tableSize).drop 2)).objStore (ascii "PPPProfile") 2 (w.psiValue.getD [])
      psiValue := none
      tableSize := 0
      tableIndex := 0 })

def xmlEndPppProfileEntryObj : Handler (World R) := fun _ _ w =>
  (false, { w with tableIndex := w.tableIndex + 1 })

inductive EntryField
  | refused
  | ignored
  | bytes (offset : Nat) (value : List UInt8)

def profileEntryField (decode : List UInt8 → List UInt8) (verify : Bool)
    (attrName attrValue : List UInt8) : EntryField :=
  let text (offset : Nat) (valid : Bool) (value : List UInt8) : EntryField :=
    if verify && !valid then .refused else .bytes offset (value ++ [0])
  if attrName = ascii "ProName" then text 16 (validateLength attrValue 264) attrValue
  else if attrName = ascii "UserName" then
    text 468 (attrValue = [] || validateLength attrValue 64) attrValue
  else if (ascii "PassWord").isPrefixOf attrName then
    text 228 (validateLength (decode attrValue) 257) (decode attrValue)
  else if attrName = ascii "PhoneNum" then
    text 116 (attrValue = [] || validateLength attrValue 264) attrValue
  else if (ascii "auth").isPrefixOf attrName then .bytes 0 (word (atoi attrValue))
  else if (ascii "autodns").isPrefixOf attrName then .bytes 4 (word (atoi attrValue))
  else if (ascii "preferredDns").isPrefixOf attrName then
    text 196 (validateIpAddress attrValue) attrValue
  else if (ascii "alternateDns").isPrefixOf attrName then
    text 212 (validateIpAddress attrValue) attrValue
  else if (ascii "autoApn").isPrefixOf attrName then .bytes 8 (word (atoi attrValue))
  else if attrName = ascii "acApn" then
    text 48 (attrValue = [] || validateLength attrValue 64) attrValue
  else .ignored

def xmlGetPppProfileEntryAttr (decode : List UInt8 → List UInt8)
    (attrName attrValue : List UInt8) : Handler (World R) := fun verify _ w =>
  match w.psiValue with
  | none => (true, w)
  | some table =>
    if verify = true ∧ w.tableSize ≤ w.tableIndex then (true, w)
    else
      match profileEntryField decode verify attrName attrValue with
      | .refused => (true, w)
      | .ignored => (false, w)
      | .bytes offset value =>
        (false, { w with
          psiValue :=
            some (overwrite table (w.tableIndex.toNat * profileSize + offset) value) })

def pppProfileItem (decode : List UInt8 → List UInt8) : AppItem (World R) where
  appName := ascii "PPPProfile"
  getObjFnc _ objName attrName attrValue :=
    if objName = ascii "pppPro" then xmlGetPppProfileAttr attrName attrValue
    else if objName = ascii "pppProEntry" then xmlGetPppProfileEntryAttr decode attrName attrValue
    else fun _ _ w => (false, w)
  startObjFnc _ _ := fun _ _ w => (false, w)
  endObjFnc _ objName :=
    if objName = ascii "pppPro" then xmlEndPppProfileObj
    else if objName = ascii "pppProEntry" then xmlEndPppProfileEntryObj
    else fun _ _ w => (false, w)

end EchoLife.Xml
