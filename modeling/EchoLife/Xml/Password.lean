import EchoLife.Xml.Base64

/-!
# Buffers for passwords

A password is copied or decoded into a buffer that is allocated for it: of `len` bytes if the
encode-password flag is off, which is one less than the string takes, and of `len * 3 / 4 + 8` bytes
otherwise. A write outside the buffer is an error.

`passwordData_fits` says for every string which settings keep the writes inside: none without the
flag, strings of at most 28 characters where passwords are stored as they are, and strings without
too many equals signs where they are decoded.
-/

namespace EchoLife.Xml.Password

open List ByteStore Base64

/-! ## The source -/

def put (data : List UInt8) (index : Int) (bytes : List UInt8) : Option (List UInt8) :=
  if 0 ≤ index ∧ index + bytes.length ≤ data.length then
    some (overwrite data index.toNat bytes)
  else none

def decodeLoop : (blocks : Nat) → (data : List UInt8) → (pos : Nat) → (src : List UInt8) →
    Option (List UInt8 × Nat × List UInt8)
  | 0, data, pos, src => some (data, pos, src)
  | blocks + 1, data, pos, src => do
    let data ← put data pos (decodeBlock src)
    decodeLoop blocks data (pos + 3) (src.drop 4)

def base64Decode (data src : List UInt8) (rawLength : Int) : Option (List UInt8 × Int) := do
  if src = [] then
    let data ← put data 0 [0]
    return (data, rawLength)
  let length := (src.takeWhile (· ≠ 61)).length
  let equalsTerm := ((src.drop length).takeWhile (· = 61)).length
  let numBlocks := (length + equalsTerm) / 4
  let (data, pos, src) ← decodeLoop (numBlocks - 1) data 0 src
  let data ← put data pos ((decodeBlock src).take (3 - equalsTerm))
  return (data, (numBlocks * 3 : Int) - equalsTerm)

def passwordData (unencrypted encodePassword : Bool) (attrValue : List UInt8) :
    Option (List UInt8) := do
  let len := attrValue.length
  if encodePassword then
    let data := replicate (len * 3 / 4 + 8) 0
    if unencrypted then put data 0 (attrValue ++ [0])
    else
      let (data, dataLen) ← base64Decode data attrValue 0
      put data dataLen [0]
  else
    let data := replicate len 0
    put data 0 (attrValue ++ [0])

structure Config where
  supportSyspwdUnencrypted : Bool
  supportPpppwdUnencrypted : Bool
  deriving Repr, DecidableEq

def xmlGetSysPasswordAttr (config : Config) (encodePassword : Bool) (attrValue : List UInt8) :
    Option (List UInt8) :=
  passwordData config.supportSyspwdUnencrypted encodePassword attrValue

def xmlGetPppProfileEntryAttr (config : Config) (encodePassword : Bool) (attrValue : List UInt8) :
    Option (List UInt8) :=
  passwordData config.supportPpppwdUnencrypted encodePassword attrValue

/-! ## What fits -/

theorem put_isSome {data bytes : List UInt8} {index : Int} :
    (put data index bytes).isSome ↔ 0 ≤ index ∧ index + bytes.length ≤ data.length := by
  rw [put]
  split
  next inside => exact ⟨fun _ => inside, fun _ => rfl⟩
  next outside => exact ⟨fun some => absurd some (by simp), fun inside => absurd inside outside⟩

theorem put_inside {data bytes : List UInt8} {pos : Nat}
    (inside : pos + bytes.length ≤ data.length) :
    ∃ data', put data pos bytes = some data' ∧ data'.length = data.length := by
  refine ⟨overwrite data pos bytes, ?_, length_overwrite inside⟩
  rw [put, if_pos ⟨by omega, by omega⟩, Int.toNat_natCast]

theorem length_decodeBlock (src : List UInt8) : (decodeBlock src).length = 3 := rfl

theorem decodeLoop_inside {blocks : Nat} {data src : List UInt8} {pos : Nat}
    (inside : pos + 3 * blocks ≤ data.length) :
    ∃ data' src', decodeLoop blocks data pos src = some (data', pos + 3 * blocks, src') ∧
      data'.length = data.length := by
  induction blocks generalizing data pos src with
  | zero => exact ⟨data, src, rfl, rfl⟩
  | succ blocks ih =>
    obtain ⟨next, step, length⟩ := @put_inside data (decodeBlock src) pos
      (by rw [length_decodeBlock]; omega)
    obtain ⟨data', src', rest, total⟩ := @ih next (src.drop 4) (pos + 3) (by omega)
    refine ⟨data', src', ?_, total.trans length⟩
    rw [decodeLoop, step, Option.bind_eq_bind, Option.bind_some, rest, Nat.mul_succ]
    congr 3
    omega

def parts (value : List UInt8) : Nat × Nat :=
  ((value.takeWhile (· ≠ 61)).length,
    ((value.drop (value.takeWhile (· ≠ 61)).length).takeWhile (· = 61)).length)

theorem parts_le (value : List UInt8) : (parts value).1 + (parts value).2 ≤ value.length := by
  have first := (takeWhile_sublist (p := (· ≠ 61)) (l := value)).length_le
  have second := (takeWhile_sublist (p := (· = 61))
    (l := value.drop (value.takeWhile (· ≠ 61)).length)).length_le
  rw [length_drop] at second
  simp only [parts]
  omega

theorem base64Decode_inside (value : List UInt8) :
    ∃ data dataLen, base64Decode (.replicate (value.length * 3 / 4 + 8) 0) value 0 =
        some (data, dataLen) ∧ data.length = value.length * 3 / 4 + 8 ∧
      dataLen = (((parts value).1 + (parts value).2) / 4 : Nat) * 3 - (parts value).2 := by
  have whole := parts_le value
  have size : (replicate (value.length * 3 / 4 + 8) (0 : UInt8)).length =
    value.length * 3 / 4 + 8 := length_replicate
  by_cases empty : value = []
  · subst empty
    exact ⟨_, _, rfl, rfl, rfl⟩
  · obtain ⟨data, src, loop, length⟩ := @decodeLoop_inside
      (((parts value).1 + (parts value).2) / 4 - 1) _ value 0 (by rw [size]; omega)
    have short : ((decodeBlock src).take (3 - (parts value).2)).length ≤ 3 :=
      length_take_le' ..
    obtain ⟨data', last, length'⟩ := @put_inside data
      ((decodeBlock src).take (3 - (parts value).2))
      (0 + 3 * (((parts value).1 + (parts value).2) / 4 - 1)) (by rw [length, size]; omega)
    refine ⟨data', _, ?_, length'.trans (length.trans size), rfl⟩
    simp only [parts] at loop last
    simp only [base64Decode, if_neg empty, loop, Option.bind_eq_bind, Option.bind_some, last]
    rfl

/-- **Which passwords fit into their buffers.** -/
theorem passwordData_fits (config : Config) (encodePassword : Bool) (value : List UInt8) :
    ((xmlGetSysPasswordAttr config encodePassword value).isSome ↔ encodePassword = true ∧
      if config.supportSyspwdUnencrypted then value.length ≤ 28
      else (parts value).2 ≤ ((parts value).1 + (parts value).2) / 4 * 3) ∧
    ((xmlGetPppProfileEntryAttr config encodePassword value).isSome ↔ encodePassword = true ∧
      if config.supportPpppwdUnencrypted then value.length ≤ 28
      else (parts value).2 ≤ ((parts value).1 + (parts value).2) / 4 * 3) := by
  have fits (unencrypted : Bool) : (passwordData unencrypted encodePassword value).isSome ↔
      encodePassword = true ∧ if unencrypted then value.length ≤ 28
        else (parts value).2 ≤ ((parts value).1 + (parts value).2) / 4 * 3 := by
    cases encodePassword with
    | false =>
      rw [passwordData, if_neg Bool.false_ne_true, put_isSome, length_append, length_replicate]
      simp
    | true =>
      rw [passwordData, if_pos rfl]
      cases unencrypted with
      | true =>
        rw [if_pos rfl, put_isSome, length_append, length_replicate, length_singleton]
        simp
        omega
      | false =>
        obtain ⟨data, dataLen, decoded, length, value_eq⟩ := base64Decode_inside value
        have whole := parts_le value
        simp only [decoded, Bool.false_eq_true, if_false, Option.bind_eq_bind, Option.bind_some,
          put_isSome, length, value_eq, length_singleton, true_and]
        omega
  exact ⟨fits _, fits _⟩

/-- **Passwords that overflow their buffers**: the empty one if the flag is off, one of 29
characters, and a single equals sign, which ends at index -1. -/
theorem password_overflows :
    xmlGetSysPasswordAttr ⟨true, true⟩ false [] = none ∧
    xmlGetPppProfileEntryAttr ⟨true, true⟩ true (replicate 29 97) = none ∧
    xmlGetSysPasswordAttr ⟨false, false⟩ true [61] = none := by
  decide +kernel

end EchoLife.Xml.Password
