import EchoLife.Lib.ByteStore
import EchoLife.Xml.Attributes

/-!
# Base64 in memory

The encoder allocates its output and prints one group of four characters after the other, each with
the NUL of `sprintf`. The decoder counts the characters and the equals signs at the end, decodes
all groups but the last one as they are, and copies what is needed of the last one.

`base64_roundTrip` says that the encoder stays inside what it allocated, and that the decoder gives
the bytes and their number back.
-/

namespace EchoLife.Xml.Base64

open List TextSearch ByteStore

/-! ## The encoder -/

structure Write where
  offset : Nat
  bytes : List UInt8

def encodeBlock (ibuf₀ ibuf₁ ibuf₂ : UInt8) (inputparts : Nat) : List UInt8 :=
  let obuf₀ := (ibuf₀ &&& 0xFC) >>> 2
  let obuf₁ := ((ibuf₀ &&& 0x03) <<< 4) ||| ((ibuf₁ &&& 0xF0) >>> 4)
  let obuf₂ := ((ibuf₁ &&& 0x0F) <<< 2) ||| ((ibuf₂ &&& 0xC0) >>> 6)
  let obuf₃ := ibuf₂ &&& 0x3F
  match inputparts with
  | 1 => [base64Char obuf₀, base64Char obuf₁, 61, 61]
  | 2 => [base64Char obuf₀, base64Char obuf₁, base64Char obuf₂, 61]
  | _ => [base64Char obuf₀, base64Char obuf₁, base64Char obuf₂, base64Char obuf₃]

def encodeLoop : (indata : List UInt8) → (output : Nat) → List Write
  | [], output => [⟨output, [0]⟩]
  | [a], output => [⟨output, encodeBlock a 0 0 1 ++ [0]⟩, ⟨output + 4, [0]⟩]
  | [a, b], output => [⟨output, encodeBlock a b 0 2 ++ [0]⟩, ⟨output + 4, [0]⟩]
  | a :: b :: c :: indata, output =>
    ⟨output, encodeBlock a b c 3 ++ [0]⟩ :: encodeLoop indata (output + 4)

structure Encoded where
  allocated : Nat
  writes : List Write

def Encoded.output (encoded : Encoded) : List UInt8 :=
  encoded.writes.foldl (fun output write => overwrite output write.offset write.bytes)
    (replicate encoded.allocated 0)

def string (memory : List UInt8) : List UInt8 := memory.takeWhile (· ≠ 0)

def base64Encode (available : Bool) (inp : List UInt8) (insize : Nat) : Option Encoded :=
  let insize := if insize = 0 then (string inp).length else insize
  if available then
    some { allocated := insize * 4 / 3 + 4, writes := encodeLoop (inp.take insize) 0 }
  else none

/-! ## The decoder -/

def decodeChar (c : UInt8) : Option UInt32 :=
  if 65 ≤ c ∧ c ≤ 90 then some (c - 65).toUInt32
  else if 97 ≤ c ∧ c ≤ 122 then some (c - 97 + 26).toUInt32
  else if 48 ≤ c ∧ c ≤ 57 then some (c - 48 + 52).toUInt32
  else if c = 43 then some 62
  else if c = 47 then some 63
  else if c = 61 then some 0
  else none

def decodeBlock (src : List UInt8) : List UInt8 :=
  let x : UInt32 := (src.take 4).foldl (fun x c =>
    match decodeChar c with
    | some bits => (x <<< 6) + bits
    | none => x) 0
  [((x >>> 16) &&& 255).toUInt8, ((x >>> 8) &&& 255).toUInt8, (x &&& 255).toUInt8]

def decodeLoop : (blocks : Nat) → (dest : Nat → UInt8) → (pos : Nat) → (src : List UInt8) →
    (Nat → UInt8) × Nat × List UInt8
  | 0, dest, pos, src => (dest, pos, src)
  | blocks + 1, dest, pos, src =>
    decodeLoop blocks (store dest pos (decodeBlock src)) (pos + 3) (src.drop 4)

def base64Decode (dest : Nat → UInt8) (src : List UInt8) : (Nat → UInt8) × Option Int :=
  if src = [] then (store dest 0 [0], none)
  else
    let length := (src.takeWhile (· ≠ 61)).length
    let equalsTerm := ((src.drop length).takeWhile (· = 61)).length
    let numBlocks := (length + equalsTerm) / 4
    let (dest, pos, src) := decodeLoop (numBlocks - 1) dest 0 src
    (store dest pos ((decodeBlock src).take (3 - equalsTerm)),
      some ((numBlocks * 3 : Int) - equalsTerm))

/-! ## Characters -/

section Characters

variable (a b c : UInt8)

theorem toNat_masks :
    ((a &&& 0xFC) >>> 2).toNat = a.toNat / 4 ∧
    ((a &&& 0x03) <<< 4).toNat = 2 ^ 4 * (a.toNat % 4) ∧
    ((a &&& 0xF0) >>> 4).toNat = a.toNat / 16 ∧
    ((a &&& 0x0F) <<< 2).toNat = 2 ^ 2 * (a.toNat % 16) ∧
    ((a &&& 0xC0) >>> 6).toNat = a.toNat / 64 ∧
    (a &&& 0x3F).toNat = a.toNat % 64 := by
  have all : ∀ v : BitVec 8,
      ((UInt8.ofBitVec v &&& 0xFC) >>> 2).toNat = v.toNat / 4 ∧
      ((UInt8.ofBitVec v &&& 0x03) <<< 4).toNat = 2 ^ 4 * (v.toNat % 4) ∧
      ((UInt8.ofBitVec v &&& 0xF0) >>> 4).toNat = v.toNat / 16 ∧
      ((UInt8.ofBitVec v &&& 0x0F) <<< 2).toNat = 2 ^ 2 * (v.toNat % 16) ∧
      ((UInt8.ofBitVec v &&& 0xC0) >>> 6).toNat = v.toNat / 64 ∧
      (UInt8.ofBitVec v &&& 0x3F).toNat = v.toNat % 64 := by
    decide +kernel
  exact all a.toBitVec

theorem toNat_or {u v : UInt8} {i k : Nat} (high : u.toNat = 2 ^ i * k) (low : v.toNat < 2 ^ i) :
    (u ||| v).toNat = u.toNat + v.toNat := by
  rw [UInt8.toNat_or, high, Nat.two_pow_add_eq_or_of_lt low]

theorem toNat_second : (((a &&& 0x03) <<< 4) ||| ((b &&& 0xF0) >>> 4)).toNat =
    2 ^ 4 * (a.toNat % 4) + b.toNat / 16 := by
  obtain ⟨-, high, -⟩ := toNat_masks a
  obtain ⟨-, -, low, -⟩ := toNat_masks b
  have := b.toNat_lt
  rw [toNat_or high (by omega), high, low]

theorem toNat_third : (((b &&& 0x0F) <<< 2) ||| ((c &&& 0xC0) >>> 6)).toNat =
    2 ^ 2 * (b.toNat % 16) + c.toNat / 64 := by
  obtain ⟨-, -, -, high, -⟩ := toNat_masks b
  obtain ⟨-, -, -, -, low, -⟩ := toNat_masks c
  have := c.toNat_lt
  rw [toNat_or high (by omega), high, low]

end Characters

theorem base64Char_spec {index : UInt8} (small : index.toNat < 64) :
    decodeChar (base64Char index) = some (UInt32.ofNat index.toNat) ∧ base64Char index ≠ 61 ∧
      base64Char index ≠ 0 := by
  have all : ∀ i : Fin 64, decodeChar (table64.getD i 0) = some (UInt32.ofNat i) ∧
      table64.getD i 0 ≠ 61 ∧ table64.getD i 0 ≠ 0 := by
    decide +kernel
  exact all ⟨index.toNat, small⟩

theorem shift_add (x v : Nat) :
    (UInt32.ofNat x <<< 6) + UInt32.ofNat v = UInt32.ofNat (64 * x + v) := by
  apply UInt32.toNat_inj.mp
  simp only [UInt32.toNat_add, UInt32.toNat_shiftLeft, UInt32.toNat_ofNat', Nat.shiftLeft_eq]
  simp
  omega

theorem octet_eq (x : UInt32) : (x &&& 255).toUInt8 = UInt8.ofNat x.toNat := by
  apply UInt8.toNat_inj.mp
  have mask (n : Nat) : n &&& 255 = n % 2 ^ 8 := Nat.and_two_pow_sub_one_eq_mod n 8
  simp [mask]

theorem decodeBlock_eq {c₀ c₁ c₂ c₃ : UInt8} {v₀ v₁ v₂ v₃ : Nat}
    (first : decodeChar c₀ = some (UInt32.ofNat v₀))
    (second : decodeChar c₁ = some (UInt32.ofNat v₁))
    (third : decodeChar c₂ = some (UInt32.ofNat v₂))
    (fourth : decodeChar c₃ = some (UInt32.ofNat v₃))
    (small : v₀ < 64 ∧ v₁ < 64 ∧ v₂ < 64 ∧ v₃ < 64) (rest : List UInt8) :
    decodeBlock (c₀ :: c₁ :: c₂ :: c₃ :: rest) =
      [UInt8.ofNat (v₀ * 4 + v₁ / 16), UInt8.ofNat (v₁ * 16 + v₂ / 4),
        UInt8.ofNat (v₂ * 64 + v₃)] := by
  let x := 64 * (64 * (64 * v₀ + v₁) + v₂) + v₃
  have fold : decodeBlock (c₀ :: c₁ :: c₂ :: c₃ :: rest) =
      [((UInt32.ofNat x >>> 16) &&& 255).toUInt8, ((UInt32.ofNat x >>> 8) &&& 255).toUInt8,
        (UInt32.ofNat x &&& 255).toUInt8] := by
    have start : (0 : UInt32) <<< 6 + UInt32.ofNat v₀ = UInt32.ofNat v₀ := by
      simp
    simp only [decodeBlock, take_succ_cons, take_zero, foldl_cons, foldl_nil,
      first, second, third, fourth, start, shift_add, x]
  have value : (UInt32.ofNat x).toNat = x := UInt32.toNat_ofNat_of_lt'
    (show x < 4294967296 by simp only [x]; omega)
  rw [fold, octet_eq, octet_eq, octet_eq, UInt32.toNat_shiftRight, UInt32.toNat_shiftRight, value,
    cons.injEq, cons.injEq, cons.injEq]
  refine ⟨?_, ?_, ?_, rfl⟩
  all_goals
    apply UInt8.toNat_inj.mp
    simp [x]
    omega

/-! ## Blocks -/

structure Stands (char : UInt8) (v : Nat) : Prop where
  bits : decodeChar char = some (UInt32.ofNat v)
  small : v < 64
  not_equals : char ≠ 61
  not_nul : char ≠ 0

theorem Stands.of_index {index : UInt8} {v : Nat} (value : index.toNat = v) (small : v < 64) :
    Stands (base64Char index) v := by
  subst value
  obtain ⟨bits, not_equals, not_nul⟩ := base64Char_spec small
  exact ⟨bits, small, not_equals, not_nul⟩

section Blocks

variable (a b c : UInt8)

theorem stands_first : Stands (base64Char ((a &&& 0xFC) >>> 2)) (a.toNat / 4) := by
  obtain ⟨index, -⟩ := toNat_masks a
  have := a.toNat_lt
  exact .of_index index (by omega)

theorem stands_second : Stands (base64Char (((a &&& 0x03) <<< 4) ||| ((b &&& 0xF0) >>> 4)))
    (2 ^ 4 * (a.toNat % 4) + b.toNat / 16) := by
  have := b.toNat_lt
  exact .of_index (toNat_second a b) (by omega)

theorem stands_third : Stands (base64Char (((b &&& 0x0F) <<< 2) ||| ((c &&& 0xC0) >>> 6)))
    (2 ^ 2 * (b.toNat % 16) + c.toNat / 64) := by
  have := c.toNat_lt
  exact .of_index (toNat_third b c) (by omega)

theorem stands_fourth : Stands (base64Char (c &&& 0x3F)) (c.toNat % 64) := by
  obtain ⟨-, -, -, -, -, index⟩ := toNat_masks c
  exact .of_index index (by omega)

theorem ofNat_eq {a : UInt8} {n : Nat} (value : n % 256 = a.toNat) : UInt8.ofNat n = a := by
  apply UInt8.toNat_inj.mp
  rw [UInt8.toNat_ofNat', ← value]

/-- **A block is decoded to the bytes that it was printed for**, with zeros for those that were not
read. -/
theorem decodeBlock_encodeBlock (inputparts : Nat) (one : inputparts = 1 → b = 0)
    (few : inputparts = 1 ∨ inputparts = 2 → c = 0) (rest : List UInt8) :
    decodeBlock (encodeBlock a b c inputparts ++ rest) = [a, b, c] := by
  have small_a := a.toNat_lt
  have small_b := b.toNat_lt
  have small_c := c.toNat_lt
  have pad : decodeChar 61 = some (UInt32.ofNat 0) := by decide
  have first := stands_first a
  have second := stands_second a b
  have third := stands_third b c
  have fourth := stands_fourth c
  unfold encodeBlock
  split
  next =>
    obtain rfl := one rfl
    obtain rfl := few (.inl rfl)
    refine (decodeBlock_eq first.bits second.bits pad pad
      ⟨first.small, second.small, by simp⟩ rest).trans ?_
    rw [ofNat_eq (a := a) (by omega), ofNat_eq (a := 0) (by simp; omega), ofNat_eq (a := 0) rfl]
  next =>
    obtain rfl := few (.inr rfl)
    refine (decodeBlock_eq first.bits second.bits third.bits pad
      ⟨first.small, second.small, third.small, by simp⟩ rest).trans ?_
    rw [ofNat_eq (a := a) (by omega), ofNat_eq (a := b) (by omega),
      ofNat_eq (a := 0) (by simp; omega)]
  next =>
    refine (decodeBlock_eq first.bits second.bits third.bits fourth.bits
      ⟨first.small, second.small, third.small, fourth.small⟩ rest).trans ?_
    rw [ofNat_eq (a := a) (by omega), ofNat_eq (a := b) (by omega), ofNat_eq (a := c) (by omega)]

end Blocks

/-! ## Texts -/

def blocks (bytes : List UInt8) : Nat := (bytes.length + 2) / 3

def padding (bytes : List UInt8) : Nat := 3 * blocks bytes - bytes.length

theorem text_one (a : UInt8) : Xml.base64Encode [a] = encodeBlock a 0 0 1 := by
  simp [Xml.base64Encode, encodeBlock]

theorem text_two (a b : UInt8) : Xml.base64Encode [a, b] = encodeBlock a b 0 2 := by
  simp [Xml.base64Encode, encodeBlock]

theorem text_cons (a b c : UInt8) (bytes : List UInt8) :
    Xml.base64Encode (a :: b :: c :: bytes) = encodeBlock a b c 3 ++ Xml.base64Encode bytes := rfl

theorem blocks_one (a : UInt8) : blocks [a] = 1 := by
  simp [blocks]

theorem blocks_two (a b : UInt8) : blocks [a, b] = 1 := by
  simp [blocks]

theorem blocks_cons (a b c : UInt8) (bytes : List UInt8) :
    blocks (a :: b :: c :: bytes) = blocks bytes + 1 := by
  simp only [blocks, length_cons]
  omega

theorem padding_one (a : UInt8) : padding [a] = 2 := by
  simp [padding, blocks_one]

theorem padding_two (a b : UInt8) : padding [a, b] = 1 := by
  simp [padding, blocks_two]

theorem padding_cons (a b c : UInt8) (bytes : List UInt8) :
    padding (a :: b :: c :: bytes) = padding bytes := by
  simp only [padding, blocks_cons, length_cons]
  omega

theorem length_encodeBlock (a b c : UInt8) (inputparts : Nat) :
    (encodeBlock a b c inputparts).length = 4 := by
  unfold encodeBlock
  split <;> rfl

theorem length_text (bytes : List UInt8) : (Xml.base64Encode bytes).length = 4 * blocks bytes := by
  induction bytes using Xml.base64Encode.induct with
  | case1 => rfl
  | case2 a => rw [text_one, length_encodeBlock, blocks_one]
  | case3 a b => rw [text_two, length_encodeBlock, blocks_two]
  | case4 a b c bytes ih =>
    rw [text_cons, length_append, length_encodeBlock, ih, blocks_cons]
    omega

theorem text_shape (bytes : List UInt8) :
    ∃ body, Xml.base64Encode bytes = body ++ replicate (padding bytes) 61 ∧
      ∀ char ∈ body, char ≠ 61 ∧ char ≠ 0 := by
  have solid {char : UInt8} {v : Nat} (stands : Stands char v) : char ≠ 61 ∧ char ≠ 0 :=
    ⟨stands.not_equals, stands.not_nul⟩
  induction bytes using Xml.base64Encode.induct with
  | case1 => exact ⟨[], rfl, by simp⟩
  | case2 a =>
    rw [text_one, padding_one]
    refine ⟨[_, _], rfl, ?_⟩
    simp only [forall_mem_cons, not_mem_nil, false_implies, implies_true, and_true]
    exact ⟨solid (stands_first a), solid (stands_second a 0)⟩
  | case3 a b =>
    rw [text_two, padding_two]
    refine ⟨[_, _, _], rfl, ?_⟩
    simp only [forall_mem_cons, not_mem_nil, false_implies, implies_true, and_true]
    exact ⟨solid (stands_first a), solid (stands_second a b), solid (stands_third b 0)⟩
  | case4 a b c bytes ih =>
    obtain ⟨body, text, inside⟩ := ih
    refine ⟨encodeBlock a b c 3 ++ body, ?_, ?_⟩
    · rw [text_cons, text, padding_cons, append_assoc]
    · rw [forall_mem_append]
      refine ⟨?_, inside⟩
      simp only [encodeBlock, forall_mem_cons, not_mem_nil, false_implies, implies_true,
        and_true]
      exact ⟨solid (stands_first a), solid (stands_second a b), solid (stands_third b c),
        solid (stands_fourth c)⟩

/-! ## The encoder -/

theorem encodeLoop_fits (bytes : List UInt8) (output : Nat) :
    ∀ write ∈ encodeLoop bytes output,
      write.offset + write.bytes.length ≤ output + 4 * blocks bytes + 1 := by
  induction bytes using Xml.base64Encode.induct generalizing output with
  | case1 => simp [encodeLoop]
  | case2 a => simp [encodeLoop, blocks_one, length_encodeBlock]
  | case3 a b => simp [encodeLoop, blocks_two, length_encodeBlock]
  | case4 a b c bytes ih =>
    rw [encodeLoop, forall_mem_cons, blocks_cons]
    refine ⟨?_, fun write mem => ?_⟩
    · rw [length_append, length_encodeBlock, length_singleton]
      show output + (4 + 1) ≤ _
      omega
    · have fits := ih (output + 4) write mem
      omega

theorem encodeLoop_output (bytes front rest : List UInt8) (room : 4 * blocks bytes < rest.length) :
    (encodeLoop bytes front.length).foldl
        (fun output write => overwrite output write.offset write.bytes) (front ++ rest) =
      front ++ (Xml.base64Encode bytes ++ 0 :: rest.drop (4 * blocks bytes + 1)) := by
  have nul (front rest : List UInt8) : overwrite (front ++ rest) front.length [0] =
      front ++ 0 :: rest.drop 1 := by
    rw [overwrite_append]
    simp
  have block (front rest : List UInt8) (a b c : UInt8) (inputparts : Nat) :
      overwrite (front ++ rest) front.length (encodeBlock a b c inputparts ++ [0]) =
        front ++ encodeBlock a b c inputparts ++ 0 :: rest.drop 5 := by
    rw [overwrite_append, length_append, length_encodeBlock]
    simp
  have next_front (front : List UInt8) (a b c : UInt8) (inputparts : Nat) :
      front.length + 4 = (front ++ encodeBlock a b c inputparts).length := by
    rw [length_append, length_encodeBlock]
  induction bytes using Xml.base64Encode.induct generalizing front rest with
  | case1 => exact nul front rest
  | case2 a =>
    rw [encodeLoop, foldl_cons, foldl_cons, foldl_nil, block, next_front, nul,
      text_one, blocks_one]
    simp
  | case3 a b =>
    rw [encodeLoop, foldl_cons, foldl_cons, foldl_nil, block, next_front, nul,
      text_two, blocks_two]
    simp
  | case4 a b c bytes ih =>
    rw [blocks_cons] at room ⊢
    rw [encodeLoop, foldl_cons, block, next_front, ih _ _ (by simp; omega), text_cons,
      append_assoc, append_assoc, drop_succ_cons, drop_drop]
    congr 5
    omega

theorem base64Encode_spec {bytes : List UInt8} (nonempty : bytes ≠ []) :
    ∃ encoded, base64Encode true bytes bytes.length = some encoded ∧
      encoded.allocated = bytes.length * 4 / 3 + 4 ∧
      (∀ write ∈ encoded.writes, write.offset + write.bytes.length ≤ encoded.allocated) ∧
      string encoded.output = Xml.base64Encode bytes := by
  have long : bytes.length ≠ 0 := length_pos_iff.mpr nonempty |>.ne'
  have room : 4 * blocks bytes + 1 ≤ bytes.length * 4 / 3 + 4 := by
    rw [blocks]
    omega
  refine ⟨⟨bytes.length * 4 / 3 + 4, encodeLoop bytes 0⟩, ?_, rfl, ?_, ?_⟩
  · simp [base64Encode, long]
  · intro write mem
    have fits := encodeLoop_fits bytes 0 write mem
    rw [Nat.zero_add] at fits
    exact Nat.le_trans fits room
  · have output := encodeLoop_output bytes [] (replicate (bytes.length * 4 / 3 + 4) 0)
      (by rw [length_replicate]; omega)
    rw [length_nil, nil_append, nil_append] at output
    obtain ⟨body, text, inside⟩ := text_shape bytes
    have no_nul : ∀ char ∈ Xml.base64Encode bytes, decide (char ≠ 0) = true := by grind
    rw [string, Encoded.output, output, takeWhile_append_of_pos no_nul]
    simp

/-! ## The decoder -/

/-- **A run of the decoder.** All blocks but the last one are stored as they are, and of the last
one what is not padding. -/
theorem decodeLoop_text {bytes : List UInt8} (nonempty : bytes ≠ []) (dest : Nat → UInt8)
    (pos : Nat) :
    let (dest', pos', src) := decodeLoop (blocks bytes - 1) dest pos (Xml.base64Encode bytes)
    store dest' pos' ((decodeBlock src).take (3 - padding bytes)) = store dest pos bytes := by
  induction bytes using Xml.base64Encode.induct generalizing dest pos with
  | case1 => exact absurd rfl nonempty
  | case2 a =>
    have block := decodeBlock_encodeBlock a 0 0 1 (fun _ => rfl) (fun _ => rfl) []
    rw [append_nil] at block
    rw [blocks_one, padding_one, text_one]
    simp only [Nat.sub_self, decodeLoop, block]
    rfl
  | case3 a b =>
    have block := decodeBlock_encodeBlock a b 0 2 (by simp) (fun _ => rfl) []
    rw [append_nil] at block
    rw [blocks_two, padding_two, text_two]
    simp only [Nat.sub_self, decodeLoop, block]
    rfl
  | case4 a b c bytes ih =>
    have block := decodeBlock_encodeBlock a b c 3 (by simp) (by simp) (Xml.base64Encode bytes)
    rw [blocks_cons, padding_cons, text_cons, Nat.add_sub_cancel]
    by_cases last : bytes = []
    · subst last
      rw [show blocks [] = 0 from rfl, show padding [] = 0 from rfl]
      simp only [decodeLoop, block]
      rfl
    · obtain ⟨more, count⟩ : ∃ more, blocks bytes = more + 1 := by
        have := length_pos_iff.mpr last
        exact Nat.exists_eq_add_one.mpr (by rw [blocks]; omega)
      have behind := ih last (store dest pos [a, b, c]) (pos + 3)
      rw [count, Nat.add_sub_cancel] at behind
      rw [count, decodeLoop, block, drop_left' (length_encodeBlock a b c 3)]
      refine behind.trans ?_
      exact (store_append dest pos [a, b, c] bytes).symm

theorem counts_text (bytes : List UInt8) :
    ((Xml.base64Encode bytes).takeWhile (· ≠ 61)).length + padding bytes = 4 * blocks bytes ∧
      (((Xml.base64Encode bytes).drop
          ((Xml.base64Encode bytes).takeWhile (· ≠ 61)).length).takeWhile
        (· = 61)).length = padding bytes := by
  obtain ⟨body, text, inside⟩ := text_shape bytes
  have no_equals : ∀ char ∈ body, decide (char ≠ 61) = true :=
    fun char mem => decide_eq_true (inside char mem).1
  have front : (Xml.base64Encode bytes).takeWhile (· ≠ 61) = body := by
    rw [text, takeWhile_append_of_pos no_equals]
    simp
  rw [front]
  constructor
  · have long := length_text bytes
    rwa [text, length_append, length_replicate] at long
  · rw [text, drop_left]
    simp

/-- **Decoding what was encoded gives the bytes back**, and the encoder stays inside what it
allocated. -/
theorem base64_roundTrip (bytes : List UInt8) (nonempty : bytes ≠ []) (dest : Nat → UInt8) :
    ∃ encoded, base64Encode true bytes bytes.length = some encoded ∧
      (∀ write ∈ encoded.writes,
        write.offset + write.bytes.length ≤ bytes.length * 4 / 3 + 4) ∧
      (base64Decode dest (string encoded.output)).2 = some (bytes.length : Int) ∧
      load (base64Decode dest (string encoded.output)).1 0 bytes.length = bytes := by
  obtain ⟨encoded, result, allocated, fits, text⟩ := base64Encode_spec nonempty
  refine ⟨encoded, result, allocated ▸ fits, ?_⟩
  obtain ⟨count, equals⟩ := counts_text bytes
  have long := length_text bytes
  have written : Xml.base64Encode bytes ≠ [] := by
    intro empty
    rw [empty, length_nil, blocks] at long
    have := length_pos_iff.mpr nonempty
    omega
  have decoded : base64Decode dest (Xml.base64Encode bytes) =
      (store dest 0 bytes, some (bytes.length : Int)) := by
    have run := decodeLoop_text nonempty dest 0
    rw [base64Decode, if_neg written]
    simp only [equals, count, Nat.mul_div_cancel_left _ (show 0 < 4 by decide)]
    refine Prod.ext run (congrArg some ?_)
    rw [padding, blocks]
    omega
  rw [text, decoded]
  exact ⟨rfl, load_store_self dest 0 bytes⟩

theorem base64_roundTrip_admin :
    ascii "admin" ≠ [] ∧ ∃ encoded, base64Encode true (ascii "admin") 5 = some encoded ∧
      (∀ write ∈ encoded.writes, write.offset + write.bytes.length ≤ 5 * 4 / 3 + 4) ∧
      (base64Decode (fun _ => 0) (string encoded.output)).2 = some 5 ∧
      load (base64Decode (fun _ => 0) (string encoded.output)).1 0 5 = ascii "admin" :=
  ⟨by decide, base64_roundTrip (ascii "admin") (by decide) fun _ => 0⟩

end EchoLife.Xml.Base64
