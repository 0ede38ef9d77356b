import EchoLife.Lib.ByteStore

/-!
# Copying a frame

`FrameDataCopy` copies the bytes of a chain of buffers. It does not compare the rest of the first
buffer with the length asked for, and it goes on by that rest behind every later buffer. So the
copy is right when the later buffers are as long as the rest of the first (`frameDataCopy_copies`).
-/

namespace EchoLife.Dsl

open List ByteStore

/-- The buffers behind the first, with the destination as an offset; `memcpy` of a negative length
does not return. -/
def frameDataCopyLoop (n dataLen : Int) :
    List (List UInt8) → Int → (Nat → UInt8) → Option (Int × (Nat → UInt8))
  | [], pDest, mem => some (pDest, mem)
  | pData :: chain, pDest, mem =>
    let len := if pData.length > dataLen - pDest then dataLen - pDest else pData.length
    if len < 0 then none
    else
      let mem := store mem pDest.toNat (pData.take len.toNat)
      if pDest + n = dataLen then some (pDest + n, mem)
      else frameDataCopyLoop n dataLen chain (pDest + n) mem

def frameDataCopy (pData : List UInt8) (chain : List (List UInt8)) (pSrc dataLen : Nat)
    (mem : Nat → UInt8) : Option (Int × (Nat → UInt8)) :=
  let n : Int := pData.length - pSrc
  if n > 0 then frameDataCopyLoop n dataLen chain n (store mem 0 (pData.drop pSrc))
  else frameDataCopyLoop n dataLen chain 0 mem

/-- The buffers are `n` bytes long up to the one in which the last of `left` bytes is copied. -/
def AllLong (n : Nat) : List (List UInt8) → (left : Nat) → Prop
  | [], _ => True
  | pData :: chain, left =>
    n = left ∧ n ≤ pData.length ∨ n < left ∧ pData.length = n ∧ AllLong n chain (left - n)

theorem frameDataCopyLoop_allLong {n left : Nat} {chain : List (List UInt8)}
    (long : AllLong n chain left) (mem : Nat → UInt8) (copied : List UInt8) :
    frameDataCopyLoop n (copied.length + left : Nat) chain copied.length (store mem 0 copied) =
      some (((copied ++ chain.flatten.take left).length : Int),
        store mem 0 (copied ++ chain.flatten.take left)) := by
  induction chain generalizing left copied with
  | nil => simp [frameDataCopyLoop]
  | cons pData chain ih =>
    have len : (if (pData.length : Int) > (copied.length + left : Nat) - copied.length then
        ((copied.length + left : Nat) : Int) - copied.length else pData.length) =
          (min pData.length left : Nat) := by
      split <;> omega
    have appended (bytes : List UInt8) : store (store mem 0 copied) copied.length bytes =
        store mem 0 (copied ++ bytes) := by
      rw [store_append, Nat.zero_add]
    simp only [frameDataCopyLoop, len, Int.toNat_natCast, appended, flatten_cons]
    rw [if_neg (by omega)]
    rcases long with ⟨rfl, enough⟩ | ⟨more, rfl, rest⟩
    · rw [if_pos (by omega), Nat.min_eq_right enough, take_append_of_le_length enough]
      simp [Nat.min_eq_left enough]
    · rw [if_neg (by omega), Nat.min_eq_left more.le, take_length]
      have goesOn := ih rest (copied ++ pData)
      rw [length_append] at goesOn
      rw [take_append, take_of_length_le more.le, ← append_assoc, ← goesOn]
      congr 1
      omega

/-- **A prefix is copied** when the first buffer has no more bytes than asked for and the later ones
have as many as were copied from it. -/
theorem frameDataCopy_copies (pData : List UInt8) (chain : List (List UInt8))
    {pSrc dataLen : Nat} (inside : pSrc ≤ pData.length) (short : pData.length - pSrc ≤ dataLen)
    (long : AllLong (pData.length - pSrc) chain (dataLen - (pData.length - pSrc)))
    (mem : Nat → UInt8) :
    frameDataCopy pData chain pSrc dataLen mem =
      some (((min dataLen (pData.drop pSrc ++ chain.flatten).length : Nat) : Int),
        store mem 0 ((pData.drop pSrc ++ chain.flatten).take dataLen)) := by
  have n : (pData.length : Int) - pSrc = (pData.length - pSrc : Nat) := by omega
  have loop := frameDataCopyLoop_allLong long mem (pData.drop pSrc)
  have ends : pData.length - pSrc + (dataLen - (pData.length - pSrc)) = dataLen := by omega
  have taken : (pData.drop pSrc ++ chain.flatten).take dataLen =
      pData.drop pSrc ++ chain.flatten.take (dataLen - (pData.length - pSrc)) := by
    rw [take_append, take_of_length_le (by rwa [length_drop]), length_drop]
  rw [← length_take, taken, frameDataCopy, ← loop, length_drop, ends, n]
  split
  · rfl
  next none =>
    have all : pData.length - pSrc = 0 := by omega
    rw [all, drop_eq_nil_of_le (by omega), store_nil]
    rfl

/-- The rest of one buffer is copied as a whole. -/
theorem frameDataCopy_copies_two :
    frameDataCopy [7, 1, 2] [[3, 4], [5, 6, 7]] 1 6 (fun _ => 0) =
      some (((6 : Nat) : Int), store (fun _ => 0) 0 [1, 2, 3, 4, 5, 6]) :=
  frameDataCopy_copies [7, 1, 2] [[3, 4], [5, 6, 7]] (by decide) (by decide)
    (.inr ⟨by decide, rfl, .inl ⟨rfl, by decide⟩⟩) _

/-- Three bytes in two buffers count as four, and of two bytes in one buffer the second is written
although only one is asked for. -/
theorem frameDataCopy_miscounts :
    (frameDataCopy [1, 2] [[3]] 0 3 fun _ => 0).map Prod.fst = some 4 ∧
      (frameDataCopy [1, 2] [] 0 1 fun _ => 0).map (fun r => r.2 1) = some 2 := by
  decide

end EchoLife.Dsl
