import EchoLife.Lib.ByteStore

/-!
# The token list of the scratch pad

The scratch pad is a header and a packed list of tokens: a name of sixteen bytes, a length and the
data, rounded up to four bytes. `kerSysScratchPadSet` counts name and length as bytes in use;
`kerSysScratchPadGet` does not, so that only the contents end its scan. What a scan reads behind
the pad is the list `heap`.
-/

namespace EchoLife.ScratchPad

open List ByteStore

/-! ## Layout -/

def magicNumLen : Nat := 8

def magicNumber : List UInt8 := [0x67, 0x4F, 0x47, 0x6F, 0x42, 0x44, 0x32, 0x30]

def tokenNameLen : Nat := 16

def spVersion : Nat := 1

def spReserved : Nat := 20

def sizeofSpHeader : Nat := 32

def sizeofSpToken : Nat := 20

def intBytes (n : Nat) : List UInt8 :=
  [UInt8.ofNat (n / 2 ^ 24), UInt8.ofNat (n / 2 ^ 16), UInt8.ofNat (n / 2 ^ 8), UInt8.ofNat n]

def readInt (s : List UInt8) : Int :=
  let v : Nat :=
    (s.getD 0 0).toNat * 2 ^ 24 + (s.getD 1 0).toNat * 2 ^ 16 + (s.getD 2 0).toNat * 2 ^ 8 +
    (s.getD 3 0).toNat
  if v < 2 ^ 31 then v else (v : Int) - 2 ^ 32

def round4 (n : Nat) : Nat := (n + 3) / 4 * 4

def spHeader : List UInt8 :=
  magicNumber ++ intBytes spVersion ++ replicate spReserved 0

def spToken (tokenId : List UInt8) (tokenLen : Nat) : List UInt8 :=
  let name := tokenId.take (tokenNameLen - 1)
  name ++ replicate (tokenNameLen - name.length) 0 ++ intBytes tokenLen

/-! ## Reading tokens

A token pointer is the list of bytes from that address on. -/

def tokenLen (s : List UInt8) : Int := readInt (s.drop tokenNameLen)

def skipLen (s : List UInt8) : Nat := round4 (tokenLen s).toNat

def tokenSize (s : List UInt8) : Nat := sizeofSpToken + skipLen s

def strncmpEq : Nat → List UInt8 → List UInt8 → Bool
  | 0, _, _ => true
  | n + 1, a, b =>
    if a.headD 0 ≠ b.headD 0 then false
    else if a.headD 0 = 0 then true
    else strncmpEq n a.tail b.tail

def nameEnds (s : List UInt8) : Bool :=
  (0 : UInt8) ∈ s.take tokenNameLen ∨ s.length < tokenNameLen

def getLoop (spLen : Nat) (tokenId : List UInt8) (s : List UInt8) (usedLen : Nat) :
    Int × List UInt8 :=
  if _valid : s.headD 0 ≠ 0 ∧ 0 < tokenLen s ∧ tokenLen s < spLen ∧ usedLen < spLen then
    if strncmpEq tokenNameLen s tokenId then
      (tokenLen s, (s.drop sizeofSpToken).take (tokenLen s).toNat)
    else getLoop spLen tokenId (s.drop (tokenSize s)) (usedLen + skipLen s)
  else (-1, [])
termination_by spLen - usedLen
decreasing_by
  have : 0 < skipLen s := by
    unfold skipLen round4
    omega
  omega

def usedLoop (spLen : Nat) (s : List UInt8) (usedLen : Nat) : Nat :=
  if _valid : 0x41 ≤ s.headD 0 ∧ s.headD 0 ≤ 0x7A ∧ nameEnds s ∧ 0 < tokenLen s ∧
      tokenLen s < spLen ∧ usedLen < spLen then
    usedLoop spLen (s.drop (tokenSize s)) (usedLen + tokenSize s)
  else usedLen
termination_by spLen - usedLen
decreasing_by
  have : 0 < tokenSize s := Nat.add_pos_left (by decide) _
  omega

def findLoop (tokenId : List UInt8) (usedLen : Nat) (s : List UInt8) (curLen : Nat) : Option Nat :=
  if _inside : curLen < usedLen then
    if strncmpEq tokenNameLen s tokenId then some curLen
    else findLoop tokenId usedLen (s.drop (tokenSize s)) (curLen + tokenSize s)
  else none
termination_by usedLen - curLen
decreasing_by
  have : 0 < tokenSize s := Nat.add_pos_left (by decide) _
  omega

/-! ## Writing tokens -/

def putAtEnd (pBuf : List UInt8) (usedLen : Nat) (token : List UInt8)
    (tokBuf : Option (List UInt8)) : List UInt8 :=
  let pBuf :=
    match tokBuf with
    | some data => overwrite (overwrite pBuf usedLen token) (usedLen + sizeofSpToken) data
    | none => pBuf
  overwrite pBuf 0 spHeader

def shiftDown (spLen : Nat) (pBuf : List UInt8) (curLen next usedLen : Nat) : List UInt8 :=
  let copyLen := usedLen - next
  let pBuf := overwrite pBuf curLen ((pBuf.drop next).take copyLen)
  overwrite pBuf (curLen + copyLen) (replicate (spLen - (curLen + copyLen)) 0)

/-- The token at `curLen` has the id: data of the same length is written over, otherwise the token
is taken out and put at the end. -/
def replaceToken (spLen : Nat) (heap : List UInt8) (curLen usedLen : Nat) (token : List UInt8)
    (tokBuf : Option (List UInt8)) (pBuf : List UInt8) : List UInt8 :=
  let s := (pBuf ++ heap).drop curLen
  if tokBuf.isSome ∧ tokenLen s = (tokBuf.getD []).length then
    overwrite pBuf (curLen + sizeofSpToken) (tokBuf.getD [])
  else
    let pBuf := shiftDown spLen pBuf curLen (curLen + tokenSize s) usedLen
    putAtEnd pBuf (usedLen - tokenSize s) token tokBuf

def padUsed (spLen : Nat) (heap pBuf : List UInt8) : Nat :=
  usedLoop spLen ((pBuf ++ heap).drop sizeofSpHeader) sizeofSpHeader

/-- What `kerSysScratchPadSet` makes of the pad it has read; `none` when it refuses. No data
stands for a null pointer with length zero. -/
def padUpdate (spLen : Nat) (heap : List UInt8) (tokenId : List UInt8)
    (tokBuf : Option (List UInt8)) (pBuf : List UInt8) : Option (List UInt8) :=
  let bufLen := (tokBuf.getD []).length
  let token := spToken tokenId bufLen
  if pBuf.take magicNumLen ≠ magicNumber then
    let pBuf := overwrite (overwrite pBuf 0 spHeader) sizeofSpHeader token
    some (overwrite pBuf (sizeofSpHeader + sizeofSpToken) (tokBuf.getD []))
  else
    let usedLen := padUsed spLen heap pBuf
    if usedLen + bufLen + sizeofSpToken > spLen then none
    else
      match findLoop tokenId usedLen ((pBuf ++ heap).drop sizeofSpHeader) sizeofSpHeader with
      | some curLen => some (replaceToken spLen heap curLen usedLen token tokBuf pBuf)
      | none => some (putAtEnd pBuf usedLen token tokBuf)

def padGet (spLen : Nat) (heap : List UInt8) (tokenId : List UInt8) (pBuf : List UInt8) :
    Option (Int × List UInt8) :=
  if pBuf.take magicNumLen ≠ magicNumber then none
  else some (getLoop spLen tokenId ((pBuf ++ heap).drop sizeofSpHeader) sizeofSpHeader)

/-! ## Entries -/

structure TokenId where
  name : List UInt8
  length_le : name.length ≤ 15
  no_nul : (0 : UInt8) ∉ name
  letter : ∃ b rest, name = b :: rest ∧ ((0x41 ≤ b ∧ b ≤ 0x5A) ∨ (0x61 ≤ b ∧ b ≤ 0x7A))
  deriving DecidableEq

structure Entry where
  id : TokenId
  data : List UInt8
  nonempty : data ≠ []
  deriving DecidableEq

def Entry.encode (e : Entry) : List UInt8 :=
  spToken e.id.name e.data.length ++ e.data ++
    replicate (round4 e.data.length - e.data.length) 0

theorem le_round4 (n : Nat) : n ≤ round4 n := by
  unfold round4
  omega

theorem length_spToken (id : TokenId) (n : Nat) :
    (spToken id.name n).length = sizeofSpToken := by
  simp only [spToken, intBytes, length_append, length_take, length_replicate,
    length_cons, length_nil, tokenNameLen, sizeofSpToken]
  omega

theorem length_encode (e : Entry) :
    e.encode.length = sizeofSpToken + round4 e.data.length := by
  have := le_round4 e.data.length
  simp only [Entry.encode, length_append, length_spToken, length_replicate]
  omega

theorem spToken_eq (id : TokenId) (n : Nat) :
    spToken id.name n =
      id.name ++ replicate (tokenNameLen - id.name.length) 0 ++ intBytes n := by
  have short : id.name.take (tokenNameLen - 1) = id.name :=
    take_of_length_le id.length_le
  simp only [spToken, short]

theorem readInt_intBytes {n : Nat} (small : n < 2 ^ 31) (rest : List UInt8) :
    readInt (intBytes n ++ rest) = n := by
  simp only [readInt, intBytes, cons_append, getD_cons_zero, getD_cons_succ,
    UInt8.toNat_ofNat']
  have value :
      n / 2 ^ 24 % 2 ^ 8 * 2 ^ 24 + n / 2 ^ 16 % 2 ^ 8 * 2 ^ 16 + n / 2 ^ 8 % 2 ^ 8 * 2 ^ 8 +
      n % 2 ^ 8 = n := by
    omega
  rw [value, if_pos small]

theorem tokenLen_spToken (id : TokenId) {n : Nat} (small : n < 2 ^ 31) (rest : List UInt8) :
    tokenLen (spToken id.name n ++ rest) = n := by
  have := id.length_le
  rw [tokenLen, spToken_eq, append_assoc, drop_left' (by simp [tokenNameLen]; omega)]
  exact readInt_intBytes small rest

theorem strncmpEq_iff {a b : List UInt8} {n : Nat} (a_nul : (0 : UInt8) ∉ a)
    (b_nul : (0 : UInt8) ∉ b) (fits : a.length < n) (rest : List UInt8) :
    strncmpEq n (a ++ 0 :: rest) b = true ↔ a = b := by
  induction a generalizing b n with
  | nil =>
    obtain ⟨n, rfl⟩ : ∃ m, n = m + 1 := ⟨n - 1, by simp at fits; omega⟩
    cases b with
    | nil => simp [strncmpEq]
    | cons y b =>
      have ne : y ≠ 0 := fun zero => b_nul (by simp [zero])
      simp [strncmpEq, ne.symm]
  | cons x a ih =>
    obtain ⟨n, rfl⟩ : ∃ m, n = m + 1 := ⟨n - 1, by simp at fits; omega⟩
    have x_ne : x ≠ 0 := fun zero => a_nul (by simp [zero])
    cases b with
    | nil => simp [strncmpEq, x_ne]
    | cons y b =>
      by_cases same : x = y
      · subst same
        have step := ih (b := b) (n := n) (fun mem => a_nul (mem_cons_of_mem _ mem))
          (fun mem => b_nul (mem_cons_of_mem _ mem)) (by simp at fits; omega)
        simp [strncmpEq, x_ne, step]
      · simp [strncmpEq, same]

/-! ## Scans over entries -/

def encodeAll (entries : List Entry) : List UInt8 :=
  entries.flatMap Entry.encode

@[simp]
theorem encodeAll_nil : encodeAll [] = [] := rfl

@[simp]
theorem encodeAll_cons (e : Entry) (entries : List Entry) :
    encodeAll (e :: entries) = e.encode ++ encodeAll entries := rfl

@[simp]
theorem encodeAll_append (a b : List Entry) : encodeAll (a ++ b) = encodeAll a ++ encodeAll b :=
  flatMap_append

section View

variable (e : Entry) (rest : List UInt8)

theorem headD_encode : ∃ b, (e.encode ++ rest).headD 0 = b ∧ b ≠ 0 ∧ 0x41 ≤ b ∧ b ≤ 0x7A := by
  obtain ⟨b, more, name, letter⟩ := e.id.letter
  refine ⟨b, ?_, ?_, ?_⟩
  · rw [Entry.encode, spToken_eq, name]
    rfl
  · rintro rfl
    revert letter
    decide
  · rcases letter with ⟨low, high⟩ | ⟨low, high⟩
    · exact ⟨low, UInt8.le_trans high (by decide)⟩
    · exact ⟨UInt8.le_trans (by decide) low, high⟩

theorem nameEnds_encode : nameEnds (e.encode ++ rest) = true := by
  have short := e.id.length_le
  have field : (e.encode ++ rest).take tokenNameLen =
      e.id.name ++ replicate (tokenNameLen - e.id.name.length) 0 := by
    rw [Entry.encode, spToken_eq]
    simp only [append_assoc]
    rw [← append_assoc, take_left' (by simp [tokenNameLen]; omega)]
  have zero : (0 : UInt8) ∈ replicate (tokenNameLen - e.id.name.length) 0 := by
    simp [tokenNameLen]
    omega
  simp [nameEnds, field, zero]

variable {e} (small : e.data.length < 2 ^ 31)
include small

theorem tokenLen_encode : tokenLen (e.encode ++ rest) = e.data.length := by
  rw [Entry.encode, append_assoc, append_assoc]
  exact tokenLen_spToken e.id small _

theorem skipLen_encode : skipLen (e.encode ++ rest) = round4 e.data.length := by
  rw [skipLen, tokenLen_encode rest small, Int.toNat_natCast]

theorem tokenSize_encode : tokenSize (e.encode ++ rest) = e.encode.length := by
  rw [tokenSize, skipLen_encode rest small, length_encode]

theorem drop_tokenSize : (e.encode ++ rest).drop (tokenSize (e.encode ++ rest)) = rest := by
  rw [tokenSize_encode rest small, drop_left]

omit small in
theorem data_encode :
    ((e.encode ++ rest).drop sizeofSpToken).take e.data.length = e.data := by
  rw [Entry.encode, append_assoc, append_assoc,
    drop_left' (length_spToken e.id _), take_left]

omit small in
theorem strncmpEq_encode (id : TokenId) :
    strncmpEq tokenNameLen (e.encode ++ rest) id.name = decide (e.id = id) := by
  have short := e.id.length_le
  obtain ⟨n, zeros⟩ : ∃ n, tokenNameLen - e.id.name.length = n + 1 :=
    ⟨tokenNameLen - e.id.name.length - 1, by simp only [tokenNameLen]; omega⟩
  have same : e.id.name = id.name ↔ e.id = id := by
    constructor
    · intro names
      cases h : e.id
      cases id
      simp_all
    · rintro rfl
      rfl
  have compare := strncmpEq_iff e.id.no_nul id.no_nul (n := tokenNameLen)
    (by simp only [tokenNameLen]; omega) (replicate n 0 ++ (intBytes e.data.length ++
      (e.data ++ (replicate (round4 e.data.length - e.data.length) 0 ++ rest))))
  rw [same] at compare
  rw [Entry.encode, spToken_eq, zeros, replicate_succ]
  simp only [append_assoc, cons_append]
  exact Bool.eq_iff_iff.mpr (compare.trans (by simp))

end View

def TailOk (tail : List UInt8) : Prop :=
  ∃ name n, tail = name ++ replicate n 0 ∧ (name = [] ∨ name.length = tokenNameLen ∧ 4 ≤ n)

theorem TailOk.stops {tail : List UInt8} (ok : TailOk tail) (nonempty : tail ≠ [])
    (heap : List UInt8) : (tail ++ heap).headD 0 = 0 ∨ tokenLen (tail ++ heap) = 0 := by
  obtain ⟨name, n, rfl, rfl | ⟨length, enough⟩⟩ := ok
  · grind
  · right
    obtain ⟨m, rfl⟩ : ∃ m, n = 4 + m := ⟨n - 4, by omega⟩
    rw [tokenLen, append_assoc, drop_left' length, replicate_add]
    simp [readInt, replicate_succ]

theorem data_lt_of_fits {e : Entry} {entries : List Entry} {used spLen : Nat}
    (fits : used + (encodeAll (e :: entries)).length ≤ spLen) :
    e.data.length < spLen ∧ used < spLen := by
  have := le_round4 e.data.length
  have := length_encode e
  simp only [encodeAll_cons, length_append, sizeofSpToken] at *
  omega

section Scans

variable {spLen : Nat} (small : spLen ≤ 2 ^ 31)
include small

theorem usedLoop_spec (entries : List Entry) (used : Nat) (tail heap : List UInt8)
    (ok : TailOk tail) (total : used + (encodeAll entries).length + tail.length = spLen) :
    usedLoop spLen (encodeAll entries ++ tail ++ heap) used =
      used + (encodeAll entries).length := by
  induction entries generalizing used with
  | nil =>
    rw [usedLoop, dif_neg]
    · simp
    · rintro ⟨letter, -, -, positive, -, inside⟩
      have nonempty : tail ≠ [] := by
        rintro rfl
        simp at total
        omega
      rcases ok.stops nonempty heap with zero | zero
      · simp only [encodeAll_nil, nil_append] at letter
        rw [zero] at letter
        revert letter
        decide
      · simp only [encodeAll_nil, nil_append] at positive
        omega
  | cons e entries ih =>
    have fits : used + (encodeAll (e :: entries)).length ≤ spLen := by omega
    obtain ⟨data_lt, used_lt⟩ := data_lt_of_fits fits
    have data_small : e.data.length < 2 ^ 31 := by omega
    have data_pos := length_pos_iff.mpr e.nonempty
    rw [encodeAll_cons, append_assoc, append_assoc, ← append_assoc (encodeAll _)]
    obtain ⟨b, head, -, low, high⟩ := headD_encode e (encodeAll entries ++ tail ++ heap)
    rw [usedLoop, dif_pos]
    · rw [drop_tokenSize _ data_small, tokenSize_encode _ data_small, ih]
      · rw [length_append]
        omega
      · simp only [encodeAll_cons, length_append] at total
        omega
    · refine ⟨head ▸ low, head ▸ high, nameEnds_encode e _, ?_, ?_, used_lt⟩
      · rw [tokenLen_encode _ data_small]
        omega
      · rw [tokenLen_encode _ data_small]
        omega

/-- **The search of `kerSysScratchPadGet`** among the entries. An id that is not there is refused
unless the entries fill the pad to its last byte. -/
theorem getLoop_spec (id : TokenId) (entries : List Entry) (start used : Nat)
    (tail heap : List UInt8) (ok : TailOk tail) (behind : used ≤ start)
    (total : start + (encodeAll entries).length + tail.length = spLen)
    (here : (∃ e ∈ entries, e.id = id) ∨ tail ≠ []) :
    getLoop spLen id.name (encodeAll entries ++ tail ++ heap) used =
      match entries.find? (fun e => e.id = id) with
      | some e => (e.data.length, e.data)
      | none => (-1, []) := by
  induction entries generalizing start used with
  | nil =>
    have nonempty : tail ≠ [] := by simpa using here
    rw [getLoop, dif_neg]
    · rfl
    · rintro ⟨named, positive, -, -⟩
      simp only [encodeAll_nil, nil_append] at named positive
      rcases ok.stops nonempty heap with zero | zero
      · exact named zero
      · omega
  | cons e entries ih =>
    have fits : start + (encodeAll (e :: entries)).length ≤ spLen := by omega
    obtain ⟨data_lt, start_lt⟩ := data_lt_of_fits fits
    have data_small : e.data.length < 2 ^ 31 := by omega
    have data_pos := length_pos_iff.mpr e.nonempty
    rw [encodeAll_cons, append_assoc, append_assoc, ← append_assoc (encodeAll _)]
    obtain ⟨b, head, named, -⟩ := headD_encode e (encodeAll entries ++ tail ++ heap)
    rw [getLoop, dif_pos]
    · rw [strncmpEq_encode, tokenLen_encode _ data_small]
      by_cases found : e.id = id
      · simp [found, data_encode]
      · have size := length_encode e
        have rest : (∃ e ∈ entries, e.id = id) ∨ tail ≠ [] := by
          simpa [found] using here
        simp only [encodeAll_cons, length_append] at total
        rw [drop_tokenSize _ data_small, skipLen_encode _ data_small,
          ih (start + e.encode.length) _ (by rw [size]; omega) (by omega) rest]
        simp [found]
    · refine ⟨head ▸ named, ?_, ?_, by omega⟩
      · rw [tokenLen_encode _ data_small]
        omega
      · rw [tokenLen_encode _ data_small]
        omega

omit small in
theorem findLoop_found {id : TokenId} (before : List Entry) (e : Entry) (after : List Entry)
    (found : e.id = id) (others : ∀ d ∈ before, d.id ≠ id)
    (sizes : ∀ d ∈ before, d.data.length < 2 ^ 31) (start usedLen : Nat)
    (rest : List UInt8) (inside : start + (encodeAll before).length < usedLen) :
    findLoop id.name usedLen (encodeAll (before ++ e :: after) ++ rest) start =
      some (start + (encodeAll before).length) := by
  induction before generalizing start with
  | nil =>
    simp only [nil_append, encodeAll_cons, encodeAll_nil, length_nil,
      Nat.add_zero] at inside ⊢
    rw [findLoop, dif_pos inside, append_assoc, strncmpEq_encode, found]
    simp
  | cons d before ih =>
    have other : d.id ≠ id := others d mem_cons_self
    have size := sizes d mem_cons_self
    simp only [cons_append, encodeAll_cons, length_append] at inside ⊢
    rw [findLoop, dif_pos (by omega), append_assoc, strncmpEq_encode,
      drop_tokenSize _ size, tokenSize_encode _ size,
      ih (fun c mem => others c (mem_cons_of_mem _ mem))
        (fun c mem => sizes c (mem_cons_of_mem _ mem)) _ (by omega)]
    simp [other, Nat.add_assoc]

omit small in
theorem findLoop_none {id : TokenId} (entries : List Entry) (others : ∀ d ∈ entries, d.id ≠ id)
    (sizes : ∀ d ∈ entries, d.data.length < 2 ^ 31) (start : Nat) (rest : List UInt8) :
    findLoop id.name (start + (encodeAll entries).length) (encodeAll entries ++ rest) start =
      none := by
  induction entries generalizing start with
  | nil => rw [findLoop, dif_neg (by simp)]
  | cons d entries ih =>
    have other : d.id ≠ id := others d mem_cons_self
    have size := sizes d mem_cons_self
    have positive : 0 < d.encode.length := by
      rw [length_encode]
      exact Nat.add_pos_left (by decide) _
    simp only [encodeAll_cons, length_append]
    rw [findLoop, dif_pos (by omega), append_assoc, strncmpEq_encode,
      drop_tokenSize _ size, tokenSize_encode _ size, ← Nat.add_assoc,
      ih (fun c mem => others c (mem_cons_of_mem _ mem))
        (fun c mem => sizes c (mem_cons_of_mem _ mem))]
    simp [other]

end Scans

end EchoLife.ScratchPad
