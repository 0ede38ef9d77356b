import EchoLife.ScratchPad.Tokens

/-!
# The contents of the scratch pad

`PadState` is the representation invariant: a pad is cleared, or it is a header, the bytes of
entries with different ids, and a tail of zeros. The tail may begin with a name whose length field
is zero, which is what the removal of a token leaves on a cleared pad.

`padGet_spec` and `padUpdate_spec` say what reading and writing do to the entries: a pad is a finite
map, except that a pad which is full to its last byte has no tail to end the scan of a reader.
-/

namespace EchoLife.ScratchPad

open List Option ByteStore

/-! ## Contents of a pad -/

inductive PadState (spLen : Nat) : List UInt8 → List Entry → Prop where
  | cleared : PadState spLen (replicate spLen 0) []
  | tokens {entries : List Entry} {tail : List UInt8} (ok : TailOk tail)
      (total : sizeofSpHeader + (encodeAll entries).length + tail.length = spLen)
      (distinct : (entries.map Entry.id).Nodup) :
      PadState spLen (spHeader ++ encodeAll entries ++ tail) entries

def lookup (entries : List Entry) (id : TokenId) : Option (List UInt8) :=
  (entries.find? fun e => e.id = id).map Entry.data

theorem length_spHeader : spHeader.length = sizeofSpHeader := rfl

theorem TailOk.drop {tail : List UInt8} (ok : TailOk tail) {k : Nat} (beyond : tokenNameLen ≤ k) :
    tail.drop k = replicate (tail.length - k) 0 := by
  obtain ⟨name, n, rfl, rfl | ⟨length, -⟩⟩ := ok
  · simp
  · obtain ⟨m, rfl⟩ : ∃ m, k = name.length + m := ⟨k - name.length, by omega⟩
    rw [← drop_drop, drop_left, drop_replicate, length_append,
      length_replicate]
    congr 1
    omega

theorem overwrite_cleared (n : Nat) : overwrite (replicate n (0 : UInt8)) 0 spHeader =
    spHeader ++ replicate (n - sizeofSpHeader) 0 := by
  have := overwrite_append [] (replicate n (0 : UInt8)) spHeader
  rwa [nil_append, nil_append, drop_replicate] at this

theorem tailOk_replicate (n : Nat) : TailOk (replicate n 0) :=
  ⟨[], n, rfl, Or.inl rfl⟩

theorem overwrite_token (front : List UInt8) {tail : List UInt8} (ok : TailOk tail) (e : Entry)
    (room : sizeofSpToken + round4 e.data.length ≤ tail.length) :
    overwrite (overwrite (front ++ tail) front.length (spToken e.id.name e.data.length))
        (front.length + sizeofSpToken) e.data =
      front ++ e.encode ++ replicate (tail.length - e.encode.length) 0 := by
  have padding := le_round4 e.data.length
  have size := length_encode e
  have name := length_spToken e.id e.data.length
  have length : front.length + sizeofSpToken =
      (front ++ spToken e.id.name e.data.length).length := by
    rw [length_append, name]
  have zeros : replicate (tail.length - (sizeofSpToken + e.data.length)) (0 : UInt8) =
      replicate (round4 e.data.length - e.data.length) 0 ++
        replicate (tail.length - e.encode.length) 0 := by
    rw [← replicate_add]
    congr 1
    omega
  rw [overwrite_append, length, overwrite_append, name, drop_drop,
    ok.drop (by simp only [tokenNameLen, sizeofSpToken]; omega), zeros, Entry.encode]
  simp only [append_assoc]

theorem overwrite_header (rest : List UInt8) : overwrite (spHeader ++ rest) 0 spHeader =
    spHeader ++ rest := by
  rw [overwrite, take_zero, Nat.zero_add, drop_left, nil_append]

theorem round4_dvd (n : Nat) : 4 ∣ round4 n := ⟨(n + 3) / 4, Nat.mul_comm _ _⟩

theorem encodeAll_dvd (entries : List Entry) : 4 ∣ (encodeAll entries).length := by
  induction entries with
  | nil => simp
  | cons e entries ih =>
    have := round4_dvd e.data.length
    simp only [encodeAll_cons, length_append, length_encode, sizeofSpToken]
    omega

variable {entries : List Entry} {id : TokenId} {e : Entry} {pad : List UInt8}
  {tokBuf : Option (List UInt8)}

section Update

variable {spLen : Nat} (aligned : 4 ∣ spLen)
include aligned

theorem room_of_fits {tail : List UInt8} {n : Nat}
    (total : sizeofSpHeader + (encodeAll entries).length + tail.length = spLen)
    (fits : sizeofSpToken + n ≤ tail.length) : sizeofSpToken + round4 n ≤ tail.length := by
  have := encodeAll_dvd entries
  simp only [sizeofSpHeader, sizeofSpToken, round4] at *
  omega

theorem putAtEnd_some {tail : List UInt8} (ok : TailOk tail)
    (total : sizeofSpHeader + (encodeAll entries).length + tail.length = spLen) (e : Entry)
    (distinct : ((entries ++ [e]).map Entry.id).Nodup)
    (fits : sizeofSpToken + e.data.length ≤ tail.length) :
    PadState spLen (putAtEnd (spHeader ++ encodeAll entries ++ tail)
      (sizeofSpHeader + (encodeAll entries).length) (spToken e.id.name e.data.length)
      (some e.data)) (entries ++ [e]) := by
  have room := room_of_fits aligned total fits
  have front : sizeofSpHeader + (encodeAll entries).length =
      (spHeader ++ encodeAll entries).length := by
    rw [length_append, length_spHeader]
  have written : putAtEnd (spHeader ++ encodeAll entries ++ tail)
      (sizeofSpHeader + (encodeAll entries).length) (spToken e.id.name e.data.length)
      (some e.data) = spHeader ++ encodeAll (entries ++ [e]) ++
        replicate (tail.length - e.encode.length) 0 := by
    simp only [putAtEnd]
    rw [front, overwrite_token _ ok e room]
    simp only [append_assoc]
    rw [overwrite_header]
    simp
  rw [written]
  refine .tokens (tailOk_replicate _) ?_ distinct
  have size := length_encode e
  simp only [encodeAll_append, encodeAll_cons, encodeAll_nil, append_nil, length_append,
    length_replicate]
  omega

omit aligned in
theorem putAtEnd_none (pBuf token : List UInt8) (usedLen : Nat) :
    putAtEnd (spHeader ++ pBuf) usedLen token none = spHeader ++ pBuf :=
  overwrite_header pBuf

omit aligned in
theorem shiftDown_spec (before : List Entry) (e : Entry) (after : List Entry) (tail : List UInt8)
    (total : sizeofSpHeader + (encodeAll (before ++ e :: after)).length + tail.length = spLen) :
    shiftDown spLen (spHeader ++ encodeAll (before ++ e :: after) ++ tail)
        (sizeofSpHeader + (encodeAll before).length)
        (sizeofSpHeader + (encodeAll before).length + e.encode.length)
        (sizeofSpHeader + (encodeAll (before ++ e :: after)).length) =
      spHeader ++ encodeAll (before ++ after) ++
        replicate (tail.length + e.encode.length) 0 := by
  have front : sizeofSpHeader + (encodeAll before).length =
      (spHeader ++ encodeAll before).length := by
    rw [length_append, length_spHeader]
  have copyLen : sizeofSpHeader + (encodeAll (before ++ e :: after)).length -
      (sizeofSpHeader + (encodeAll before).length + e.encode.length) =
      (encodeAll after).length := by
    simp only [encodeAll_append, encodeAll_cons, length_append]
    omega
  have split : spHeader ++ encodeAll (before ++ e :: after) ++ tail =
      spHeader ++ encodeAll before ++ (e.encode ++ (encodeAll after ++ tail)) := by
    simp
  have moved : ((spHeader ++ encodeAll before ++ (e.encode ++ (encodeAll after ++ tail))).drop
      ((spHeader ++ encodeAll before).length + e.encode.length)).take (encodeAll after).length =
      encodeAll after := by
    rw [← drop_drop, drop_left, drop_left, take_left]
  have clear : spLen - ((spHeader ++ encodeAll before).length + (encodeAll after).length) =
      tail.length + e.encode.length := by
    simp only [encodeAll_append, encodeAll_cons, length_append] at total
    omega
  simp only [shiftDown, copyLen]
  rw [front, split, moved, clear, overwrite_append, ← length_append, overwrite_append,
    drop_drop, drop_of_length_le (by simp; omega), encodeAll_append]
  simp

omit aligned in
theorem overwrite_data (before : List Entry) (e : Entry) (after : List Entry) (tail : List UInt8)
    {data : List UInt8} (nonempty : data ≠ []) (same : data.length = e.data.length) :
    overwrite (spHeader ++ encodeAll (before ++ e :: after) ++ tail)
        (sizeofSpHeader + (encodeAll before).length + sizeofSpToken) data =
      spHeader ++ encodeAll (before ++ ⟨e.id, data, nonempty⟩ :: after) ++ tail := by
  have front : sizeofSpHeader + (encodeAll before).length + sizeofSpToken =
      (spHeader ++ encodeAll before ++ spToken e.id.name e.data.length).length := by
    simp only [length_append, length_spHeader, length_spToken]
  have split : spHeader ++ encodeAll (before ++ e :: after) ++ tail =
      spHeader ++ encodeAll before ++ spToken e.id.name e.data.length ++
        (e.data ++ (replicate (round4 e.data.length - e.data.length) 0 ++
          (encodeAll after ++ tail))) := by
    simp [Entry.encode]
  rw [front, split, overwrite_append, same, drop_left]
  simp [Entry.encode, same]

end Update

/-! ## Effect on the entries -/

section Lookup

theorem lookup_nil (id : TokenId) : lookup [] id = none := rfl

theorem lookup_cons (e : Entry) (entries : List Entry) (id : TokenId) :
    lookup (e :: entries) id = if e.id = id then some e.data else lookup entries id := by
  by_cases found : e.id = id <;> simp [lookup, found]

theorem lookup_eq_none (absent : ∀ e ∈ entries, e.id ≠ id) : lookup entries id = none := by
  simpa [lookup] using absent

theorem lookup_append (a b : List Entry) (id : TokenId) :
    lookup (a ++ b) id = (lookup a id).or (lookup b id) := by
  simp [lookup, find?_append, map_or]

theorem lookup_replace {before after : List Entry}
    (distinct : ((before ++ e :: after).map Entry.id).Nodup) (new : List Entry)
    (same : ∀ d ∈ new, d.id = e.id) (k : TokenId) :
    lookup (before ++ new ++ after) k =
      if k = e.id then lookup new k else lookup (before ++ e :: after) k := by
  rw [map_append, map_cons, nodup_middle, nodup_cons] at distinct
  have others : ∀ d ∈ before ++ after, d.id ≠ e.id := by grind
  simp only [lookup_append, lookup_cons]
  by_cases here : k = e.id
  · subst here
    rw [if_pos rfl, lookup_eq_none fun d mem => others d (mem_append_left _ mem),
      lookup_eq_none fun d mem => others d (mem_append_right _ mem)]
    simp
  · have absent : lookup new k = none :=
      lookup_eq_none fun d mem eq => here (eq.symm.trans (same d mem))
    rw [if_neg here, if_neg (Ne.symm here), absent]
    simp

theorem lookup_snoc (absent : ∀ d ∈ entries, d.id ≠ e.id) (k : TokenId) :
    lookup (entries ++ [e]) k = if k = e.id then some e.data else lookup entries k := by
  rw [lookup_append, lookup_cons, lookup_nil]
  by_cases here : k = e.id
  · subst here
    rw [if_pos rfl, if_pos rfl, lookup_eq_none absent]
    rfl
  · rw [if_neg here, if_neg (Ne.symm here)]
    simp

theorem exists_entry (entries : List Entry) (id : TokenId) :
    (∀ e ∈ entries, e.id ≠ id) ∨
      ∃ before e after, entries = before ++ e :: after ∧ e.id = id ∧ ∀ d ∈ before, d.id ≠ id := by
  induction entries with
  | nil => exact Or.inl (by simp)
  | cons e entries ih =>
    by_cases here : e.id = id
    · exact Or.inr ⟨[], e, entries, rfl, here, by simp⟩
    · rcases ih with absent | ⟨before, d, after, rfl, found, others⟩
      · exact Or.inl (by simpa [here] using absent)
      · exact Or.inr ⟨e :: before, d, after, rfl, found, by simpa [here] using others⟩

end Lookup

section Effect

variable {spLen : Nat} (aligned : 4 ∣ spLen) (small : spLen ≤ 2 ^ 31)
  (large : sizeofSpHeader + sizeofSpToken ≤ spLen)

theorem take_magic (rest : List UInt8) :
    (spHeader ++ rest).take magicNumLen = magicNumber := by
  rfl

theorem drop_header (rest heap : List UInt8) :
    (spHeader ++ rest ++ heap).drop sizeofSpHeader = rest ++ heap := by
  rw [append_assoc, drop_left' length_spHeader]

theorem cleared_no_magic : (replicate spLen (0 : UInt8)).take magicNumLen ≠ magicNumber := by
  intro magic
  have first := congrArg (List.headD · 1) magic
  rw [take_replicate] at first
  cases least : min magicNumLen spLen with
  | zero =>
    rw [least] at first
    revert first
    decide
  | succ n =>
    rw [least, replicate_succ] at first
    have zero : (0 : UInt8) = 0x67 := first
    exact absurd zero (by decide)

include large small in
theorem padUsed_eq (state : PadState spLen pad entries) (heap : List UInt8) :
    padUsed spLen heap pad = sizeofSpHeader + (encodeAll entries).length := by
  cases state with
  | cleared =>
    obtain ⟨rest, split⟩ : ∃ rest, (replicate spLen (0 : UInt8) ++ heap).drop
        sizeofSpHeader = replicate (spLen - sizeofSpHeader) 0 ++ rest :=
      ⟨heap, by rw [drop_append_of_le_length (by simp only [length_replicate]; omega),
        drop_replicate]⟩
    have tail := usedLoop_spec small [] sizeofSpHeader
      (replicate (spLen - sizeofSpHeader) 0) rest (tailOk_replicate _)
      (by simp only [encodeAll_nil, length_nil, length_replicate]; omega)
    rw [padUsed, split]
    exact tail
  | tokens ok total distinct =>
    exact usedLoop_spec small entries sizeofSpHeader _ heap ok total

variable {tail : List UInt8}

theorem data_small_of_mem
    (total : sizeofSpHeader + (encodeAll entries).length + tail.length = spLen) (mem : e ∈ entries)
    (small : spLen ≤ 2 ^ 31) : e.data.length < 2 ^ 31 := by
  obtain ⟨before, after, rfl⟩ := append_of_mem mem
  have size := length_encode e
  have := le_round4 e.data.length
  simp only [encodeAll_append, encodeAll_cons, length_append, sizeofSpToken,
    sizeofSpHeader] at *
  omega

/-- **Reading.** An id that is stored gives its data; another id gives `-1` unless the entries
fill the pad to its last byte. -/
theorem padGet_spec (small : spLen ≤ 2 ^ 31) (state : PadState spLen pad entries)
    (heap : List UInt8) (id : TokenId)
    (here : lookup entries id ≠ none ∨ sizeofSpHeader + (encodeAll entries).length ≠ spLen) :
    (padGet spLen heap id.name pad).getD (-1, []) =
      match lookup entries id with
      | some data => (data.length, data)
      | none => (-1, []) := by
  cases state with
  | cleared =>
    rw [padGet, if_pos cleared_no_magic]
    rfl
  | @tokens _ tail ok total distinct =>
    have present : (∃ e ∈ entries, e.id = id) ∨ tail ≠ [] := by
      rcases here with stored | room
      · left
        by_contra absent
        push Not at absent
        exact stored (lookup_eq_none absent)
      · right
        rintro rfl
        simp at total
        omega
    rw [padGet, append_assoc, if_neg (not_not.mpr (take_magic _)), drop_header,
      getD_some,
      getLoop_spec small id entries sizeofSpHeader sizeofSpHeader tail heap ok (Nat.le_refl _)
        total present, lookup]
    cases entries.find? fun e => e.id = id <;> rfl

def Updated (spLen : Nat) (pad : List UInt8) (entries : List Entry) (id : TokenId)
    (tokBuf : Option (List UInt8)) : Prop :=
  ∃ entries', PadState spLen pad entries' ∧
    ∀ k, lookup entries' k = if k = id then tokBuf else lookup entries k

include aligned in
theorem updated_putAtEnd {others : List Entry} (ok : TailOk tail)
    (total : sizeofSpHeader + (encodeAll others).length + tail.length = spLen)
    (distinct : (others.map Entry.id).Nodup) (absent : ∀ d ∈ others, d.id ≠ id)
    (same : ∀ k, k ≠ id → lookup others k = lookup entries k)
    (nonempty : ∀ data, tokBuf = some data → data ≠ [])
    (fits : sizeofSpToken + (tokBuf.getD []).length ≤ tail.length) :
    Updated spLen (putAtEnd (spHeader ++ encodeAll others ++ tail)
      (sizeofSpHeader + (encodeAll others).length)
      (spToken id.name (tokBuf.getD []).length) tokBuf) entries id tokBuf := by
  cases tokBuf with
  | none =>
    rw [append_assoc, putAtEnd_none, ← append_assoc]
    refine ⟨others, .tokens ok total distinct, fun k => ?_⟩
    by_cases here : k = id
    · rw [if_pos here, here, lookup_eq_none absent]
    · rw [if_neg here, same k here]
  | some data =>
    obtain ⟨e, rfl, rfl⟩ : ∃ e : Entry, e.id = id ∧ e.data = data :=
      ⟨⟨id, data, nonempty data rfl⟩, rfl, rfl⟩
    have distinct' : ((others ++ [e]).map Entry.id).Nodup := by grind
    refine ⟨others ++ [e], putAtEnd_some aligned ok total e distinct' fits, fun k => ?_⟩
    rw [lookup_snoc absent]
    by_cases here : k = e.id
    · rw [if_pos here, if_pos here]
    · rw [if_neg here, if_neg here, same k here]

theorem fits_of_check {n : Nat}
    (total : sizeofSpHeader + (encodeAll entries).length + tail.length = spLen)
    (check : ¬ sizeofSpHeader + (encodeAll entries).length + n + sizeofSpToken > spLen) :
    sizeofSpToken + n ≤ tail.length := by
  omega

include aligned small in
theorem updated_replaceToken {before after : List Entry} {heap : List UInt8} (ok : TailOk tail)
    (total : sizeofSpHeader + (encodeAll (before ++ e :: after)).length + tail.length = spLen)
    (distinct : ((before ++ e :: after).map Entry.id).Nodup)
    (nonempty : ∀ data, tokBuf = some data → data ≠ [])
    (fits : sizeofSpToken + (tokBuf.getD []).length ≤ tail.length) :
    Updated spLen (replaceToken spLen heap (sizeofSpHeader + (encodeAll before).length)
      (sizeofSpHeader + (encodeAll (before ++ e :: after)).length)
      (spToken e.id.name (tokBuf.getD []).length) tokBuf
      (spHeader ++ encodeAll (before ++ e :: after) ++ tail)) (before ++ e :: after) e.id
      tokBuf := by
  have data_small : e.data.length < 2 ^ 31 :=
    data_small_of_mem total (mem_append_right _ mem_cons_self) small
  have pointer : (spHeader ++ encodeAll (before ++ e :: after) ++ tail ++ heap).drop
      (sizeofSpHeader + (encodeAll before).length) =
      e.encode ++ (encodeAll after ++ tail ++ heap) := by
    rw [← length_spHeader, ← length_append, encodeAll_append, encodeAll_cons]
    simp only [append_assoc]
    rw [← append_assoc spHeader, drop_left' (by simp)]
  rw [replaceToken]
  simp only [pointer, tokenLen_encode _ data_small, tokenSize_encode _ data_small]
  by_cases same_size : tokBuf.isSome = true ∧ (e.data.length : Int) = (tokBuf.getD []).length
  · obtain ⟨data, rfl⟩ := isSome_iff_exists.mp same_size.1
    have same : data.length = e.data.length := by grind
    rw [if_pos same_size, getD_some,
      overwrite_data before e after tail (nonempty data rfl) same]
    refine ⟨before ++ ⟨e.id, data, nonempty data rfl⟩ :: after, .tokens ok ?_ ?_, fun k => ?_⟩
    · rw [← total]
      simp [length_encode, same]
    · simpa using distinct
    · have replaced := lookup_replace distinct [⟨e.id, data, nonempty data rfl⟩] (by simp) k
      rw [append_assoc, singleton_append] at replaced
      rw [replaced]
      by_cases here : k = e.id
      · subst here
        simp [lookup_cons]
      · rw [if_neg here, if_neg here]
  · have removed := lookup_replace distinct [] (by simp)
    rw [map_append, map_cons, nodup_middle, nodup_cons,
      ← map_append] at distinct
    have left_over : sizeofSpHeader + (encodeAll (before ++ e :: after)).length - e.encode.length =
        sizeofSpHeader + (encodeAll (before ++ after)).length := by
      simp only [encodeAll_append, encodeAll_cons, length_append]
      omega
    rw [if_neg same_size, shiftDown_spec before e after tail total, left_over]
    refine updated_putAtEnd aligned (tailOk_replicate _) ?_ distinct.2 ?_ ?_ nonempty ?_
    · simp only [encodeAll_append, encodeAll_cons, length_append,
        length_replicate] at total ⊢
      omega
    · grind
    · grind
    · rw [length_replicate]
      omega

include aligned in
theorem padUpdate_cleared (heap : List UInt8) (e : Entry)
    (guard : sizeofSpHeader + sizeofSpToken + e.data.length ≤ spLen) :
    padUpdate spLen heap e.id.name (some e.data) (replicate spLen 0) =
      some (spHeader ++ encodeAll [e] ++
        replicate (spLen - sizeofSpHeader - e.encode.length) 0) := by
  have room : sizeofSpToken + round4 e.data.length ≤
      (replicate (spLen - sizeofSpHeader) (0 : UInt8)).length := by
    simp only [length_replicate, sizeofSpHeader, sizeofSpToken, round4] at *
    omega
  have written := overwrite_token spHeader (tailOk_replicate (spLen - sizeofSpHeader)) e room
  rw [length_spHeader, length_replicate] at written
  rw [padUpdate, if_pos cleared_no_magic]
  simp only [getD_some, overwrite_cleared, written, encodeAll_cons, encodeAll_nil,
    append_nil]

theorem padUpdate_cleared_none (heap : List UInt8) (id : TokenId) :
    padUpdate spLen heap id.name none (replicate spLen 0) =
      some (spHeader ++ encodeAll [] ++ (spToken id.name 0 ++
        replicate (spLen - sizeofSpHeader - sizeofSpToken) 0)) := by
  have written := overwrite_append spHeader (replicate (spLen - sizeofSpHeader) 0)
    (spToken id.name 0)
  rw [length_spHeader, length_spToken, drop_replicate] at written
  rw [padUpdate, if_pos cleared_no_magic]
  simp only [getD_none, length_nil, overwrite_cleared, written, overwrite_nil,
    encodeAll_nil, append_nil, append_assoc]

theorem tailOk_name (id : TokenId) (n : Nat) :
    TailOk (spToken id.name 0 ++ replicate n 0) := by
  have short := id.length_le
  refine ⟨id.name ++ replicate (tokenNameLen - id.name.length) 0, 4 + n, ?_,
    Or.inr ⟨?_, by omega⟩⟩
  · rw [spToken_eq, replicate_add]
    simp [intBytes, replicate_succ]
  · simp [tokenNameLen]
    omega

include aligned large in
theorem updated_cleared (heap : List UInt8) (nonempty : ∀ data, tokBuf = some data → data ≠ [])
    (guard : sizeofSpHeader + sizeofSpToken + (tokBuf.getD []).length ≤ spLen) :
    ∃ pad, padUpdate spLen heap id.name tokBuf (replicate spLen 0) = some pad ∧
      Updated spLen pad [] id tokBuf := by
  cases tokBuf with
  | some data =>
    obtain ⟨e, rfl, rfl⟩ : ∃ e : Entry, e.id = id ∧ e.data = data :=
      ⟨⟨id, data, nonempty data rfl⟩, rfl, rfl⟩
    have size := length_encode e
    refine ⟨_, padUpdate_cleared aligned heap e guard, [e],
      .tokens (tailOk_replicate _) ?_ (by simp), fun k => ?_⟩
    · simp only [encodeAll_cons, encodeAll_nil, append_nil, length_replicate,
        getD_some, sizeofSpHeader, sizeofSpToken, round4] at *
      omega
    · rw [lookup_cons]
      simp only [eq_comm]
  | none =>
    refine ⟨_, padUpdate_cleared_none heap id, [], .tokens (tailOk_name id _) ?_ (by simp),
      fun k => by simp [lookup_nil]⟩
    rw [length_append, length_spToken, length_replicate, encodeAll_nil,
      length_nil]
    omega

include small large in
theorem padUpdate_refused (ok : TailOk tail)
    (total : sizeofSpHeader + (encodeAll entries).length + tail.length = spLen)
    (distinct : (entries.map Entry.id).Nodup) (heap tokenId : List UInt8)
    (full : sizeofSpHeader + (encodeAll entries).length + (tokBuf.getD []).length +
      sizeofSpToken > spLen) :
    padUpdate spLen heap tokenId tokBuf (spHeader ++ encodeAll entries ++ tail) = none := by
  have used := padUsed_eq small large (.tokens ok total distinct) heap
  have magic := take_magic (encodeAll entries ++ tail)
  rw [← append_assoc] at magic
  rw [padUpdate, if_neg (not_not.mpr magic)]
  simp only [used, if_pos full]

include aligned small large in
/-- **Writing.** A call that is not refused stores the data, or removes the id when there is
none, and keeps the data of all other ids. -/
theorem padUpdate_spec (state : PadState spLen pad entries) (heap : List UInt8) (id : TokenId)
    (nonempty : ∀ data, tokBuf = some data → data ≠ [])
    (guard : sizeofSpHeader + sizeofSpToken + (tokBuf.getD []).length ≤ spLen) :
    (∃ pad', padUpdate spLen heap id.name tokBuf pad = some pad' ∧
      Updated spLen pad' entries id tokBuf) ∨
    (padUpdate spLen heap id.name tokBuf pad = none ∧
      padUsed spLen heap pad + (tokBuf.getD []).length + sizeofSpToken > spLen) := by
  have used := padUsed_eq small large state heap
  cases state with
  | cleared => exact Or.inl (updated_cleared aligned large heap nonempty guard)
  | @tokens _ tail ok total distinct =>
    by_cases full : sizeofSpHeader + (encodeAll entries).length + (tokBuf.getD []).length +
        sizeofSpToken > spLen
    · right
      rw [used]
      exact ⟨padUpdate_refused small large ok total distinct heap id.name full, full⟩
    · left
      have magic := take_magic (encodeAll entries ++ tail)
      rw [← append_assoc] at magic
      have first : (spHeader ++ encodeAll entries ++ tail ++ heap).drop sizeofSpHeader =
          encodeAll entries ++ (tail ++ heap) := by
        rw [append_assoc spHeader, drop_header, append_assoc]
      have data_small : ∀ d ∈ entries, d.data.length < 2 ^ 31 :=
        fun d mem => data_small_of_mem total mem small
      have fits := fits_of_check total full
      rw [padUpdate, if_neg (not_not.mpr magic)]
      simp only [used, first, if_neg full]
      rcases exists_entry entries id with absent | ⟨before, e, after, rfl, found, others⟩
      · rw [findLoop_none entries absent data_small]
        exact ⟨_, rfl, updated_putAtEnd aligned ok total distinct absent (fun _ _ => rfl) nonempty
          fits⟩
      · subst found
        rw [findLoop_found before e after rfl others
          (fun d mem => data_small d (mem_append_left _ mem)) sizeofSpHeader _ _ ?_]
        · exact ⟨_, rfl, updated_replaceToken aligned small ok total distinct nonempty fits⟩
        · have := length_encode e
          simp only [encodeAll_append, encodeAll_cons, length_append, sizeofSpToken] at *
          omega

theorem padGet_behind (small : spLen ≤ 2 ^ 31) (e next : Entry) (other : e.id ≠ next.id)
    (full : sizeofSpHeader + e.encode.length = spLen) (next_lt : next.data.length < spLen) :
    padGet spLen next.encode next.id.name (spHeader ++ encodeAll [e] ++ []) =
      some ((next.data.length : Int), next.data) := by
  have size := length_encode e
  have rounded := le_round4 e.data.length
  have data_pos := length_pos_iff.mpr e.nonempty
  have next_pos := length_pos_iff.mpr next.nonempty
  simp only [sizeofSpToken, sizeofSpHeader] at size full
  have data_small : e.data.length < 2 ^ 31 := by omega
  have next_small : next.data.length < 2 ^ 31 := by omega
  obtain ⟨_, head, named, -⟩ := headD_encode e next.encode
  obtain ⟨_, next_head, next_named, -⟩ := headD_encode next []
  have first := tokenLen_encode next.encode data_small
  have second := tokenLen_encode [] next_small
  rw [padGet, if_neg (not_not.mpr (by rw [append_assoc]; exact take_magic _)),
    append_nil, drop_header, encodeAll_cons, encodeAll_nil, append_nil, getLoop, dif_pos,
    strncmpEq_encode, drop_tokenSize _ data_small, skipLen_encode _ data_small,
    ← append_nil next.encode, getLoop, dif_pos, strncmpEq_encode, second]
  · simp only [other, decide_false, Bool.false_eq_true, if_false, decide_true, if_true,
      Int.toNat_natCast, data_encode]
  · refine ⟨next_head ▸ next_named, ?_, ?_, ?_⟩
    · rw [second]
      omega
    · rw [second]
      omega
    · simp only [sizeofSpHeader]
      omega
  · refine ⟨head ▸ named, ?_, ?_, ?_⟩
    · rw [first]
      omega
    · rw [first]
      omega
    · simp only [sizeofSpHeader]
      omega

end Effect

end EchoLife.ScratchPad
