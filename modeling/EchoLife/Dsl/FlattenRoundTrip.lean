import EchoLife.Dsl.Flatten

/-!
# Flattened statuses are read back

Case by case, the words that `FlattenStatus` writes for a status are those that `UnflattenStatus`
reads for it (`unflattenStatus_flattenStatus`), and they fit (`flattenStatus_length_le`).
-/

namespace EchoLife.Dsl

open List Option ByteStore

structure ReadsBack (host : HostAddr) (sd : StatData) (status : DslStatusStruct)
    (words : List UInt32)
    (result : DslStatusStruct × Nat × Option (Nat × UInt32)) : Prop where
  status : result.1 = delivered host sd status
  size : result.2.1 = words.length
  patch : ∀ i word, result.2.2 = some (i, word) → i < words.length

variable {host : HostAddr} {sd : StatData} {src : Nat → UInt32} {avail : Int}

/-! ## The cases with data -/

variable {status : DslStatusStruct} {words : List UInt32} {buffPtr : BuffPtr} {code value : UInt32}

theorem ReadsBack.kept {read : DslStatusStruct} {n : Nat}
    (same : read = delivered host sd status) (size : n = words.length) :
    ReadsBack host sd status words (read, n, none) :=
  ⟨same, size, by rintro i word ⟨⟩⟩

theorem ReadsBack.exchanged {data : List UInt32} {i size n : Nat}
    (make : UInt32 → BuffPtr → DslStatusStruct) (len : data.length = size)
    (reads : Reads src (i + 1) data)
    (same : delivered host sd status =
      if sd.ptr ≠ 0 then make sd.len (.addr sd.ptr) else make (src i) (.words data))
    (count : n = words.length) (inside : i < n) :
    ReadsBack host sd status words (make (takeData sd src (i + 1) size).1
      (takeData sd src (i + 1) size).2.1, n, (takeData sd src (i + 1) size).2.2) := by
  rw [takeData, reads.load_eq len]
  by_cases replaced : sd.ptr ≠ 0
  · rw [if_pos replaced] at same ⊢
    exact ⟨same.symm, count, by rintro j word ⟨⟩; exact count ▸ inside⟩
  · rw [if_neg replaced] at same ⊢
    exact .kept same.symm count

theorem Reads.three {a b c : UInt32} :
    Reads src 0 ([a, b, c] ++ words) ↔ src 0 = a ∧ src 1 = b ∧ src 2 = c ∧ Reads src 3 words := by
  simp [Reads.cons]

theorem connectInfo_reads (wf : connectWellFormed code value buffPtr)
    (flat : flattenConnectInfo code value buffPtr avail = some words)
    (reads : Reads src 0 ([kDslConnectInfoStatus, code, value] ++ words)) :
    ReadsBack host sd (.connectInfo code value buffPtr)
      ([kDslConnectInfoStatus, code, value] ++ words) (unflattenConnectInfo host sd src) := by
  obtain ⟨-, src_code, src_value, data⟩ := Reads.three.mp reads
  have len : 3 + words.length = ([kDslConnectInfoStatus, code, value] ++ words).length := by
    rw [length_append]
    rfl
  have exchanged {size : Nat} (has : HasData buffPtr size) (moved : buffPtr.move size = words)
      (found : connectCase code = .bytes ∨ connectCase code = .shorts) :
      ReadsBack host sd (.connectInfo code value buffPtr)
        ([kDslConnectInfoStatus, code, value] ++ words)
        (.connectInfo code (takeData sd src 3 size).1 (takeData sd src 3 size).2.1, 3 + size,
          (takeData sd src 3 size).2.2) := by
    obtain ⟨eq, size_eq⟩ := has.move
    rw [moved] at eq size_eq
    refine .exchanged (.connectInfo code) size_eq data ?_ (size_eq ▸ len) (by omega)
    rw [src_value, ← eq]
    rcases found with found | found <;> simp only [delivered, found]
  -- data that are always in the buffer
  have kept {size : Nat} (has : HasData buffPtr size) (moved : buffPtr.move size = words)
      (same : delivered host sd (.connectInfo code value buffPtr) =
        .connectInfo code value buffPtr) :
      ReadsBack host sd (.connectInfo code value buffPtr)
        ([kDslConnectInfoStatus, code, value] ++ words)
        (.connectInfo code value (.words (load src 3 size)), 3 + size, none) := by
    obtain ⟨eq, size_eq⟩ := has.move
    rw [moved] at eq size_eq
    rw [data.load_eq size_eq]
    exact .kept (by rw [same, eq]) (size_eq ▸ len)
  rw [connectWellFormed] at wf
  rw [flattenConnectInfo] at flat
  rw [unflattenConnectInfo, src_code, src_value]
  cases found : connectCase code with
  | bytes =>
    simp only [found, checkAvail_eq_some] at wf flat
    exact exchanged wf.2 flat.2 (Or.inl found)
  | shorts =>
    simp only [found, checkAvail_eq_some] at wf flat
    exact exchanged wf.2 flat.2 (Or.inr found)
  | codingParams | monitoring =>
    simp only [found, checkAvail_eq_some] at wf flat
    exact kept wf flat.2 (by simp only [delivered, found])
  | carrEdge =>
    simp only [found, some.injEq] at wf flat
    exact kept wf flat (by simp only [delivered, found])
  | p3CodingParams =>
    simp only [found, checkAvail_eq_some] at wf flat
    exact kept wf.2 flat.2 (by simp only [delivered, found])
  | channel =>
    simp only [found, some.injEq] at wf flat
    subst flat
    simp only [Reads.cons, Reads.nil, and_true] at data
    exact .kept (by simp only [delivered, found, data]) rfl
  | plain =>
    simp only [found, some.injEq] at flat
    subst flat
    exact .kept (by simp only [delivered, found]) rfl

theorem eoc_reads {msg : Option (UInt32 × BuffPtr)}
    (wf : (DslStatusStruct.eoc value msg).WellFormed)
    (flat : flattenStatus (.eoc value msg) avail = some words) (reads : Reads src 0 words) :
    ReadsBack host sd (.eoc value msg) words
      ((unflattenEoc host src).1, (unflattenEoc host src).2, none) := by
  by_cases plain : signed value < signed kDslClearEocFirstCmd
  · rw [flattenStatus, if_pos plain, some.injEq] at flat
    subst flat
    simp only [Reads.cons, Reads.nil, Nat.zero_add, and_true] at reads
    rw [unflattenEoc, reads.2, if_pos plain]
    exact .kept (by rw [delivered, if_pos plain]) rfl
  · obtain ⟨msgType, dataPtr, rfl, data⟩ := wf (not_lt.mp plain)
    rw [flattenStatus, if_neg plain, getD_some] at flat
    dsimp only at flat
    by_cases copied : isVolatile msgType = true
    · rw [if_pos copied] at data
      rw [if_pos copied, checkAvail_eq_some] at flat
      obtain ⟨-, rfl⟩ := flat
      obtain ⟨-, src_value, src_type, tail⟩ := Reads.three.mp reads
      obtain ⟨eq, size_eq⟩ := data.move
      have same : delivered host sd (.eoc value (some (msgType, dataPtr))) =
          .eoc value (some (msgType, dataPtr)) := by
        simp only [delivered, if_neg plain, map_some, if_pos copied]
      rw [unflattenEoc, src_value, src_type, if_neg plain]
      dsimp only
      rw [if_pos copied, tail.load_eq size_eq, ← eq]
      refine .kept same.symm ?_
      rw [length_append, size_eq]
      rfl
    · rw [if_neg copied] at data
      rw [if_neg copied, some.injEq] at flat
      subst flat
      simp only [Reads.cons, Reads.nil, Nat.zero_add, Nat.reduceAdd, and_true] at reads
      obtain ⟨-, src_value, src_type, src_addr⟩ := reads
      rw [unflattenEoc, src_value, src_type, src_addr, if_neg plain]
      rw [if_neg copied]
      refine .kept ?_ rfl
      simp only [delivered, if_neg plain, map_some, if_neg copied]

theorem eq_bertResult (found : atmCase code = .bertResult) :
    code = kAtmStatBertResult := by
  by_contra other
  rw [atmCase, if_neg other] at found
  split at found
  · cases found
  · grind

theorem atm_reads {param : AtmParam} (wf : atmWellFormed code param)
    (carried : (atmCase code).Carried)
    (flat : flattenAtm code value param avail = some words)
    (reads : Reads src 0 ([kAtmStatus, code, value] ++ words)) :
    ReadsBack host sd (.atm code value param) ([kAtmStatus, code, value] ++ words)
      ((unflattenAtm host src).1, (unflattenAtm host src).2, none) := by
  obtain ⟨-, src_code, src_value, data⟩ := Reads.three.mp reads
  rw [atmWellFormed] at wf
  rw [flattenAtm] at flat
  rw [unflattenAtm, src_code, src_value]
  -- no words follow, whether or not the code is one of the ATM layer
  have no_words (plain : flattenAtmSlow code value param (avail - 3) = some [])
      (other : atmCase code ≠ .bertResult) : words = [] := by
    rw [plain] at flat
    split at flat
    next =>
      split at flat
      next bert => exact absurd (congrArg atmCase bert) other
      next => exact (some.inj flat).symm
    next => exact (some.inj flat).symm
  cases found : atmCase code with
  | vcCreated => exact absurd found carried.1
  | oamCell => exact absurd found carried.2.1
  | packet => exact absurd found carried.2.2
  | bertResult =>
    rw [found] at wf
    obtain ⟨bits, rfl⟩ := wf
    obtain rfl := eq_bertResult found
    rw [if_pos (by decide), if_pos rfl, some.injEq, AtmParam.words] at flat
    subst flat
    simp only [Reads.cons, Reads.nil, and_true] at data
    exact .kept (by simp only [delivered, found, data]) rfl
  | counters | plain =>
    obtain rfl := no_words (by simp only [flattenAtmSlow, found]) (by simp [found])
    exact .kept (by simp only [delivered, found]) rfl

theorem snrMargin_reads {a b c d e nCarriers : UInt32}
    (has : HasData buffPtr (shortWords nCarriers))
    (flat : words = [kDslShowtimeSNRMarginInfo, a, b, c, d, e, nCarriers] ++
      buffPtr.move (shortWords nCarriers))
    (reads : Reads src 0 words) :
    ReadsBack host sd (.snrMargin a b c d e nCarriers buffPtr) words
      (.snrMargin (src 1) (src 2) (src 3) (src 4) (src 5)
        (takeData sd src 7 (shortWords (src 6))).1 (takeData sd src 7 (shortWords (src 6))).2.1,
        7 + shortWords (src 6), (takeData sd src 7 (shortWords (src 6))).2.2) := by
  subst flat
  simp only [cons_append, nil_append, Reads.cons, Nat.zero_add, Nat.reduceAdd] at reads
  obtain ⟨-, src_a, src_b, src_c, src_d, src_e, src_n, data⟩ := reads
  obtain ⟨eq, size_eq⟩ := has.move
  rw [src_a, src_b, src_c, src_d, src_e, src_n]
  refine .exchanged (.snrMargin a b c d e) size_eq data ?_ ?_ (by omega)
  · rw [src_n, ← eq, delivered]
  · rw [length_append, size_eq]
    rfl

theorem eoc_first {msg : Option (UInt32 × BuffPtr)}
    (flat : flattenStatus (.eoc value msg) avail = some words) (reads : Reads src 0 words) :
    src 0 = kDslReceivedEocCommand := by
  rw [flattenStatus] at flat
  split at flat
  next =>
    obtain rfl := some.inj flat
    exact (Reads.cons.mp reads).1
  next =>
    dsimp only at flat
    split at flat
    next =>
      obtain ⟨-, rfl⟩ := checkAvail_eq_some.mp flat
      exact (Reads.cons.mp reads).1
    next =>
      obtain rfl := some.inj flat
      exact (Reads.cons.mp reads).1

theorem toNat_ofNat_length {args : List UInt32} (small : args.length < 2 ^ 32) :
    (UInt32.ofNat args.length).toNat = args.length := by
  exact Nat.mod_eq_of_lt small

theorem statusCase_g997 : statusCase kDslG997Status = .g997 := by decide

theorem statusCase_printf : statusCase kDslPrintfStatus = .printf := by decide

theorem statusCase_exception : statusCase kDslExceptionStatus = .exception := by decide

/-! ## All the cases -/

theorem unflattenBody_reads (wf : status.WellFormed) (carried : status.Carried)
    (flat : flattenStatus status avail = some words) (small : avail < 2 ^ 32)
    (reads : Reads src 0 words) : ReadsBack host sd status words (unflattenBody host sd src) := by
  cases status with
  | training | dspControl | oemDataAddr | dataAvail | pwrMgr =>
    obtain rfl := some.inj flat
    simp only [Reads.cons, Reads.nil, Nat.zero_add, Nat.reduceAdd, and_true] at reads
    rw [unflattenBody, reads.1]
    exact .kept (by simp only [reads]; rfl) rfl
  | connectInfo code value buffPtr =>
    obtain ⟨data, data_flat, rfl⟩ := map_eq_some_iff.mp flat
    rw [unflattenBody, (Reads.cons.mp reads).1]
    exact connectInfo_reads wf data_flat reads
  | snrMargin a b c d e nCarriers buffPtr =>
    obtain ⟨-, rfl⟩ := checkAvail_eq_some.mp flat
    rw [unflattenBody, (Reads.cons.mp reads).1]
    exact snrMargin_reads wf.2 rfl reads
  | eoc value msg =>
    rw [unflattenBody, eoc_first flat reads]
    exact eoc_reads wf flat reads
  | g997 code error =>
    obtain rfl := some.inj flat
    by_cases err : isFrameErr code = true
    · obtain ⟨e, rfl⟩ := wf err
      rw [if_pos err] at reads ⊢
      simp only [cons_append, nil_append, getD_some, Reads.cons, Reads.nil,
        Nat.zero_add, Nat.reduceAdd, and_true] at reads
      obtain ⟨first, src_code, src_error⟩ := reads
      rw [unflattenBody, first, src_code, src_error]
      refine ⟨?_, ?_, ?_⟩ <;> simp [statusCase_g997, err, delivered]
    · rw [if_neg err] at reads ⊢
      simp only [append_nil, Reads.cons, Reads.nil, Nat.zero_add, and_true] at reads
      rw [unflattenBody, reads.1, reads.2]
      refine ⟨?_, ?_, ?_⟩ <;> simp [statusCase_g997, err, delivered]
  | atm code value param =>
    obtain ⟨data, data_flat, rfl⟩ := map_eq_some_iff.mp flat
    rw [unflattenBody, (Reads.cons.mp reads).1]
    exact atm_reads wf carried data_flat reads
  | printf fmt args =>
    obtain ⟨enough, rfl⟩ := checkAvail_eq_some.mp flat
    obtain ⟨first, src_fmt, src_num, tail⟩ := Reads.three.mp reads
    rw [unflattenBody, first, statusCase_printf, src_fmt, src_num,
      toNat_ofNat_length (by omega)]
    dsimp only
    rw [tail.load_eq rfl]
    refine .kept rfl ?_
    rw [length_append]
    rfl
  | exception stack args =>
    obtain ⟨enough, rfl⟩ := checkAvail_eq_some.mp flat
    have stack_len : stack.length = 31 := wf
    rw [take_of_length_le stack_len.le] at reads ⊢
    obtain ⟨front, args_read⟩ := Reads.append.mp reads
    obtain ⟨front, count⟩ := Reads.append.mp front
    obtain ⟨code, stack_read⟩ := Reads.append.mp front
    simp only [length_append, length_singleton, stack_len, Reads.cons, Reads.nil,
      and_true, Nat.zero_add, Nat.reduceAdd] at code count stack_read args_read
    rw [unflattenBody, code, statusCase_exception, count, toNat_ofNat_length (by omega),
      stack_read.load_eq stack_len]
    dsimp only
    rw [args_read.load_eq rfl]
    refine .kept rfl ?_
    simp only [length_append, length_singleton, stack_len]
  | olr update msgType nCarrs l₀ l₁ b carrParamPtr =>
    obtain rfl := some.inj flat
    simp only [Reads.cons, Reads.nil, Nat.zero_add, Nat.reduceAdd, and_true] at reads
    obtain ⟨first, src_type, src_carrs, src_l₀, src_l₁, src_b, src_ptr⟩ := reads
    rw [unflattenBody, first, src_type, src_carrs, src_l₀, src_l₁, src_b, src_ptr,
      UInt16.toUInt16_toUInt32, UInt16.toUInt16_toUInt32]
    cases update with
    | true | false => exact .kept rfl rfl
  | other code value rest =>
    obtain rfl := some.inj flat
    simp only [Reads.cons, Reads.nil, Nat.zero_add, and_true] at reads
    have unknown : statusCase code = .other := wf
    rw [unflattenBody, reads.1, unknown]
    exact .kept (by rw [reads.2]; rfl) rfl

/-! ## Sizes -/

theorem BuffPtr.length_move_le (buffPtr : BuffPtr) (size : Nat) :
    (buffPtr.move size).length ≤ size := by
  cases buffPtr with
  | words data => exact length_take_le size data
  | addr a | unset => exact Nat.zero_le size

theorem flattenConnectInfo_length_le
    (flat : flattenConnectInfo code value buffPtr avail = some words)
    (enough : 7 ≤ avail) : (words.length : Int) + 3 ≤ avail := by
  have checked {size : Nat} (ok : checkAvail size (avail - 3) (buffPtr.move size) = some words) :
      (words.length : Int) + 3 ≤ avail := by
    obtain ⟨room, rfl⟩ := checkAvail_eq_some.mp ok
    have le := buffPtr.length_move_le size
    omega
  rw [flattenConnectInfo] at flat
  cases found : connectCase code with
  | bytes | shorts | codingParams | monitoring | p3CodingParams =>
    simp only [found] at flat
    exact checked flat
  | carrEdge =>
    simp only [found, some.injEq] at flat
    subst flat
    have le := buffPtr.length_move_le 2
    omega
  | channel | plain =>
    simp only [found, some.injEq] at flat
    subst flat
    simp only [length_singleton, length_nil]
    omega

theorem flattenAtm_length_le {param : AtmParam} (wf : atmWellFormed code param)
    (flat : flattenAtm code value param avail = some words)
    (enough : 7 ≤ avail) : (words.length : Int) + 3 ≤ avail := by
  rw [flattenAtm] at flat
  have few : param.words.length ≤ 4 := by cases param <;> simp [AtmParam.words]
  split at flat
  next =>
    split at flat
    next =>
      obtain rfl := some.inj flat
      omega
    next =>
      rw [flattenAtmSlow] at flat
      rw [atmWellFormed] at wf
      cases found : atmCase code with
      | vcCreated =>
        simp only [found, checkAvail_eq_some] at flat
        obtain ⟨room, rfl⟩ := flat
        rw [length_cons]
        omega
      | oamCell =>
        simp only [found, some.injEq] at flat
        subst flat
        omega
      | packet =>
        simp only [found, checkAvail_eq_some] at flat wf
        obtain ⟨mid, aalType, length, framePtr, rfl, -, -⟩ := wf
        obtain ⟨room, rfl⟩ := flat
        have le := framePtr.length_move_le (frameWords length)
        simp only [AtmParam.words, AtmParam.frameLength, AtmParam.framePtr, length_append,
          length_cons, length_nil] at room ⊢
        omega
      | bertResult | counters | plain =>
        simp only [found, some.injEq] at flat
        subst flat
        simp only [length_nil]
        omega
  next =>
    obtain rfl := some.inj flat
    simp only [length_nil]
    omega

/-- **A status that is written fits**, when there is room for the seven words of the longest one
that is not checked. -/
theorem flattenStatus_length_le (wf : status.WellFormed)
    (flat : flattenStatus status avail = some words)
    (enough : 7 ≤ avail) : (words.length : Int) ≤ avail := by
  cases status with
  | connectInfo code value buffPtr =>
    obtain ⟨data, data_flat, rfl⟩ := map_eq_some_iff.mp flat
    have le := flattenConnectInfo_length_le data_flat enough
    simp only [length_append, length_cons, length_nil]
    omega
  | atm code value param =>
    obtain ⟨data, data_flat, rfl⟩ := map_eq_some_iff.mp flat
    have le := flattenAtm_length_le wf data_flat enough
    simp only [length_append, length_cons, length_nil]
    omega
  | snrMargin a b c d e nCarriers buffPtr =>
    obtain ⟨room, rfl⟩ := checkAvail_eq_some.mp flat
    have le := buffPtr.length_move_le (shortWords nCarriers)
    simp only [length_append, length_cons, length_nil]
    omega
  | eoc value msg =>
    rw [flattenStatus] at flat
    split at flat
    next =>
      obtain rfl := some.inj flat
      simp only [length_cons, length_nil]
      omega
    next =>
      dsimp only at flat
      split at flat
      next =>
        obtain ⟨room, rfl⟩ := checkAvail_eq_some.mp flat
        have le := (msg.getD (0, .unset)).2.length_move_le
          (byteWords ((msg.getD (0, .unset)).1 &&& kDslClearEocMsgLengthMask))
        simp only [length_append, length_cons, length_nil]
        omega
      next =>
        obtain rfl := some.inj flat
        simp only [length_cons, length_nil]
        omega
  | g997 code error =>
    obtain rfl := some.inj flat
    simp only [length_append, length_cons, length_nil]
    split <;> simp only [length_cons, length_nil] <;> omega
  | printf fmt args =>
    obtain ⟨room, rfl⟩ := checkAvail_eq_some.mp flat
    simp only [length_append, length_cons, length_nil]
    omega
  | exception stack args =>
    obtain ⟨room, rfl⟩ := checkAvail_eq_some.mp flat
    have le := length_take_le 31 stack
    simp only [length_append, length_cons, length_nil]
    omega
  | training code value | dspControl code value buffPtr | oemDataAddr value
  | dataAvail dataPtr dataLen | olr update msgType nCarrs l₀ l₁ b carrParamPtr
  | pwrMgr msgType msgLen msgData | other code value rest =>
    obtain rfl := some.inj flat
    simp only [length_cons, length_nil]
    omega

/-! ## The round trip -/

theorem unflattenStatus_flattenStatus (wf : status.WellFormed) (carried : status.Carried)
    (flat : flattenStatus status avail = some words) (small : avail < 2 ^ 32)
    (reads : Reads src 0 words) :
    (unflattenStatus host sd src).status = delivered host sd status ∧
      (unflattenStatus host sd src).words = words.length ∧
      (unflattenStatus host sd src).statData = announced (delivered host sd status) ∧
      ∀ i word, (unflattenStatus host sd src).patch = some (i, word) → i < words.length := by
  have back : ReadsBack host sd status words (unflattenBody host sd src) :=
    unflattenBody_reads wf carried flat small reads
  refine ⟨back.status, back.size, ?_, back.patch⟩
  rw [← back.status]
  rfl

end EchoLife.Dsl
