import EchoLife.Firmware.Update

/-!
# The boot line after an update

The boot loader looks for the first `p=` in the boot line, the update for the first `p=` that asks
for another image than the latest one, and replaces its letter. `bootPartition_updated` says that
after the update the boot loader finds a request for the latest image.
-/

namespace EchoLife.Firmware

open List Option ByteStore EchoLife.Flash

theorem findBootPartition_lt {accept : UInt8 → Bool} {text : List UInt8} {i k : Nat}
    (found : findBootPartition accept text = some i) (late : 2 ≤ k) (nul : text[k]? = some 0) :
    i + 2 < k := by
  induction text using findBootPartition.induct accept generalizing i k with
  | case1 p0 p1 rest =>
    cases found
  | case2 p0 p1 p2 rest nonzero here =>
    rw [findBootPartition, if_neg nonzero, if_pos here] at found
    cases found
    rcases late.lt_or_eq with lt | rfl
    · exact lt
    · exact absurd (some_inj.mp nul) nonzero
  | case3 p0 p1 p2 rest nonzero elsewhere ih =>
    rw [findBootPartition, if_neg nonzero, if_neg elsewhere] at found
    obtain ⟨j, later, rfl⟩ := map_eq_some_iff.mp found
    obtain ⟨k, rfl⟩ : ∃ m, k = m + 1 := ⟨k - 1, by omega⟩
    rcases late.lt_or_eq with lt | last
    · have := ih later (by omega) nul
      omega
    · rw [← last] at nul
      exact absurd (some_inj.mp nul) nonzero
  | case4 text short =>
    rw [findBootPartition] at found
    · cases found
    · exact short

theorem findBootPartition_latest {text : List UInt8} {j : Nat}
    (none : findBootPartition (fun p2 => p2 ≠ bootLatestImage) text = none)
    (found : findBootPartition (fun _ => true) text = some j) :
    text.getD (j + 2) 0 = bootLatestImage := by
  induction text using findBootPartition.induct (fun _ => true) generalizing j with
  | case1 p0 p1 rest =>
    cases found
  | case2 p0 p1 p2 rest nonzero here =>
    rw [findBootPartition, if_neg nonzero, if_pos here] at found
    cases found
    by_contra other
    rw [findBootPartition, if_neg nonzero,
      if_pos ⟨here.1, here.2.1, decide_eq_true other⟩] at none
    cases none
  | case3 p0 p1 p2 rest nonzero elsewhere ih =>
    rw [findBootPartition, if_neg nonzero, if_neg elsewhere] at found
    obtain ⟨i, later, rfl⟩ := map_eq_some_iff.mp found
    rw [findBootPartition, if_neg nonzero,
      if_neg (fun h => elsewhere ⟨h.1, h.2.1, rfl⟩)] at none
    exact ih (map_eq_none_iff.mp none) later
  | case4 text short =>
    rw [findBootPartition] at found
    · cases found
    · exact short

theorem findBootPartition_replaced {text text' : List UInt8} {i : Nat}
    (other : findBootPartition (fun p2 => p2 ≠ bootLatestImage) text = some i)
    (same : text'.take (i + 3) = (text.set (i + 2) bootLatestImage).take (i + 3)) :
    ∃ j, findBootPartition (fun _ => true) text' = some j ∧
      text'.getD (j + 2) 0 = bootLatestImage := by
  induction text using findBootPartition.induct (fun p2 => p2 ≠ bootLatestImage)
    generalizing i text' with
  | case1 p0 p1 rest =>
    cases other
  | case2 p0 p1 p2 rest nonzero here =>
    rw [findBootPartition, if_neg nonzero, if_pos here] at other
    cases other
    match text', same with
    | q0 :: q1 :: q2 :: text', same =>
      obtain ⟨rfl, rfl, rfl⟩ := same
      refine ⟨0, ?_, rfl⟩
      rw [findBootPartition, if_neg (by decide), if_pos ⟨here.1, here.2.1, rfl⟩]
  | case3 p0 p1 p2 rest nonzero elsewhere ih =>
    rw [findBootPartition, if_neg nonzero, if_neg elsewhere] at other
    obtain ⟨i, later, rfl⟩ := map_eq_some_iff.mp other
    match text', same with
    | q0 :: q1 :: q2 :: text', same =>
      have first : q0 = p0 ∧ q1 = p1 ∧ q2 = p2 ∧ (q1 :: q2 :: text').take (i + 3) =
          ((p1 :: p2 :: rest).set (i + 2) bootLatestImage).take (i + 3) := by
        simp only [take_succ_cons, set_cons_succ, cons.injEq] at same ⊢
        tauto
      obtain ⟨rfl, rfl, rfl, tail⟩ := first
      obtain ⟨j, found, latest⟩ := ih later tail
      rw [findBootPartition, if_neg nonzero]
      by_cases here : q0 = 0x70 ∧ q1 = 0x3D
      · grind
      · grind
  | case4 text short =>
    rw [findBootPartition] at other
    · cases other
    · exact short

theorem getElem?_nvramLatest {nvram : List UInt8} (length : nvram.length = sizeofNvramData)
    (i : Nat) {x : Nat} (inside : x < ulCheckSumAt) :
    (nvramLatest nvram i)[x]? = (nvram.set (szBootlineAt + (i + 2)) bootLatestImage)[x]? := by
  have front := congrArg (fun l : List UInt8 => l[x]?) (take_nvramLatest length i)
  rwa [getElem?_take_of_lt inside, getElem?_take_of_lt inside] at front

theorem bootPartition_updated (stack : List UInt8) {chip t : Chip} {k : Nat} (late : 2 ≤ k)
    (inside : szBootlineAt + k < ulCheckSumAt)
    (nul : (nvramData chip)[szBootlineAt + k]? = some 0)
    (after : nvramData t = match otherPartition stack (nvramData chip) with
      | none => nvramData chip
      | some i => nvramLatest (nvramData chip) i) :
    bootPartition stack t = bootLatestImage := by
  have length := length_nvramData chip
  have small : ulCheckSumAt < sizeofNvramData := by decide
  rw [bootPartition, after]
  cases other : otherPartition stack (nvramData chip) with
  | none =>
    cases found : findBootPartition (fun _ => true)
      ((nvramData chip ++ stack).drop szBootlineAt) with
    | none => rfl
    | some j => exact findBootPartition_latest other found
  | some i =>
    have before : i + 2 < k := by
      refine findBootPartition_lt other late ?_
      rw [getElem?_drop, getElem?_append_left (by omega), nul]
    have same : ((nvramLatest (nvramData chip) i ++ stack).drop szBootlineAt).take (i + 3) =
        (((nvramData chip ++ stack).drop szBootlineAt).set (i + 2) bootLatestImage).take
          (i + 3) := by
      refine ext_getElem? fun m => ?_
      by_cases early : m < i + 3
      · rw [getElem?_take_of_lt early, getElem?_take_of_lt early, getElem?_drop,
          getElem?_append_left (by rw [length_nvramLatest length]; omega),
          getElem?_nvramLatest length i (by omega), getElem?_set, getElem?_set,
          getElem?_drop, getElem?_append_left (by omega)]
        by_cases digit : i + 2 = m
        · grind
        · rw [if_neg (by omega), if_neg digit]
      · grind
    obtain ⟨j, found, latest⟩ := findBootPartition_replaced other same
    rw [found]
    exact latest

end EchoLife.Firmware
