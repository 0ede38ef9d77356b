import Mathlib

/-!
# Fields between separators

`strtok` takes the next field of a text as the function of C does, and `scan` gives a number of
fields to a check that may stop it. `Laid` says how a text is laid out in fields, which is possible
in at most one way (`Laid.unique`). A scan gives the fields of a text to the check (`Laid.scan`),
and only goes through if there are enough of them (`laid_of_scan`).
-/

namespace Fields

open List

variable {α σ : Type}

/-! ## Layouts -/

section Layouts

variable (sep : α)

def spread (front : List (Nat × List α)) (last : Nat × List α) : List α :=
  (front.flatMap fun piece => replicate piece.1 sep ++ (piece.2 ++ [sep])) ++
    (replicate last.1 sep ++ last.2)

structure Laid (front : List (Nat × List α)) (last : Nat × List α) (rest text : List α) : Prop where
  spreads : text = spread sep front last ++ rest
  stops : rest = [] ∨ rest.head? = some sep
  fields : ∀ piece ∈ front ++ [last], piece.2 ≠ [] ∧ sep ∉ piece.2

variable {sep} {front : List (Nat × List α)} {piece last : Nat × List α} {rest text : List α}

theorem spread_nil : spread sep [] last = replicate last.1 sep ++ last.2 := rfl

theorem spread_cons : spread sep (piece :: front) last =
    replicate piece.1 sep ++ (piece.2 ++ sep :: spread sep front last) := by
  simp [spread]

theorem Laid.tail (laid : Laid sep (piece :: front) last rest text) :
    ∃ behind, text = replicate piece.1 sep ++ (piece.2 ++ sep :: behind) ∧
      Laid sep front last rest behind := by
  refine ⟨spread sep front last ++ rest, ?_, rfl, laid.stops, ?_⟩
  · rw [laid.spreads, spread_cons]
    simp
  · intro p mem
    exact laid.fields p (mem_cons_of_mem _ mem)

theorem Laid.cons {behind : List α} (laid : Laid sep front last rest behind)
    (solid : piece.2 ≠ [] ∧ sep ∉ piece.2) :
    Laid sep (piece :: front) last rest
      (replicate piece.1 sep ++ (piece.2 ++ sep :: behind)) := by
  refine ⟨?_, laid.stops, ?_⟩
  · rw [spread_cons, laid.spreads]
    simp
  · intro p mem
    obtain rfl | mem := mem_cons.mp mem
    · exact solid
    · exact laid.fields p mem

theorem Laid.nil (laid : Laid sep [] last rest text) :
    text = replicate last.1 sep ++ (last.2 ++ rest) ∧ (last.2 ≠ [] ∧ sep ∉ last.2) := by
  refine ⟨?_, laid.fields last (by simp)⟩
  rw [laid.spreads, spread_nil, append_assoc]

theorem Laid.ne_nil (laid : Laid sep front last rest text) : text ≠ [] := by
  intro empty
  have parts := laid.spreads.symm.trans empty
  rw [spread, append_eq_nil_iff, append_eq_nil_iff, append_eq_nil_iff] at parts
  exact (laid.fields last (by simp)).1 parts.1.2.2

theorem intercalate_eq_spread (front : List (List α)) (last : List α) :
    [sep].intercalate (front ++ [last]) = spread sep (front.map (Prod.mk 0)) (0, last) := by
  induction front with
  | nil => simp [spread]
  | cons field front ih =>
    rw [map_cons, spread_cons, ← ih, cons_append,
      intercalate_cons_of_ne_nil (by simp)]
    simp

theorem intercalate_concat (front : List (List α)) (last : List α) :
    [sep].intercalate (front ++ [last]) = front.flatMap (· ++ [sep]) ++ last := by
  rw [intercalate_eq_spread, spread, flatMap_map]
  simp

theorem forall_mem_pieces {P : Nat × List α → Prop} {front : List (List α)} {last : List α} :
    (∀ piece ∈ front.map (Prod.mk 0) ++ [(0, last)], P piece) ↔
      ∀ field ∈ front ++ [last], P (0, field) := by
  rw [← map_singleton, ← map_append, forall_mem_map]

theorem laid_intercalate {front : List (List α)} {last : List α}
    (solid : ∀ field ∈ front ++ [last], field ≠ [] ∧ sep ∉ field) :
    Laid sep (front.map (Prod.mk 0)) (0, last) [] ([sep].intercalate (front ++ [last])) := by
  refine ⟨by rw [intercalate_eq_spread, append_nil], .inl rfl, ?_⟩
  exact forall_mem_pieces.mpr solid

theorem Laid.intercalate (laid : Laid sep front last rest text)
    (single : ∀ piece ∈ front ++ [last], piece.1 = 0) :
    text = [sep].intercalate (front.map Prod.snd ++ [last.2]) ++ rest := by
  have front_eq : (front.map Prod.snd).map (Prod.mk 0) = front := by
    rw [List.map_map]
    refine (map_congr_left fun piece mem => ?_).trans (map_id front)
    exact Prod.ext (single piece (mem_append_left _ mem)).symm rfl
  have last_eq : (0, last.2) = last := Prod.ext (single last (by simp)).symm rfl
  rw [intercalate_eq_spread, front_eq, last_eq, laid.spreads]

end Layouts

variable [DecidableEq α] (sep : α)

/-! ## Scanning -/

def strtok (text : List α) : Option (List α × List α) :=
  match text.dropWhile (· = sep) with
  | [] => none
  | c :: text =>
    some ((c :: text).takeWhile (· ≠ sep), ((c :: text).dropWhile (· ≠ sep)).tail)

def scan (check : σ → List α → Option σ) : Nat → σ → List α → Option σ
  | 0, state, _ => some state
  | n + 1, state, text =>
    match strtok sep text with
    | some (field, rest) => (check state field).bind fun state => scan check n state rest
    | none => none

variable {sep}

/-! ## One field -/

section OneField

variable {run : Nat} {field rest : List α}

theorem dropWhile_run (solid : field ≠ [] ∧ sep ∉ field) :
    (replicate run sep ++ (field ++ rest)).dropWhile (· = sep) = field ++ rest := by
  obtain ⟨c, field, rfl⟩ := exists_cons_of_ne_nil solid.1
  have other : c ≠ sep := fun same => solid.2 (by simp [same])
  rw [dropWhile_append_of_pos (by simp), cons_append,
    dropWhile_cons_of_neg (by simpa using other)]

theorem takeWhile_run (solid : field ≠ [] ∧ sep ∉ field) :
    (replicate run sep ++ (field ++ rest)).takeWhile (· = sep) = replicate run sep := by
  obtain ⟨c, field, rfl⟩ := exists_cons_of_ne_nil solid.1
  have other : c ≠ sep := fun same => solid.2 (by simp [same])
  rw [takeWhile_append_of_pos (by simp), cons_append,
    takeWhile_cons_of_neg (by simpa using other), append_nil]

theorem takeWhile_field (plain : sep ∉ field) (stops : rest = [] ∨ rest.head? = some sep) :
    (field ++ rest).takeWhile (· ≠ sep) = field := by
  have inside : ∀ c ∈ field, decide (c ≠ sep) = true := by
    intro c mem
    exact decide_eq_true fun same => plain (same ▸ mem)
  rw [takeWhile_append_of_pos inside]
  cases rest with
  | nil => simp
  | cons c rest =>
    have same : c = sep := by simpa using stops
    simp [same]

theorem dropWhile_field (plain : sep ∉ field) (stops : rest = [] ∨ rest.head? = some sep) :
    (field ++ rest).dropWhile (· ≠ sep) = rest := by
  have both := takeWhile_append_dropWhile (p := (· ≠ sep)) (l := field ++ rest)
  rw [takeWhile_field plain stops] at both
  exact append_cancel_left both

theorem stops_dropWhile (text : List α) :
    text.dropWhile (· ≠ sep) = [] ∨ (text.dropWhile (· ≠ sep)).head? = some sep := by
  have stop := head?_dropWhile_not (fun c => decide (c ≠ sep)) text
  cases behind : text.dropWhile (· ≠ sep) with
  | nil => exact .inl rfl
  | cons c rest =>
    rw [behind] at stop
    exact .inr (by simpa using stop)

theorem strtok_run (solid : field ≠ [] ∧ sep ∉ field) (stops : rest = [] ∨ rest.head? = some sep) :
    strtok sep (replicate run sep ++ (field ++ rest)) = some (field, rest.tail) := by
  have taken := takeWhile_field solid.2 stops
  have dropped := dropWhile_field solid.2 stops
  obtain ⟨c, field, rfl⟩ := exists_cons_of_ne_nil solid.1
  rw [strtok, dropWhile_run solid]
  simp only [cons_append] at taken dropped ⊢
  rw [taken, dropped]

theorem strtok_eq_some {text after : List α} (found : strtok sep text = some (field, after)) :
    ∃ run rest, text = replicate run sep ++ (field ++ rest) ∧ (field ≠ [] ∧ sep ∉ field) ∧
      (rest = [] ∨ rest.head? = some sep) ∧ after = rest.tail := by
  have whole := takeWhile_append_dropWhile (p := (· = sep)) (l := text)
  have run : text.takeWhile (· = sep) = replicate (text.takeWhile (· = sep)).length sep := by
    refine eq_replicate_of_mem fun c mem => ?_
    simpa using mem_takeWhile_imp mem
  rw [strtok] at found
  split at found
  · cases found
  next c more black =>
    obtain ⟨rfl, rfl⟩ := Prod.mk.inj (Option.some.inj found)
    have first : c ≠ sep := by
      have := head?_dropWhile_not (fun c => decide (c = sep)) text
      simpa [black] using this
    refine ⟨(text.takeWhile (· = sep)).length, (c :: more).dropWhile (· ≠ sep), ?_, ⟨?_, ?_⟩,
      ?_, rfl⟩
    · rw [takeWhile_append_dropWhile, ← run, ← black, whole]
    · simp [first]
    · intro mem
      simpa using mem_takeWhile_imp mem
    · exact stops_dropWhile _

end OneField

/-! ## Several fields -/

section SeveralFields

variable {front front' : List (Nat × List α)} {last last' : Nat × List α} {rest rest' text : List α}

theorem run_unique {run run' : Nat} {field field' : List α}
    (solid : field ≠ [] ∧ sep ∉ field) (solid' : field' ≠ [] ∧ sep ∉ field')
    (stops : rest = [] ∨ rest.head? = some sep) (stops' : rest' = [] ∨ rest'.head? = some sep)
    (same : replicate run sep ++ (field ++ rest) =
      replicate run' sep ++ (field' ++ rest')) :
    run = run' ∧ field = field' ∧ rest = rest' := by
  have runs : replicate run sep = replicate run' sep := by
    have first : (replicate run sep ++ (field ++ rest)).takeWhile (· = sep) =
        replicate run sep := takeWhile_run solid
    rw [same, takeWhile_run solid'] at first
    exact first.symm
  have count : run = run' := by simpa using congrArg List.length runs
  have behind : field ++ rest = field' ++ rest' := by
    have second : (replicate run sep ++ (field ++ rest)).dropWhile (· = sep) =
        field ++ rest := dropWhile_run solid
    rw [same, dropWhile_run solid'] at second
    exact second.symm
  refine ⟨count, ?_, ?_⟩
  · rw [← takeWhile_field solid.2 stops, behind, takeWhile_field solid'.2 stops']
  · rw [← dropWhile_field solid.2 stops, behind, dropWhile_field solid'.2 stops']

theorem Laid.unique (laid : Laid sep front last rest text)
    (laid' : Laid sep front' last' rest' text) (long : front.length = front'.length) :
    front = front' ∧ last = last' ∧ rest = rest' := by
  induction front generalizing front' text with
  | nil =>
    obtain rfl : front' = [] := eq_nil_of_length_eq_zero long.symm
    obtain ⟨text_eq, solid⟩ := laid.nil
    obtain ⟨text_eq', solid'⟩ := laid'.nil
    obtain ⟨run, field, same⟩ :=
      run_unique solid solid' laid.stops laid'.stops (text_eq.symm.trans text_eq')
    exact ⟨rfl, Prod.ext run field, same⟩
  | cons piece front ih =>
    obtain ⟨piece', front', rfl⟩ := exists_cons_of_length_eq_add_one long.symm
    obtain ⟨behind, text_eq, inner⟩ := laid.tail
    obtain ⟨behind', text_eq', inner'⟩ := laid'.tail
    obtain ⟨run, field, same⟩ := run_unique (laid.fields piece (by simp))
      (laid'.fields piece' (by simp)) (.inr rfl) (.inr rfl) (text_eq.symm.trans text_eq')
    obtain rfl : behind = behind' := (cons.inj same).2
    obtain ⟨rfl, rfl, rfl⟩ := ih inner inner' (Nat.succ.inj long)
    exact ⟨by rw [Prod.ext run field], rfl, rfl⟩

theorem Laid.append (laid : Laid sep front last rest text) (more : List α) :
    ∃ field rest', last.2 ++ (rest ++ more) = field ++ rest' ∧ last.2 <+: field ∧
      Laid sep front (last.1, field) rest' (text ++ more) := by
  have front_fields (p : Nat × List α) (mem : p ∈ front) := laid.fields p (by simp [mem])
  have last_field := laid.fields last (by simp)
  cases rest with
  | nil =>
    refine ⟨last.2 ++ more.takeWhile (· ≠ sep), more.dropWhile (· ≠ sep), ?_,
      prefix_append _ _, ?_, ?_, ?_⟩
    · rw [append_assoc, takeWhile_append_dropWhile, nil_append]
    · rw [laid.spreads]
      simp [spread]
    · exact stops_dropWhile more
    · intro p mem
      obtain mem | mem := mem_append.mp mem
      · exact front_fields p mem
      · obtain rfl := mem_singleton.mp mem
        refine ⟨by simp [last_field.1], ?_⟩
        intro inside
        obtain inside | inside := mem_append.mp inside
        · exact last_field.2 inside
        · simpa using mem_takeWhile_imp inside
  | cons c rest =>
    refine ⟨last.2, c :: rest ++ more, rfl, prefix_rfl, ?_, ?_, laid.fields⟩
    · rw [laid.spreads, append_assoc]
    · simpa using laid.stops

theorem exists_intercalate_iff {P : List α → Prop}
    (plain : ∀ field, P field → sep ∉ field) {n : Nat} :
    (∃ front last, front.length = n ∧ text = [sep].intercalate (front ++ [last]) ∧
        ∀ field ∈ front ++ [last], P field) ↔
      (text.splitOn sep).length = n + 1 ∧ ∀ field ∈ text.splitOn sep, P field := by
  constructor
  · rintro ⟨front, last, rfl, rfl, good⟩
    have fields : ([sep].intercalate (front ++ [last])).splitOn sep = front ++ [last] :=
      splitOn_intercalate _ (fun field mem => plain field (good field mem)) (by simp)
    rw [fields]
    exact ⟨by simp, good⟩
  · rintro ⟨long, good⟩
    have whole : [sep].intercalate (text.splitOn sep) = text := intercalate_splitOn sep
    obtain none | ⟨front, last, fields⟩ := eq_nil_or_concat (text.splitOn sep)
    · simp [none] at long
    · grind

/-! ## Scans -/

variable {check : σ → List α → Option σ} {state : σ}

theorem Laid.scan (laid : Laid sep front last rest text) :
    scan sep check (front.length + 1) state text =
      ((front ++ [last]).map Prod.snd).foldlM check state := by
  induction front generalizing state text with
  | nil =>
    obtain ⟨text_eq, solid⟩ := laid.nil
    rw [text_eq, Fields.scan, length_nil, strtok_run solid laid.stops]
    cases check state last.2 <;> rfl
  | cons piece front ih =>
    obtain ⟨behind, text_eq, inner⟩ := laid.tail
    rw [text_eq, Fields.scan, length_cons,
      strtok_run (laid.fields piece (by simp)) (.inr rfl)]
    simp only [tail_cons, ih inner]
    rfl

theorem scan_intercalate {fields : List (List α)}
    (solid : ∀ field ∈ fields, field ≠ [] ∧ sep ∉ field) :
    scan sep check fields.length state ([sep].intercalate fields) = fields.foldlM check state := by
  obtain rfl | ⟨front, last, rfl⟩ := eq_nil_or_concat fields
  · rfl
  · rw [concat_eq_append] at solid ⊢
    have through : scan sep check ((front.map (Prod.mk 0)).length + 1) state
        ([sep].intercalate (front ++ [last])) =
          ((front.map (Prod.mk 0) ++ [(0, last)]).map Prod.snd).foldlM check state :=
      (laid_intercalate solid).scan
    simpa using through

theorem laid_of_scan {n : Nat} (through : (scan sep check (n + 1) state text).isSome) :
    ∃ front last rest, front.length = n ∧ Laid sep front last rest text := by
  induction n generalizing state text with
  | zero =>
    rw [scan] at through
    split at through
    next field after found =>
      obtain ⟨run, rest, text_eq, solid, stops, -⟩ := strtok_eq_some found
      refine ⟨[], (run, field), rest, rfl, ?_, stops, ?_⟩
      · rw [text_eq, spread_nil, append_assoc]
      · grind
    · cases through
  | succ n ih =>
    rw [scan] at through
    split at through
    next field after found =>
      obtain ⟨run, rest, text_eq, solid, stops, after_eq⟩ := strtok_eq_some found
      cases next_state : check state field with
      | none => simp [next_state] at through
      | some state' =>
        rw [next_state, Option.bind_some] at through
        obtain ⟨front, last, rest', long, laid⟩ := ih through
        -- there are more fields, so the rest does not end here
        have goesOn : rest = sep :: after := by
          cases rest with
          | nil =>
            subst after_eq
            exact absurd rfl laid.ne_nil
          | cons c rest =>
            obtain rfl : c = sep := by simpa using stops
            rw [after_eq, tail_cons]
        refine ⟨(run, field) :: front, last, rest', by simp [long], ?_⟩
        rw [text_eq, goesOn]
        exact laid.cons solid
    · cases through

theorem splitOn_run {run : Nat} {field : List α} (solid : field ≠ [] ∧ sep ∉ field)
    (stops : rest = [] ∨ rest.head? = some sep) :
    ((replicate run sep ++ (field ++ rest)).splitOn sep).filter (· ≠ []) =
      field :: (rest.tail.splitOn sep).filter (· ≠ []) := by
  have inside : ∀ c ∈ field, (c == sep) = false := by grind
  induction run with
  | zero =>
    rw [replicate_zero, nil_append]
    cases rest with
    | nil =>
      rw [append_nil, List.splitOn, splitOnP_eq_singleton inside]
      simp [solid.1, List.splitOn]
    | cons c rest =>
      obtain rfl : c = sep := by simpa using stops
      rw [List.splitOn, splitOnP_append_cons_of_forall_mem inside _ (beq_self_eq_true c)]
      simp [solid.1, List.splitOn]
  | succ run ih =>
    rw [replicate_succ, cons_append, List.splitOn, splitOnP_cons_eq_if_modifyHead,
      if_pos (beq_self_eq_true sep), filter_cons_of_neg (by simp)]
    exact ih

theorem splitOn_of_strtok_none (none : strtok sep text = none) :
    (text.splitOn sep).filter (· ≠ []) = [] := by
  have blank : ∀ c ∈ text, c = sep := by
    rw [strtok] at none
    split at none
    next empty => simpa using dropWhile_eq_nil_iff.mp empty
    next => cases none
  clear none
  induction text with
  | nil => simp [List.splitOn]
  | cons c text ih =>
    obtain rfl : c = sep := blank c (by simp)
    rw [List.splitOn, splitOnP_cons_eq_if_modifyHead, if_pos (beq_self_eq_true c),
      filter_cons_of_neg (by simp)]
    exact ih fun d mem => blank d (by simp [mem])

theorem scan_eq_splitOn (n : Nat) :
    scan sep check n state text =
      if n ≤ ((text.splitOn sep).filter (· ≠ [])).length then
        (((text.splitOn sep).filter (· ≠ [])).take n).foldlM check state
      else none := by
  induction n generalizing state text with
  | zero => rfl
  | succ n ih =>
    rw [scan]
    cases found : strtok sep text with
    | none =>
      rw [splitOn_of_strtok_none found]
      rfl
    | some result =>
      obtain ⟨field, after⟩ := result
      obtain ⟨run, rest, rfl, solid, stops, rfl⟩ := strtok_eq_some found
      rw [splitOn_run solid stops, length_cons, take_succ_cons, foldlM_cons]
      simp only [ih, Nat.add_le_add_iff_right]
      split
      · rfl
      · exact Option.bind_fun_none _

omit [DecidableEq α] in
theorem foldlM_isSome_iff {check : Unit → List α → Option Unit} (fields : List (List α)) :
    (fields.foldlM check ()).isSome ↔ ∀ field ∈ fields, (check () field).isSome := by
  induction fields with
  | nil => simp
  | cons field fields ih =>
    rw [foldlM_cons, forall_mem_cons, ← ih]
    cases check () field <;> simp

theorem scan_isSome_iff {check : Unit → List α → Option Unit} {n : Nat} :
    (scan sep check (n + 1) () text).isSome ↔
      ∃ front last rest, front.length = n ∧ Laid sep front last rest text ∧
        ∀ piece ∈ front ++ [last], (check () piece.2).isSome := by
  constructor
  · intro through
    obtain ⟨front, last, rest, rfl, laid⟩ := laid_of_scan through
    rw [laid.scan, foldlM_isSome_iff, forall_mem_map] at through
    exact ⟨front, last, rest, rfl, laid, through⟩
  · rintro ⟨front, last, rest, rfl, laid, checked⟩
    rw [laid.scan, foldlM_isSome_iff, forall_mem_map]
    exact checked

end SeveralFields

end Fields
