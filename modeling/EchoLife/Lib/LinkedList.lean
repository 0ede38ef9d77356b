import Mathlib

/-!
# Singly linked lists in a heap

A heap maps addresses to cells, each with an item and a pointer to the next cell. The loops count
their steps, and answer `none` when a pointer dangles or the count runs out.

`Chain heap head cells` says that `head` points to a list with these cells. `Chain.seek`,
`Chain.append`, `Chain.remove`, `Chain.setItem` and `Chain.release` are the rules for the
operations; each also says which cells stay as they are.
-/

namespace LinkedList

open List Option Function Prod LinkedList

variable {P α : Type}

structure Cell (P α : Type) where
  item : α
  next : Option P
  deriving Repr, DecidableEq

abbrev Heap (P α : Type) : Type := P → Option (Cell P α)

/-! ## Loops -/

section Loops

variable (heap : Heap P α) (stop : P → α → Bool)

def seek : (count : Nat) → (curr : Option P) → Option (Option P)
  | _, none => some none
  | 0, some _ => none
  | count + 1, some p =>
    match heap p with
    | none => none
    | some cell => if stop p cell.item then some (some p) else seek count cell.next

def seekPrev : (count : Nat) → (prev curr : Option P) → Option (Option P × Option P)
  | _, prev, none => some (prev, none)
  | 0, _, some _ => none
  | count + 1, prev, some p =>
    match heap p with
    | none => none
    | some cell =>
      if stop p cell.item then some (prev, some p) else seekPrev count (some p) cell.next

def seekLast : (count : Nat) → (curr : P) → Option P
  | 0, _ => none
  | count + 1, curr =>
    match heap curr with
    | none => none
    | some ⟨_, none⟩ => some curr
    | some ⟨_, some q⟩ => seekLast count q

def items : (count : Nat) → (curr : Option P) → Option (List α)
  | _, none => some []
  | 0, some _ => none
  | count + 1, some p =>
    match heap p with
    | none => none
    | some cell => (items count cell.next).map (cell.item :: ·)

end Loops

section Updates

variable [DecidableEq P]

def setNext (heap : Heap P α) (p : P) (next : Option P) : Option (Heap P α) :=
  (heap p).map fun cell => update heap p (some { cell with next })

def setItem (heap : Heap P α) (p : P) (item : α) : Option (Heap P α) :=
  (heap p).map fun cell => update heap p (some { cell with item })

def append (count : Nat) (heap : Heap P α) (head : Option P) (node : P) :
    Option (Heap P α × Option P) :=
  match head with
  | none => some (heap, some node)
  | some first => do
      let last ← seekLast heap count first
      let heap ← setNext heap last (some node)
      pure (heap, head)

def unlink (heap : Heap P α) (head : Option P) (prev curr : P) :
    Option (Heap P α × Option P) := do
  let cell ← heap curr
  let heap ← setNext heap prev cell.next
  let heap ← setNext heap curr none
  pure (heap, if head = some curr then cell.next else head)

/-- Take the first cell that meets a condition out of a list; the inner `none` says that there is no
such cell. -/
def remove (count : Nat) (heap : Heap P α) (head : Option P) (stop : P → α → Bool) :
    Option (Option (P × Heap P α × Option P)) :=
  match seekPrev heap stop count head head with
  | some (_, none) => some none
  | some (some prev, some curr) =>
    (unlink heap head prev curr).map fun (heap, head) => some (curr, heap, head)
  | _ => none

def release (dispose : α → Bool) :
    (count : Nat) → Heap P α → (head : Option P) → Option (Heap P α)
  | _, heap, none => some heap
  | 0, _, some _ => none
  | count + 1, heap, some p =>
    match heap p with
    | none => none
    | some cell =>
      if dispose cell.item then release dispose count (update heap p none) cell.next
      else none

end Updates

/-! ## Chains -/

inductive Segment (heap : Heap P α) : Option P → List (P × α) → Option P → Prop where
  | nil (head : Option P) : Segment heap head [] head
  | cons {p : P} {item : α} {next last : Option P} {rest : List (P × α)}
      (cell : heap p = some ⟨item, next⟩) (tail : Segment heap next rest last) :
      Segment heap (some p) ((p, item) :: rest) last

abbrev Chain (heap : Heap P α) (head : Option P) (cells : List (P × α)) : Prop :=
  Segment heap head cells none

variable {count : Nat} {p curr : P} {item : α}

section Chains

variable {heap heap' : Heap P α} {head mid last : Option P} {cells front back : List (P × α)}

theorem Segment.append (first : Segment heap head front mid) (second : Segment heap mid back last) :
    Segment heap head (front ++ back) last := by
  induction first with
  | nil => exact second
  | cons cell _ ih => exact .cons cell (ih second)

theorem Segment.split (whole : Segment heap head (front ++ back) last) :
    ∃ mid, Segment heap head front mid ∧ Segment heap mid back last := by
  induction front generalizing head with
  | nil => exact ⟨head, .nil head, whole⟩
  | cons c front ih =>
    cases whole with
    | cons cell tail =>
      obtain ⟨mid, first, second⟩ := ih tail
      exact ⟨mid, .cons cell first, second⟩

theorem Segment.congr (segment : Segment heap head cells last)
    (same : ∀ p ∈ cells.map fst, heap' p = heap p) : Segment heap' head cells last := by
  induction segment with
  | nil => exact .nil _
  | cons cell _ ih =>
    refine .cons ((same _ mem_cons_self).trans cell) (ih fun p mem => ?_)
    exact same p (mem_cons_of_mem _ mem)

theorem Chain.items_eq (chain : Chain heap head cells) (enough : cells.length ≤ count) :
    items heap count head = some (cells.map snd) := by
  induction cells generalizing head count with
  | nil =>
    cases chain
    cases count <;> rfl
  | cons c cells ih =>
    cases chain with
    | cons cell tail =>
      cases count with
      | zero => exact absurd enough (Nat.not_succ_le_zero _)
      | succ count =>
        have rest := ih tail (Nat.le_of_succ_le_succ enough)
        simp only [items, cell, rest, map_some, map_cons]

theorem Chain.unique {other : List (P × α)} (chain : Chain heap head cells)
    (chain' : Chain heap head other) : cells = other := by
  induction cells generalizing head other with
  | nil =>
    cases chain
    cases chain'
    rfl
  | cons c cells ih =>
    cases chain with
    | cons cell tail =>
      cases chain' with
      | cons cell' tail' =>
        rw [cell, some_inj, Cell.mk.injEq] at cell'
        obtain ⟨rfl, rfl⟩ := cell'
        rw [ih tail tail']

theorem Segment.head_eq {rest : List (P × α)}
    (segment : Segment heap head ((p, item) :: rest) last) :
    head = some p ∧ ∃ next, heap p = some ⟨item, next⟩ ∧ Segment heap next rest last := by
  cases segment with
  | cons cell tail => exact ⟨rfl, _, cell, tail⟩

theorem Chain.head_eq_first (chain : Chain heap head cells) : head = cells.head?.map fst := by
  cases chain <;> rfl

theorem Chain.nodup (chain : Chain heap head cells) : (cells.map fst).Nodup := by
  induction cells generalizing head with
  | nil => exact nodup_nil
  | cons c cells ih =>
    obtain ⟨rfl, next, cell, tail⟩ := Segment.head_eq chain
    refine nodup_cons.mpr ⟨fun again => ?_, ih tail⟩
    -- The list behind the second occurrence would be the whole list again.
    obtain ⟨⟨q, item'⟩, mem, rfl⟩ := mem_map.mp again
    obtain ⟨front, back, split⟩ := append_of_mem mem
    rw [split] at tail
    obtain ⟨mid, -, second⟩ := Segment.split tail
    obtain ⟨rfl, -⟩ := Segment.head_eq second
    have same := congrArg List.length (Chain.unique chain second)
    rw [split] at same
    simp only [length_cons, length_append] at same
    omega

open Segment

theorem Chain.cell (chain : Chain heap head cells) {p : P} {item : α} (mem : (p, item) ∈ cells) :
    ∃ next, heap p = some ⟨item, next⟩ := by
  obtain ⟨front, back, rfl⟩ := append_of_mem mem
  obtain ⟨mid, -, second⟩ := split chain
  obtain ⟨-, next, cell, -⟩ := head_eq second
  exact ⟨next, cell⟩

theorem Segment.last_cell (segment : Segment heap head (front ++ [(p, item)]) last) :
    Segment heap head front (some p) ∧ heap p = some ⟨item, last⟩ := by
  obtain ⟨mid, first, second⟩ := split segment
  obtain ⟨rfl, next, cell, tail⟩ := head_eq second
  cases tail
  exact ⟨first, cell⟩

theorem Chain.length_le [Fintype P] (chain : Chain heap head cells) :
    cells.length ≤ Fintype.card P := by
  rw [← length_map]
  exact chain.nodup.length_le_card

/-! ## Rules for the loops -/

private theorem exists_succ {n : Nat} (enough : n < count) : ∃ k, count = k + 1 ∧ n ≤ k :=
  ⟨count - 1, by omega, by omega⟩

variable (stop : P → α → Bool) {count : Nat}

theorem Chain.seek (chain : Chain heap head cells) (enough : cells.length ≤ count) :
    seek heap stop count head = some ((cells.find? fun c => stop c.1 c.2).map fst) := by
  induction cells generalizing head count with
  | nil =>
    cases chain
    cases count <;> rfl
  | cons c cells ih =>
    obtain ⟨p, item⟩ := c
    obtain ⟨rfl, next, cell, tail⟩ := head_eq chain
    obtain ⟨count, rfl, room⟩ := exists_succ enough
    rw [seek, cell]
    cases met : stop p item with
    | true => simp only [met, if_true, find?_cons_of_pos, map_some]
    | false =>
      simp only [met, Bool.false_eq_true, if_false, find?_cons_of_neg, not_false_eq_true]
      exact ih tail room

theorem Segment.seekPrev {prev : Option P}
    (segment : Segment heap head (front ++ (curr, item) :: back) last)
    (passed : ∀ c ∈ front, stop c.1 c.2 = false) (met : stop curr item = true)
    (enough : front.length < count) :
    seekPrev heap stop count prev head
      = some ((front.map fun c => some c.1).getLastD prev, some curr) := by
  induction front generalizing head count prev with
  | nil =>
    obtain ⟨rfl, next, cell, -⟩ := head_eq segment
    obtain ⟨count, rfl, room⟩ := exists_succ enough
    rw [seekPrev, cell]
    simp only [met, if_true, map_nil, getLastD_nil]
  | cons c front ih =>
    obtain ⟨p, other⟩ := c
    obtain ⟨rfl, next, cell, tail⟩ := head_eq segment
    obtain ⟨count, rfl, room⟩ := exists_succ enough
    have unmet : stop p other = false := passed _ mem_cons_self
    rw [seekPrev, cell]
    simp only [unmet, Bool.false_eq_true, if_false, map_cons, getLastD_cons]
    exact ih tail (fun c mem => passed c (mem_cons_of_mem _ mem)) room

theorem Chain.seekPrev_none {q : Option P} (chain : Chain heap head cells)
    (passed : ∀ c ∈ cells, stop c.1 c.2 = false) (enough : cells.length ≤ count) :
    ∃ prev', seekPrev heap stop count q head = some (prev', none) := by
  induction cells generalizing head count q with
  | nil =>
    cases chain
    exact ⟨q, by cases count <;> rfl⟩
  | cons c cells ih =>
    obtain ⟨p, item⟩ := c
    obtain ⟨rfl, next, cell, tail⟩ := head_eq chain
    obtain ⟨count, rfl, room⟩ := exists_succ enough
    have unmet : stop p item = false := passed _ mem_cons_self
    rw [seekPrev, cell]
    simp only [unmet, Bool.false_eq_true, if_false]
    exact ih tail (fun c mem => passed c (mem_cons_of_mem _ mem)) room

theorem Chain.seekLast {first last : P} (chain : Chain heap (some first) (front ++ [(last, item)]))
    (enough : front.length < count) : seekLast heap count first = some last := by
  induction front generalizing first count with
  | nil =>
    obtain ⟨same, next, cell, tail⟩ := head_eq chain
    cases same
    cases tail
    obtain ⟨count, rfl, room⟩ := exists_succ enough
    rw [seekLast, cell]
  | cons c front ih =>
    obtain ⟨same, next, cell, tail⟩ := head_eq chain
    cases same
    obtain ⟨count, rfl, room⟩ := exists_succ enough
    cases next with
    | none =>
      cases front <;> cases tail
    | some q =>
      rw [seekLast, cell]
      exact ih tail room

end Chains

/-! ## Rules for the updates -/

section Rules

variable [DecidableEq P] {heap : Heap P α} {head : Option P} {cells front back : List (P × α)}

theorem Segment.update {last : Option P} (segment : Segment heap head cells last)
    (outside : p ∉ cells.map fst) (cell : Option (Cell P α)) :
    Segment (update heap p cell) head cells last := by
  refine segment.congr fun q mem => update_of_ne ?_ ..
  rintro rfl
  exact outside mem

theorem Chain.setItem (chain : Chain heap head (front ++ (p, item) :: back)) (item' : α) :
    ∃ heap', setItem heap p item' = some heap' ∧ Chain heap' head (front ++ (p, item') :: back) ∧
      ∀ q, q ≠ p → heap' q = heap q := by
  have apart := chain.nodup
  rw [map_append, map_cons, nodup_middle, nodup_cons, mem_append,
    not_or] at apart
  obtain ⟨mid, first, second⟩ := Segment.split chain
  obtain ⟨rfl, next, cell, tail⟩ := Segment.head_eq second
  refine ⟨_, by rw [LinkedList.setItem, cell, map_some], ?_, ?_⟩
  · exact (first.update apart.1.1 _).append
      (.cons (update_self ..) (tail.update apart.1.2 _))
  · intro q other
    exact update_of_ne other ..

theorem Chain.append {count : Nat} (chain : Chain heap head cells) (enough : cells.length ≤ count)
    {node : P} {item : α} (cell : heap node = some ⟨item, none⟩)
    (fresh : node ∉ cells.map fst) :
    ∃ heap' head', append count heap head node = some (heap', head') ∧
      Chain heap' head' (cells ++ [(node, item)]) ∧
      ∀ q, q ∉ cells.map fst → heap' q = heap q := by
  rcases eq_nil_or_concat' cells with rfl | ⟨front, ⟨last, other⟩, rfl⟩
  · cases chain
    exact ⟨heap, some node, rfl, .cons cell (.nil _), fun _ _ => rfl⟩
  · have apart := chain.nodup
    rw [map_append, map_singleton, nodup_append] at apart
    rw [map_append, map_singleton, mem_append, mem_singleton, not_or] at fresh
    obtain ⟨first, lastCell⟩ := Segment.last_cell chain
    have unseen : last ∉ front.map fst := fun mem =>
      apart.2.2 last mem last (mem_singleton_self _) rfl
    have nonempty : ∃ start, head = some start := by
      cases head with
      | none => cases front <;> cases chain
      | some start => exact ⟨start, rfl⟩
    obtain ⟨start, rfl⟩ := nonempty
    have found : LinkedList.seekLast heap count start = some last := by
      refine Chain.seekLast chain ?_
      rw [length_append, length_singleton] at enough
      exact enough
    refine ⟨update heap last (some ⟨other, some node⟩), some start, ?_, ?_, ?_⟩
    · simp only [LinkedList.append, found, setNext, lastCell, map_some, bind_eq_bind,
        bind_some, Option.pure_def]
    · refine ((first.update unseen _).append (.cons (update_self ..) (.nil _))).append ?_
      refine .cons ?_ (.nil _)
      rw [update_of_ne fresh.2]
      exact cell
    · grind

theorem Chain.unlink_head (chain : Chain heap head ((curr, item) :: back)) :
    ∃ heap' head', unlink heap head curr curr = some (heap', head') ∧ Chain heap' head' back ∧
      heap' curr = some ⟨item, none⟩ ∧ ∀ q, q ≠ curr → heap' q = heap q := by
  have apart := nodup_cons.mp chain.nodup
  obtain ⟨rfl, next, cell, tail⟩ := Segment.head_eq chain
  refine ⟨update heap curr (some ⟨item, none⟩), next, ?_, tail.update apart.1 _,
    update_self .., fun q other => update_of_ne other ..⟩
  simp only [unlink, setNext, cell, map_some, bind_eq_bind, bind_some,
    update_self, update_idem, if_true, Option.pure_def]

theorem Chain.bypass {prev : P} {other : α}
    (chain : Chain heap head (front ++ (prev, other) :: (curr, item) :: back)) :
    ∃ next, heap prev = some ⟨other, some curr⟩ ∧ heap curr = some ⟨item, next⟩ ∧ prev ≠ curr ∧
      head ≠ some curr ∧ ∀ cell, Chain (update
        (update heap prev (some ⟨other, next⟩)) curr cell) head
        (front ++ (prev, other) :: back) := by
  have apart := chain.nodup
  rw [map_append, map_cons, map_cons, nodup_append] at apart
  obtain ⟨-, behind, before⟩ := apart
  rw [nodup_cons, nodup_cons, mem_cons, not_or] at behind
  obtain ⟨⟨different, prevOut⟩, currOut, -⟩ := behind
  have prevFront : prev ∉ front.map fst := fun mem =>
    before prev mem prev mem_cons_self rfl
  have currFront : curr ∉ front.map fst := fun mem =>
    before curr mem curr (mem_cons_of_mem _ mem_cons_self) rfl
  obtain ⟨mid, first, second⟩ := Segment.split chain
  obtain ⟨rfl, next, prevCell, rest⟩ := Segment.head_eq second
  obtain ⟨rfl, next, cell, tail⟩ := Segment.head_eq rest
  have notHead : head ≠ some curr := by
    rintro rfl
    cases first with
    | nil => exact different rfl
    | cons => exact currFront mem_cons_self
  refine ⟨next, prevCell, cell, different, notHead, fun _ => ?_⟩
  refine ((first.update prevFront _).update currFront _).append
    (@Segment.cons _ _ _ _ _ next _ _ ?_ ?_)
  · rw [update_of_ne different, update_self]
  · exact (tail.update prevOut _).update currOut _

theorem Chain.unlink_behind {prev : P} {other : α}
    (chain : Chain heap head (front ++ (prev, other) :: (curr, item) :: back)) :
    ∃ heap' head', unlink heap head prev curr = some (heap', head') ∧
      Chain heap' head' (front ++ (prev, other) :: back) ∧ heap' curr = some ⟨item, none⟩ ∧
      ∀ q, q ≠ curr → q ≠ prev → heap' q = heap q := by
  obtain ⟨next, prevCell, cell, different, notHead, bypassed⟩ := Chain.bypass chain
  refine ⟨_, head, ?_, bypassed (some ⟨item, none⟩), update_self .., ?_⟩
  · simp only [unlink, setNext, cell, prevCell, map_some, bind_eq_bind,
      bind_some, update_of_ne (Ne.symm different), notHead, if_false,
      Option.pure_def]
  · grind

theorem Chain.remove {count : Nat} {stop : P → α → Bool} {curr : P} {item : α}
    (chain : Chain heap head (front ++ (curr, item) :: back))
    (enough : (front ++ (curr, item) :: back).length ≤ count)
    (passed : ∀ c ∈ front, stop c.1 c.2 = false) (met : stop curr item = true) :
    ∃ heap' head', remove count heap head stop = some (some (curr, heap', head')) ∧
      Chain heap' head' (front ++ back) ∧ heap' curr = some ⟨item, none⟩ ∧
      ∀ q, q ≠ curr → q ∉ front.map fst → heap' q = heap q := by
  have found : seekPrev heap stop count head head
      = some ((front.map fun c => some c.1).getLastD head, some curr) := by
    refine Segment.seekPrev stop chain passed met ?_
    rw [length_append, length_cons] at enough
    omega
  rcases eq_nil_or_concat' front with rfl | ⟨front, ⟨prev, other⟩, rfl⟩
  · obtain ⟨heap', head', unlinked, rest, cell, kept⟩ := Chain.unlink_head chain
    obtain ⟨rfl, -⟩ := Segment.head_eq chain
    refine ⟨heap', head', ?_, rest, cell, fun q different _ => kept q different⟩
    rw [remove, found]
    simp only [map_nil, getLastD_nil, unlinked, map_some]
  · rw [append_assoc, singleton_append] at chain
    obtain ⟨heap', head', unlinked, rest, cell, kept⟩ := Chain.unlink_behind chain
    refine ⟨heap', head', ?_, ?_, cell, fun q different outside => kept q different ?_⟩
    · rw [remove, found]
      simp only [map_append, map_singleton, getLastD_concat, unlinked,
        map_some]
    · rw [append_assoc, singleton_append]
      exact rest
    · grind

theorem Chain.remove_none {stop : P → α → Bool} (chain : Chain heap head cells)
    (enough : cells.length ≤ count) (passed : ∀ c ∈ cells, stop c.1 c.2 = false) :
    LinkedList.remove count heap head stop = some none := by
  obtain ⟨prev, found⟩ := Chain.seekPrev_none stop chain passed enough
  rw [LinkedList.remove, found]

theorem Chain.release {dispose : α → Bool} (chain : Chain heap head cells)
    (enough : cells.length ≤ count) (disposable : ∀ c ∈ cells, dispose c.2 = true) :
    ∃ heap', release dispose count heap head = some heap' ∧
      ∀ q, q ∉ cells.map fst → heap' q = heap q := by
  induction cells generalizing heap head count with
  | nil =>
    cases chain
    exact ⟨heap, by cases count <;> rfl, fun _ _ => rfl⟩
  | cons c cells ih =>
    obtain ⟨p, item⟩ := c
    have apart := nodup_cons.mp chain.nodup
    obtain ⟨rfl, next, cell, tail⟩ := Segment.head_eq chain
    obtain ⟨count, rfl, room⟩ := exists_succ enough
    obtain ⟨heap', freed, kept⟩ := ih (tail.update apart.1 none) room fun c mem =>
      disposable c (mem_cons_of_mem _ mem)
    refine ⟨heap', ?_, fun q outside => ?_⟩
    · have first : dispose item = true := disposable _ mem_cons_self
      rw [release, cell]
      simp only [first, if_true]
      exact freed
    · grind

end Rules

/-! ## Lists with keys

The cells of a list that are found by a key, such as a name, are a map from keys to cells when no
key occurs twice. -/

section Keys

variable {β κ : Type} [DecidableEq κ] (key : β → κ)

def lookup (elements : List β) (k : κ) : Option β :=
  elements.find? fun b => key b = k

variable {key} {elements front back : List β} {b : β} {k : κ}

theorem lookup_eq_none : lookup key elements k = none ↔ k ∉ elements.map key := by
  simp [lookup, find?_eq_none]

theorem lookup_eq_some (found : lookup key elements k = some b) :
    ∃ front back, elements = front ++ b :: back ∧ key b = k ∧ k ∉ front.map key := by
  obtain ⟨same, front, back, rfl, passed⟩ := find?_eq_some_iff_append.mp found
  refine ⟨front, back, rfl, of_decide_eq_true same, fun mem => ?_⟩
  obtain ⟨c, mem, same⟩ := mem_map.mp mem
  simpa [same] using passed c mem

omit [DecidableEq κ] in
theorem nodup_middle_iff : ((front ++ b :: back).map key).Nodup ↔
    key b ∉ (front ++ back).map key ∧ ((front ++ back).map key).Nodup := by
  rw [map_append, map_cons, nodup_middle, nodup_cons, map_append]

theorem lookup_first (passed : key b ∉ front.map key) :
    lookup key (front ++ b :: back) (key b) = some b := by
  rw [lookup, find?_append, ← lookup, lookup_eq_none.mpr passed, none_or]
  simp

theorem lookup_middle (unique : ((front ++ b :: back).map key).Nodup) (k : κ) :
    lookup key (front ++ b :: back) k
      = if key b = k then some b else lookup key (front ++ back) k := by
  obtain ⟨others, -⟩ := nodup_middle_iff.mp unique
  rw [map_append, mem_append, not_or] at others
  by_cases same : key b = k
  · rw [if_pos same, ← same, lookup_first others.1]
  · rw [if_neg same, lookup, lookup, find?_append, find?_append,
      find?_cons_of_neg (by simpa using same)]

theorem lookup_middle_none (unique : ((front ++ b :: back).map key).Nodup) :
    lookup key (front ++ back) (key b) = none :=
  lookup_eq_none.mpr (nodup_middle_iff.mp unique).1

theorem lookup_of_mem (unique : (elements.map key).Nodup) (mem : b ∈ elements) :
    lookup key elements (key b) = some b := by
  obtain ⟨front, back, rfl⟩ := append_of_mem mem
  rw [lookup_middle unique, if_pos rfl]

end Keys

end LinkedList
