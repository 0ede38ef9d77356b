import EchoLife.Lib.ChainedTable
import EchoLife.Lib.History

/-!
# The hash table of the virtual circuits

The table is one array of items. The `head` of an item starts the chain of a hash, and its `key`
and `next` hold a key of some chain; the others stand on a list of their own, linked by `link`.
`Refines` connects the array with `Lib.ChainedTable`. So the table is a map with room for `items`
keys after any calls (`hashTable_run`).
-/

namespace EchoLife.SoftSar

open List Function ChainedTable History UInt32

instance keyOrder : LinearOrder UInt32 where
  le a b := a ≤ b
  lt a b := a < b
  le_refl _ := UInt32.le_refl _
  le_trans _ _ _ := UInt32.le_trans
  le_antisymm _ _ := UInt32.le_antisymm
  le_total := UInt32.le_total
  lt_iff_le_not_ge _ _ := by simp only [UInt32.le_iff_toNat_le, UInt32.lt_iff_toNat_lt]; omega
  toDecidableLE := inferInstance
  toDecidableEq := inferInstance
  toDecidableLT := inferInstance

/-! ## The source -/

def hashTblNull : UInt16 := 0xFFFF

def hashTblEntry (n : UInt16) : Option Nat := if n = hashTblNull then none else some n.toNat

structure HashTable where
  hashParam : Nat
  items : Nat
  hashTblEmptyList : Option Nat
  link : Nat → Option Nat
  key : Nat → UInt32
  next : Nat → UInt16
  head : Nat → UInt16

inductive Link where
  | head (n : Nat)
  | next (n : Nat)
  deriving Repr, DecidableEq

namespace HashTable

def init (memory : HashTable) (items hashParam : Nat) : HashTable :=
  (List.range items).foldl
    (fun h i => { h with
      head := update h.head i hashTblNull
      link := update h.link i h.hashTblEmptyList
      hashTblEmptyList := some i })
    { memory with hashParam := hashParam, items := items, hashTblEmptyList := none }

def getHashIndex (items hashParam : Nat) (key : UInt32) : UInt16 :=
  let x := (key ^^^ (key >>> 16)) &&& 0xFFFF
  let n := x - ((x * UInt32.ofNat (0x8000 / hashParam)) >>> 15) * UInt32.ofNat hashParam
  if n ≥ UInt32.ofNat items then 0 else n.toUInt16

def hash (items hashParam : Nat) (key : UInt32) : Nat := (getHashIndex items hashParam key).toNat

def seekFrom (h : HashTable) (key : UInt32) : (count : Nat) → Link → UInt16 → Link × UInt16
  | 0, prev, next => (prev, next)
  | count + 1, prev, next =>
    if next ≠ hashTblNull ∧ h.key next.toNat < key then
      seekFrom h key count (.next next.toNat) (h.next next.toNat)
    else (prev, next)

def seek (h : HashTable) (key : UInt32) : Link × UInt16 :=
  let n := hash h.items h.hashParam key
  seekFrom h key h.items (.head n) (h.head n)

def setLink (h : HashTable) (prev : Link) (n : UInt16) : HashTable :=
  match prev with
  | .head m => { h with head := update h.head m n }
  | .next m => { h with next := update h.next m n }

def findKey (h : HashTable) (key : UInt32) : Option Nat :=
  match hashTblEntry (h.seek key).2 with
  | none => none
  | some n => if h.key n ≠ key then none else some n

def findOrAddKey (h : HashTable) (key : UInt32) : (Option Nat × Bool) × HashTable :=
  let (prev, next) := h.seek key
  if next = hashTblNull ∨ h.key next.toNat ≠ key then
    match h.hashTblEmptyList with
    | none => ((none, true), h)
    | some p =>
      let n := UInt16.ofNat p
      let h := { h with
        hashTblEmptyList := h.link p
        next := update h.next p next
        key := update h.key p key }
      ((hashTblEntry n, true), h.setLink prev n)
  else ((hashTblEntry next, false), h)

def delKey (h : HashTable) (key : UInt32) : HashTable :=
  let (prev, next) := h.seek key
  if next ≠ hashTblNull ∧ h.key next.toNat = key then
    let p := next.toNat
    let h := h.setLink prev (h.next p)
    { h with link := update h.link p h.hashTblEmptyList, hashTblEmptyList := some p }
  else h

end HashTable

inductive KeyCall where
  | findOrAddKey (key : UInt32)
  | delKey (key : UInt32)
  deriving Repr, DecidableEq

def HashTable.call (h : HashTable) : KeyCall → Option Nat × HashTable
  | .findOrAddKey key => ((h.findOrAddKey key).1.1, (h.findOrAddKey key).2)
  | .delKey key => (none, h.delKey key)

/-! ## Lists in the array -/

def itemsFrom (next : Nat → Option Nat) : (count : Nat) → Option Nat → List Nat
  | 0, _ => []
  | _, none => []
  | count + 1, some n => n :: itemsFrom next count (next n)

def HashTable.nextItem (h : HashTable) (n : Nat) : Option Nat := hashTblEntry (h.next n)

def HashTable.headItem (h : HashTable) (n : Nat) : Option Nat := hashTblEntry (h.head n)

def HashTable.chain (h : HashTable) (n : Nat) : List Nat :=
  itemsFrom h.nextItem h.items (h.headItem n)

def HashTable.emptyItems (h : HashTable) : List Nat :=
  itemsFrom h.link h.items h.hashTblEmptyList

def Linked (next : Nat → Option Nat) : Option Nat → List Nat → Prop
  | start, [] => start = none
  | start, n :: rest => start = some n ∧ Linked next (next n) rest

section Linked

variable {next next' : Nat → Option Nat} {start : Option Nat} {cells front back : List Nat}
  {m n : Nat}

theorem Linked.items_eq {count : Nat} (linked : Linked next start cells)
    (enough : cells.length ≤ count) : itemsFrom next count start = cells := by
  induction cells generalizing start count with
  | nil =>
    subst linked
    cases count <;> rfl
  | cons n rest ih =>
    obtain ⟨rfl, linked⟩ := linked
    obtain ⟨count, rfl⟩ : ∃ c, count = c + 1 := ⟨count - 1, by grind⟩
    rw [itemsFrom, ih linked (Nat.le_of_succ_le_succ enough)]

theorem Linked.congr (linked : Linked next start cells)
    (same : ∀ n ∈ cells, next' n = next n) : Linked next' start cells := by
  induction cells generalizing start with
  | nil => exact linked
  | cons n rest ih =>
    obtain ⟨rfl, linked⟩ := linked
    refine ⟨rfl, ?_⟩
    rw [same n mem_cons_self]
    exact ih linked fun m mem => same m (mem_cons_of_mem _ mem)

theorem Linked.replace {p : Option Nat} {new : List Nat}
    (linked : Linked next start (front ++ m :: back)) (fresh : m ∉ front)
    (rest : Linked (update next m p) p new) :
    Linked (update next m p) start (front ++ m :: new) := by
  induction front generalizing start with
  | nil =>
    refine ⟨linked.1, ?_⟩
    rw [update_self]
    exact rest
  | cons n front ih =>
    obtain ⟨notFirst, notLater⟩ := not_or.mp (mt mem_cons.mpr fresh)
    refine ⟨linked.1, ?_⟩
    rw [update_of_ne (Ne.symm notFirst)]
    exact ih linked.2 notLater

end Linked

theorem hashTblEntry_eq_some_iff {n : UInt16} {m : Nat} :
    hashTblEntry n = some m ↔ n ≠ hashTblNull ∧ n.toNat = m := by
  unfold hashTblEntry
  split <;> simp [*]

theorem hashTblEntry_eq_none_iff {n : UInt16} : hashTblEntry n = none ↔ n = hashTblNull := by
  unfold hashTblEntry
  split <;> simp [*]

theorem hashTblEntry_ofNat {n : Nat} (small : n < 65535) :
    hashTblEntry (UInt16.ofNat n) = some n := by
  have same : (UInt16.ofNat n).toNat = n := by
    rw [UInt16.toNat_ofNat']
    omega
  refine hashTblEntry_eq_some_iff.mpr ⟨?_, same⟩
  intro null
  rw [null] at same
  have value : hashTblNull.toNat = 65535 := rfl
  omega

namespace HashTable

variable {h : HashTable} {k j : UInt32} {b m n : Nat} {front back cells : List Nat}

theorem hash_lt {items : Nat} (hashParam : Nat) (pos : 1 ≤ items) (le : items ≤ 65534)
    (k : UInt32) : hash items hashParam k < items := by
  have value : (ofNat items).toNat = items := by
    rw [toNat_ofNat']
    omega
  rw [hash, getHashIndex]
  split
  · exact pos
  next less =>
    rw [ge_iff_le, le_iff_toNat_le, value, not_le] at less
    exact lt_of_le_of_lt (Nat.mod_le _ _) less

/-! ## Walking a chain -/

def lastLink (b : Nat) (front : List Nat) : Link := front.getLast?.elim (.head b) .next

theorem seekFrom_eq {count : Nat} {prev : Link} {start : UInt16}
    (linked : Linked h.nextItem (hashTblEntry start) (front ++ back))
    (less : ∀ n ∈ front, h.key n < k) (stops : ∀ n ∈ back.head?, ¬ h.key n < k)
    (enough : front.length ≤ count) :
    ∃ next, h.seekFrom k count prev start = (front.getLast?.elim prev .next, next) ∧
      Linked h.nextItem (hashTblEntry next) back := by
  induction front generalizing count prev start with
  | nil =>
    refine ⟨start, ?_, linked⟩
    cases count with
    | zero => rfl
    | succ count =>
      rw [seekFrom, if_neg]
      · rfl
      rintro ⟨notNull, smaller⟩
      cases back with
      | nil => exact notNull (hashTblEntry_eq_none_iff.mp linked)
      | cons n back =>
        rw [(hashTblEntry_eq_some_iff.mp linked.1).2] at smaller
        exact stops n rfl smaller
  | cons n front ih =>
    obtain ⟨count, rfl⟩ : ∃ c, count = c + 1 := ⟨count - 1, by grind⟩
    obtain ⟨notNull, rfl⟩ := hashTblEntry_eq_some_iff.mp linked.1
    rw [seekFrom, if_pos ⟨notNull, less _ mem_cons_self⟩]
    obtain ⟨next, found, rest⟩ := @ih count (.next start.toNat) (h.next start.toNat) linked.2
      (fun n mem => less n (mem_cons_of_mem _ mem)) (Nat.le_of_succ_le_succ enough)
    refine ⟨next, ?_, rest⟩
    rw [found]
    cases front with
    | nil => rfl
    | cons m front => rfl

theorem linked_setLink {v : UInt16} {new : List Nat}
    (linked : Linked h.nextItem (h.headItem b) (front ++ back)) (nodup : front.Nodup)
    (rest : Linked h.nextItem (hashTblEntry v) new) (apart : ∀ n ∈ new, n ∉ front) :
    Linked (h.setLink (lastLink b front) v).nextItem ((h.setLink (lastLink b front) v).headItem b)
      (front ++ new) := by
  rcases eq_nil_or_concat front with rfl | ⟨init, m, rfl⟩
  · show Linked h.nextItem (hashTblEntry (update h.head b v b)) new
    rw [update_self]
    exact rest
  · rw [concat_eq_append] at *
    have link : lastLink b (init ++ [m]) = .next m := by
      rw [lastLink, getLast?_concat]
      rfl
    have next : (h.setLink (.next m) v).nextItem =
        update h.nextItem m (hashTblEntry v) := by
      funext n
      by_cases same : n = m
      · subst same
        simp [HashTable.nextItem, setLink]
      · simp [HashTable.nextItem, setLink, same]
    rw [link, next]
    rw [append_assoc, singleton_append] at linked ⊢
    refine linked.replace ?_ (rest.congr fun n mem => update_of_ne ?_ ..)
    · exact fun mem => (nodup_append.mp nodup).2.2 m mem m mem_cons_self rfl
    · rintro rfl
      exact apart n mem (mem_append_right _ mem_cons_self)

theorem linked_setLink_of_ne {v : UInt16} {c : Nat}
    (linked : Linked h.nextItem (h.headItem c) cells) (other : c ≠ b)
    (apart : ∀ n ∈ cells, n ∉ front) :
    Linked (h.setLink (lastLink b front) v).nextItem ((h.setLink (lastLink b front) v).headItem c)
      cells := by
  rcases eq_nil_or_concat front with rfl | ⟨init, m, rfl⟩
  · show Linked h.nextItem (hashTblEntry (update h.head b v c)) cells
    rw [update_of_ne other]
    exact linked
  · rw [concat_eq_append] at *
    have link : lastLink b (init ++ [m]) = .next m := by
      rw [lastLink, getLast?_concat]
      rfl
    rw [link]
    refine linked.congr fun n mem => ?_
    have ne : n ≠ m := by
      rintro rfl
      exact apart n mem (mem_append_right _ mem_cons_self)
    simp [HashTable.nextItem, setLink, ne]

/-! ## Refinement -/

theorem mem_update_iff {chain : Nat → List Nat} :
    (∃ c, n ∈ update chain b cells c) ↔ n ∈ cells ∨ ∃ c, c ≠ b ∧ n ∈ chain c := by
  constructor
  · rintro ⟨c, mem⟩
    by_cases same : c = b
    · subst same
      rw [update_self] at mem
      exact .inl mem
    · rw [update_of_ne same] at mem
      exact .inr ⟨c, same, mem⟩
  · rintro (mem | ⟨c, other, mem⟩)
    · exact ⟨b, by rwa [update_self]⟩
    · exact ⟨c, by rwa [update_of_ne other]⟩

abbrev bucket (h : HashTable) : UInt32 → Nat := hash h.items h.hashParam

structure Refines (h : HashTable) (t : Table UInt32) : Prop where
  sized : 1 ≤ h.items ∧ h.items ≤ 65534
  wf : WellFormed h.bucket t
  key : h.key = t.key
  chains : ∀ b < h.items, Linked h.nextItem (h.headItem b) (t.chain b)
  free : Linked h.link h.hashTblEmptyList t.free
  cover : ∀ n, n < h.items ↔ n ∈ t.free ∨ ∃ b, n ∈ t.chain b

@[simp] theorem setLink_items (prev : Link) (v : UInt16) : (h.setLink prev v).items = h.items := by
  cases prev <;> rfl

@[simp] theorem setLink_hashParam (prev : Link) (v : UInt16) :
    (h.setLink prev v).hashParam = h.hashParam := by
  cases prev <;> rfl

@[simp] theorem setLink_key (prev : Link) (v : UInt16) : (h.setLink prev v).key = h.key := by
  cases prev <;> rfl

@[simp] theorem setLink_link (prev : Link) (v : UInt16) : (h.setLink prev v).link = h.link := by
  cases prev <;> rfl

@[simp] theorem setLink_hashTblEmptyList (prev : Link) (v : UInt16) :
    (h.setLink prev v).hashTblEmptyList = h.hashTblEmptyList := by
  cases prev <;> rfl

section

variable {t : Table UInt32} (r : Refines h t)
include r

theorem Refines.bucket_lt (k : UInt32) : h.bucket k < h.items :=
  hash_lt h.hashParam r.sized.1 r.sized.2 k

theorem Refines.nodup_chain (b : Nat) : (t.chain b).Nodup :=
  (r.wf.sorted b).imp fun less same => less.ne (congrArg t.key same)

theorem Refines.length_le (b : Nat) : (t.chain b).length ≤ h.items := by
  have inside : t.chain b ⊆ List.range h.items := fun n mem =>
    mem_range.mpr ((r.cover n).mpr (.inr ⟨b, mem⟩))
  have short := ((r.nodup_chain b).subperm inside).length_le
  rwa [length_range] at short

theorem Refines.linked (k : UInt32) :
    Linked h.nextItem (h.headItem (h.bucket k)) (t.front h.bucket k ++ t.back h.bucket k) := by
  rw [front_append_back]
  exact r.chains _ (r.bucket_lt k)

theorem Refines.seek (k : UInt32) :
    ∃ next, h.seek k = (lastLink (h.bucket k) (t.front h.bucket k), next) ∧
      Linked h.nextItem (hashTblEntry next) (t.back h.bucket k) := by
  refine seekFrom_eq (r.linked k) (fun n mem => ?_) (fun n mem => ?_) ?_
  · rw [r.key]
    exact key_lt_of_mem_front mem
  · rw [r.key]
    exact not_lt.mpr (r.wf.le_of_mem_back (mem_of_mem_head? mem))
  · exact ((takeWhile_sublist _).length_le).trans (r.length_le _)

theorem Refines.findKey (k : UInt32) : h.findKey k = t.find h.bucket k := by
  obtain ⟨next, found, rest⟩ := r.seek k
  rw [HashTable.findKey, found, Table.find]
  cases back : t.back h.bucket k with
  | nil =>
    rw [back] at rest
    rw [show hashTblEntry next = none from rest]
  | cons n more =>
    rw [back] at rest
    rw [rest.1, r.key]
    show (if t.key n ≠ k then none else some n) = if t.key n = k then some n else none
    rw [ite_not]

theorem Refines.absent_iff {next : UInt16}
    (rest : Linked h.nextItem (hashTblEntry next) (t.back h.bucket k)) :
    (next = hashTblNull ∨ h.key next.toNat ≠ k) ↔ t.find h.bucket k = none := by
  rw [Table.find]
  cases back : t.back h.bucket k with
  | nil =>
    rw [back] at rest
    simp [hashTblEntry_eq_none_iff.mp rest]
  | cons n more =>
    rw [back] at rest
    obtain ⟨notNull, rfl⟩ := hashTblEntry_eq_some_iff.mp rest.1
    simp [notNull, r.key]

theorem Refines.apart_front (k : UInt32) {b : Nat} (other : b ≠ h.bucket k) :
    ∀ n ∈ t.chain b, n ∉ t.front h.bucket k := by
  intro n mem before
  have here := (takeWhile_sublist _).subset before
  exact other ((r.wf.placed b n mem).symm.trans (r.wf.placed _ n here))

theorem Refines.parts (k : UInt32) : (t.front h.bucket k).Nodup ∧
    ∀ n ∈ t.back h.bucket k, n ∉ t.front h.bucket k := by
  have nodup := r.nodup_chain (h.bucket k)
  rw [← front_append_back, nodup_append] at nodup
  exact ⟨nodup.1, fun n mem before => nodup.2.2 n before n mem rfl⟩

theorem Refines.cover_parts (k : UInt32) (n : Nat) : n < h.items ↔ n ∈ t.free ∨
    (n ∈ t.front h.bucket k ++ t.back h.bucket k) ∨ ∃ b, b ≠ h.bucket k ∧ n ∈ t.chain b := by
  rw [r.cover, front_append_back, ← mem_update_iff, update_eq_self]

theorem Refines.findOrAddKey (k : UInt32) :
    (h.findOrAddKey k).1.1 = (t.findOrAdd h.bucket k).1.map Prod.fst ∧
      Refines (h.findOrAddKey k).2 (t.findOrAdd h.bucket k).2 := by
  obtain ⟨next, found, rest⟩ := r.seek k
  rw [HashTable.findOrAddKey, found, Table.findOrAdd]
  cases held : t.find h.bucket k with
  | some n =>
    have present := mt (r.absent_iff rest).mp (by rw [held]; exact Option.some_ne_none n)
    dsimp only
    rw [if_neg present]
    refine ⟨?_, r⟩
    have same := r.findKey k
    rw [HashTable.findKey, found, held] at same
    split at same
    · cases same
    next m entry =>
      split at same
      · cases same
      · rw [entry]
        exact same
  | none =>
    dsimp only
    rw [if_pos ((r.absent_iff rest).mpr held)]
    have free := r.free
    cases empty : t.free with
    | nil =>
      rw [empty] at free
      rw [show h.hashTblEmptyList = none from free]
      exact ⟨rfl, r⟩
    | cons p more =>
      rw [empty] at free
      have isFree : p ∈ t.free := by
        rw [empty]
        exact mem_cons_self
      have unchained (b : Nat) : p ∉ t.chain b := fun mem => r.wf.apart b p mem isFree
      have small : p < h.items := (r.cover p).mpr (.inl isFree)
      have entry : hashTblEntry (UInt16.ofNat p) = some p :=
        hashTblEntry_ofNat (by have := r.sized.2; omega)
      rw [free.1]
      refine ⟨entry, ?_⟩
      set h' : HashTable := { h with
        hashTblEmptyList := h.link p
        next := update h.next p next
        key := update h.key p k } with result
      have keeps {start : Option Nat} {cells : List Nat} (linked : Linked h.nextItem start cells)
          (apart : p ∉ cells) : Linked h'.nextItem start cells := by
        refine linked.congr fun n mem => ?_
        show hashTblEntry (update h.next p next n) = _
        have other : n ≠ p := by
          rintro rfl
          exact apart mem
        rw [update_of_ne other]
        rfl
      obtain ⟨nodup, apart⟩ := r.parts k
      have notFront : p ∉ t.front h.bucket k := fun mem =>
        unchained _ ((takeWhile_sublist _).subset mem)
      have notBack : p ∉ t.back h.bucket k := fun mem =>
        unchained _ ((dropWhile_sublist _).subset mem)
      refine ⟨by simpa using r.sized, ?_, ?_, fun b less => ?_, ?_, fun n => ?_⟩
      · have wf := (r.wf.add held empty).1
        simpa [bucket] using wf
      · simp [r.key]
      · rw [setLink_items] at less
        by_cases same : b = h.bucket k
        · subst same
          show Linked _ _ (update t.chain _ _ _)
          rw [update_self]
          have whole : p ∉ t.front h.bucket k ++ t.back h.bucket k :=
            fun mem => (mem_append.mp mem).elim notFront notBack
          refine linked_setLink (keeps (r.linked k) whole) nodup ⟨entry, ?_⟩ fun n mem => ?_
          · have here : h'.nextItem p = hashTblEntry next := by
              simp [HashTable.nextItem, result]
            rw [here]
            exact keeps rest notBack
          · rcases mem_cons.mp mem with rfl | later
            · exact notFront
            · exact apart n later
        · show Linked _ _ (update t.chain _ _ _)
          rw [update_of_ne same]
          exact linked_setLink_of_ne (keeps (r.chains b less) (unchained b)) same
            (r.apart_front k same)
      · simpa [result] using free.2
      · rw [setLink_items, show h'.items = h.items from rfl, r.cover_parts k, empty]
        show _ ↔ n ∈ more ∨ ∃ b, n ∈ update t.chain _ _ b
        rw [mem_update_iff]
        simp only [mem_cons, mem_append]
        tauto

theorem Refines.delKey (k : UInt32) : Refines (h.delKey k) (t.delete h.bucket k) := by
  obtain ⟨next, found, rest⟩ := r.seek k
  rw [HashTable.delKey, found, Table.delete]
  dsimp only
  cases held : t.find h.bucket k with
  | none =>
    have absent := (r.absent_iff rest).mpr held
    rw [if_neg (by tauto)]
    exact r
  | some n =>
    have present := mt (r.absent_iff rest).mp (by rw [held]; exact Option.some_ne_none n)
    have holds := r.wf.find_eq_some_iff.mp held
    have wf := (r.wf.delete holds).1
    have eq : t.delete h.bucket k = { t with
        chain := update t.chain (h.bucket k)
          (t.front h.bucket k ++ (t.back h.bucket k).tail)
        free := n :: t.free } := by
      rw [Table.delete, held]
    obtain ⟨more, back⟩ : ∃ more, t.back h.bucket k = n :: more := by
      rw [Table.find] at held
      split at held
      · cases held
      next first more back =>
        split at held
        · cases held
          exact ⟨more, back⟩
        · cases held
    have unfree : n ∉ t.free := r.wf.not_free holds
    obtain ⟨nodup, apart⟩ := r.parts k
    rw [back] at rest apart
    obtain ⟨-, rfl⟩ := hashTblEntry_eq_some_iff.mp rest.1
    rw [if_pos (by tauto)]
    refine ⟨by simpa using r.sized, ?_, by simp [r.key], fun b less => ?_, ?_, fun m => ?_⟩
    · rw [eq] at wf
      simpa [bucket] using wf
    · replace less : b < h.items := by simpa using less
      by_cases same : b = h.bucket k
      · subst same
        show Linked _ _ (update t.chain _ _ _)
        rw [update_self, back, tail_cons]
        exact linked_setLink (r.linked k) nodup rest.2 fun m mem => apart m (mem_cons_of_mem _ mem)
      · show Linked _ _ (update t.chain _ _ _)
        rw [update_of_ne same]
        exact linked_setLink_of_ne (r.chains b less) same (r.apart_front k same)
    · refine ⟨rfl, ?_⟩
      simp only [setLink_link, setLink_hashTblEmptyList, update_self]
      refine r.free.congr fun m mem => update_of_ne ?_ ..
      rintro rfl
      exact unfree mem
    · show m < (h.setLink _ _).items ↔ m ∈ _ :: t.free ∨ ∃ b, m ∈ update t.chain _ _ b
      rw [setLink_items, r.cover_parts k, mem_update_iff, back, tail_cons]
      simp only [mem_cons, mem_append]
      tauto

end

theorem refines_init (memory : HashTable) {items : Nat} (hashParam : Nat) (pos : 1 ≤ items)
    (le : items ≤ 65534) : Refines (memory.init items hashParam)
      ⟨fun _ => [], memory.key, (List.range items).reverse⟩ := by
  -- after the first `n` rounds the first `n` items are on the list
  have loop (n : Nat) :
      let h := (List.range n).foldl
        (fun h i => { h with
          head := update h.head i hashTblNull
          link := update h.link i h.hashTblEmptyList
          hashTblEmptyList := some i })
        { memory with hashParam := hashParam, items := items, hashTblEmptyList := none }
      h.items = items ∧ h.hashParam = hashParam ∧ h.key = memory.key ∧
        (∀ b < n, h.head b = hashTblNull) ∧
        Linked h.link h.hashTblEmptyList (List.range n).reverse := by
    induction n with
    | zero => exact ⟨rfl, rfl, rfl, fun b less => absurd less (Nat.not_lt_zero b), rfl⟩
    | succ n ih =>
      obtain ⟨sameItems, sameParam, sameKey, heads, linked⟩ := ih
      rw [range_succ, foldl_append, reverse_append]
      refine ⟨sameItems, sameParam, sameKey, fun b less => ?_, rfl, ?_⟩
      · by_cases same : b = n
        · subst same
          exact update_self ..
        · exact (update_of_ne same ..).trans (heads b (by omega))
      · simp only [foldl_cons, foldl_nil, update_self]
        refine linked.congr fun m mem => update_of_ne ?_ ..
        rw [mem_reverse, mem_range] at mem
        exact mem.ne
  obtain ⟨sameItems, sameParam, sameKey, heads, linked⟩ := loop items
  refine ⟨?_, wellFormed_empty _ (nodup_reverse.mpr nodup_range) _, sameKey, fun b less => ?_,
    linked, fun n => ?_⟩
  · rw [init, sameItems]
    exact ⟨pos, le⟩
  · rw [init, sameItems] at less
    exact hashTblEntry_eq_none_iff.mpr (heads b less)
  · rw [init, sameItems, mem_reverse, mem_range]
    simp

theorem call_same (h : HashTable) (c : KeyCall) :
    (h.call c).2.items = h.items ∧ (h.call c).2.hashParam = h.hashParam := by
  cases c with
  | findOrAddKey k =>
    rw [call, findOrAddKey]
    dsimp only
    split
    · split <;> simp
    · exact ⟨rfl, rfl⟩
  | delKey k =>
    rw [call, delKey]
    dsimp only
    split <;> simp

theorem call_bucket (h : HashTable) (c : KeyCall) : (h.call c).2.bucket = h.bucket := by
  rw [bucket, (call_same h c).1, (call_same h c).2]

section

variable {t : Table UInt32} (r : Refines h t)
include r

theorem Refines.findKey_findOrAddKey : (h.findOrAddKey j).2.findKey k = some n ↔
    h.findKey k = some n ∨ k = j ∧ (h.findOrAddKey j).1.1 = some n := by
  obtain ⟨reply, r'⟩ := r.findOrAddKey j
  have same : (h.findOrAddKey j).2.bucket = h.bucket := call_bucket h (.findOrAddKey j)
  rw [r'.findKey, r.findKey, reply, same, r.wf.find_eq_some_iff]
  have wf := r'.wf
  rw [same] at wf
  rw [wf.find_eq_some_iff]
  rcases r.wf.findOrAdd_cases j with ⟨m, holds, eq⟩ | ⟨unheld, eq⟩ | ⟨m, t', -, -, eq, -, holds⟩
  · rw [eq]
    refine ⟨.inl, ?_⟩
    rintro (before | ⟨rfl, found⟩)
    · exact before
    · cases found
      exact holds
  · simp [eq]
  · rw [eq, holds]
    simp only [Option.map_some, Option.some.injEq]
    rw [eq_comm (a := m), or_comm]

theorem Refines.findKey_delKey :
    (h.delKey j).findKey k = some n ↔ h.findKey k = some n ∧ k ≠ j := by
  have r' := r.delKey j
  have same : (h.delKey j).bucket = h.bucket := call_bucket h (.delKey j)
  have wf := r'.wf
  rw [same] at wf
  rw [r'.findKey, r.findKey, same, r.wf.find_eq_some_iff, wf.find_eq_some_iff]
  cases held : t.find h.bucket j with
  | some m => exact (r.wf.delete (r.wf.find_eq_some_iff.mp held)).2 k n
  | none =>
    rw [Table.delete, held]
    refine (and_iff_left_of_imp ?_).symm
    rintro holds rfl
    rw [r.wf.find_eq_some_iff.mpr holds] at held
    cases held

theorem Refines.call (c : KeyCall) : ∃ t', Refines (h.call c).2 t' := by
  cases c with
  | findOrAddKey k => exact ⟨_, (r.findOrAddKey k).2⟩
  | delKey k => exact ⟨_, r.delKey k⟩

theorem Refines.findKey_injective (first : h.findKey j = some n) (second : h.findKey k = some n) :
    j = k := by
  rw [r.findKey, r.wf.find_eq_some_iff] at first second
  exact first.2.symm.trans second.2

theorem Refines.partition :
    (h.emptyItems ++ (List.range h.items).flatMap h.chain).Perm (List.range h.items) := by
  have freeLength : t.free.length ≤ h.items := by
    have inside : t.free ⊆ List.range h.items := fun n mem =>
      mem_range.mpr ((r.cover n).mpr (.inl mem))
    have short := (r.wf.nodup.subperm inside).length_le
    rwa [length_range] at short
  have chained (b : Nat) (mem : b ∈ List.range h.items) : h.chain b = t.chain b :=
    (r.chains b (mem_range.mp mem)).items_eq (r.length_le b)
  have buckets {b n : Nat} (mem : n ∈ t.chain b) : b < h.items := by
    rw [← r.wf.placed b n mem]
    exact r.bucket_lt _
  rw [show h.emptyItems = t.free from r.free.items_eq freeLength, flatMap_congr chained]
  refine (perm_ext_iff_of_nodup ?_ nodup_range).mpr fun n => ?_
  · rw [nodup_append]
    refine ⟨r.wf.nodup, nodup_flatMap.mpr ⟨fun b _ => r.nodup_chain b, ?_⟩, fun n free m mem => ?_⟩
    · refine nodup_range.imp fun other n first second => other ?_
      rw [← r.wf.placed _ n first, r.wf.placed _ n second]
    · rintro rfl
      obtain ⟨b, -, mem⟩ := mem_flatMap.mp mem
      exact r.wf.apart b n mem free
  · rw [mem_append, mem_flatMap, mem_range, r.cover]
    refine or_congr_right ⟨?_, ?_⟩
    · rintro ⟨b, -, mem⟩
      exact ⟨b, mem⟩
    · rintro ⟨b, mem⟩
      exact ⟨b, mem_range.mpr (buckets mem), mem⟩

theorem Refines.free_iff :
    t.free = [] ↔ {j | h.findKey j ≠ none}.ncard = h.items := by
  have image : {j | h.findKey j ≠ none} = t.key '' {n | ∃ b, n ∈ t.chain b} := by
    ext j
    simp only [Set.mem_ofPred_eq, Set.mem_image, Option.ne_none_iff_exists', r.findKey,
      r.wf.find_eq_some_iff]
    constructor
    · rintro ⟨n, mem, same⟩
      exact ⟨n, ⟨_, mem⟩, same⟩
    · rintro ⟨n, ⟨b, mem⟩, rfl⟩
      exact ⟨n, by rwa [r.wf.placed b n mem], rfl⟩
  have injective : Set.InjOn t.key {n | ∃ b, n ∈ t.chain b} := by
    rintro m ⟨b, first⟩ n ⟨c, second⟩ same
    refine r.wf.holds_unique (k := t.key n) ⟨?_, same⟩ ⟨?_, rfl⟩
    · rwa [← same, r.wf.placed b m first]
    · rwa [r.wf.placed c n second]
  have inside : {n | ∃ b, n ∈ t.chain b} ⊆ (Finset.range h.items : Set Nat) := by
    rintro n mem
    rw [Finset.mem_coe, Finset.mem_range]
    exact (r.cover n).mpr (.inr mem)
  have card : (Finset.range h.items : Set Nat).ncard = h.items := by
    rw [Set.ncard_coe_finset, Finset.card_range]
  rw [image, injective.ncard_image]
  constructor
  · intro empty
    have all : {n | ∃ b, n ∈ t.chain b} = (Finset.range h.items : Set Nat) := by
      refine inside.antisymm fun n mem => ?_
      rw [Finset.mem_coe, Finset.mem_range, r.cover, empty] at mem
      exact mem.resolve_left not_mem_nil
    rw [all, card]
  · intro full
    have all := Set.eq_of_subset_of_ncard_le inside (by rw [full, card])
    refine eq_nil_iff_forall_not_mem.mpr fun n free => ?_
    have chained : n ∈ (Finset.range h.items : Set Nat) := by
      rw [Finset.mem_coe, Finset.mem_range]
      exact (r.cover n).mpr (.inl free)
    rw [← all] at chained
    obtain ⟨b, mem⟩ := chained
    exact r.wf.apart b n mem free

theorem Refines.findOrAddKey_eq_none_iff : (h.findOrAddKey k).1.1 = none ↔
    h.findKey k = none ∧ {j | h.findKey j ≠ none}.ncard = h.items := by
  rw [(r.findOrAddKey k).1, Option.map_eq_none_iff, ← r.free_iff, r.findKey, Table.findOrAdd]
  cases t.find h.bucket k with
  | some n => simp
  | none => cases t.free <;> simp

end

theorem refines_final (calls : List KeyCall) {t : Table UInt32} (r : Refines h t) :
    ∃ t', Refines (final call h calls) t' ∧ (final call h calls).items = h.items := by
  induction calls generalizing h t with
  | nil => exact ⟨t, r, rfl⟩
  | cons c calls ih =>
    obtain ⟨t', r'⟩ := r.call c
    obtain ⟨last, refines, same⟩ := ih r'
    exact ⟨last, refines, same.trans (call_same h c).1⟩

theorem findKey_final {t : Table UInt32} (r : Refines h t) (found : h.findKey k = some n)
    {calls : List KeyCall} (kept : .delKey k ∉ calls) :
    (final call h calls).findKey k = some n := by
  induction calls generalizing h t with
  | nil => exact found
  | cons c calls ih =>
    obtain ⟨t', r'⟩ := r.call c
    obtain ⟨notFirst, notLater⟩ := not_or.mp (mt mem_cons.mpr kept)
    refine ih r' ?_ notLater
    cases c with
    | findOrAddKey j => exact r.findKey_findOrAddKey.mpr (.inl found)
    | delKey j =>
      refine r.findKey_delKey.mpr ⟨found, ?_⟩
      rintro rfl
      exact notFirst rfl

theorem findKey_final_iff {t : Table UInt32} (r : Refines h t) (none_found : h.findKey k = none)
    (calls : List KeyCall) : (final call h calls).findKey k ≠ none ↔
      ∃ before after, calls = before ++ .findOrAddKey k :: after ∧
        ((final call h before).findOrAddKey k).1.1 ≠ none ∧ .delKey k ∉ after := by
  constructor
  · induction calls using List.reverseRecOn with
    | nil => exact fun found => absurd none_found found
    | append_singleton calls c ih =>
      intro found
      obtain ⟨n, found⟩ := Option.ne_none_iff_exists'.mp found
      rw [final_append] at found
      obtain ⟨t', r', -⟩ := refines_final calls r
      have earlier (before : (final call h calls).findKey k = some n) (other : c ≠ .delKey k) :
          ∃ before after, calls ++ [c] = before ++ .findOrAddKey k :: after ∧
            ((final call h before).findOrAddKey k).1.1 ≠ none ∧ .delKey k ∉ after := by
        obtain ⟨front, back, rfl, added, kept⟩ := ih (by rw [before]; exact Option.some_ne_none n)
        refine ⟨front, back ++ [c], by simp, added, ?_⟩
        rw [mem_append, mem_singleton]
        exact not_or.mpr ⟨kept, other.symm⟩
      cases c with
      | findOrAddKey j =>
        rcases r'.findKey_findOrAddKey.mp found with before | ⟨rfl, added⟩
        · exact earlier before KeyCall.noConfusion
        · exact ⟨calls, [], rfl, by rw [added]; exact Option.some_ne_none n, not_mem_nil⟩
      | delKey j =>
        obtain ⟨before, other⟩ := r'.findKey_delKey.mp found
        exact earlier before fun same => other (KeyCall.delKey.inj same).symm
  · rintro ⟨before, after, rfl, added, kept⟩
    obtain ⟨n, added⟩ := Option.ne_none_iff_exists'.mp added
    obtain ⟨t', r', -⟩ := refines_final before r
    have found := r'.findKey_findOrAddKey.mpr (.inr ⟨rfl, added⟩)
    have last := findKey_final (r'.findOrAddKey k).2 found kept
    rw [final_append]
    intro lost
    exact Option.some_ne_none n (last.symm.trans lost)

/-- **The hash table is a map with room for `items` keys.** After any calls a key is found when a
call added it and none deleted it since; two keys that are found have different items, which stay
the same until the key is deleted; a key that is added is found; there is no room for a key only
if it is not found and `items` keys are; and the free items and the chains hold every item once. -/
theorem hashTable_run (memory : HashTable) (items hashParam : Nat) (pos : 1 ≤ items)
    (le : items ≤ 65534) (calls : List KeyCall) :
    let run := final call (memory.init items hashParam)
    let h := run calls
    (∀ k, h.findKey k ≠ none ↔ ∃ before after, calls = before ++ .findOrAddKey k :: after ∧
      ((run before).findOrAddKey k).1.1 ≠ none ∧ .delKey k ∉ after) ∧
    (∀ j k n, h.findKey j = some n → h.findKey k = some n → j = k) ∧
    (∀ k n more, h.findKey k = some n → .delKey k ∉ more →
      (run (calls ++ more)).findKey k = some n) ∧
    (∀ k n, (h.findOrAddKey k).1.1 = some n → (h.findOrAddKey k).2.findKey k = some n) ∧
    (∀ k, (h.findOrAddKey k).1.1 = none ↔
      h.findKey k = none ∧ {j | h.findKey j ≠ none}.ncard = items) ∧
    (h.emptyItems ++ (List.range items).flatMap h.chain).Perm (List.range items) := by
  intro run h
  have start := refines_init memory hashParam pos le
  have empty (k : UInt32) : (memory.init items hashParam).findKey k = none := by
    rw [start.findKey]
    rfl
  have room : (memory.init items hashParam).items = items := by
    have all (n : Nat) := start.cover n
    simp only [mem_reverse, mem_range, not_mem_nil, exists_const, or_false] at all
    exact le_antisymm (not_lt.mp fun less => lt_irrefl _ ((all _).mp less))
      (not_lt.mp fun less => lt_irrefl _ ((all _).mpr less))
  obtain ⟨t, r, same⟩ := refines_final calls start
  rw [room] at same
  refine ⟨fun k => findKey_final_iff start (empty k) calls,
    fun j k n first second => r.findKey_injective first second, fun k n more found kept => ?_,
    fun k n added => r.findKey_findOrAddKey.mpr (.inr ⟨rfl, added⟩), fun k => ?_, ?_⟩
  · show (final call _ (calls ++ more)).findKey k = some n
    rw [final_append]
    exact findKey_final r found kept
  · have full := r.findOrAddKey_eq_none_iff (k := k)
    rwa [same] at full
  · have parts := r.partition
    rwa [same] at parts

theorem hashTable_run_full :
    {j | (final call (init ⟨0, 0, none, fun _ => none, fun _ => 0, fun _ => 0, fun _ => 0⟩ 2 1)
      [.findOrAddKey 7, .findOrAddKey 5]).findKey j ≠ none}.ncard = 2 := by
  have run := hashTable_run ⟨0, 0, none, fun _ => none, fun _ => 0, fun _ => 0, fun _ => 0⟩ 2 1
    (by decide) (by decide) [.findOrAddKey 7, .findOrAddKey 5]
  exact ((run.2.2.2.2.1 9).mp (by decide +kernel)).2

end HashTable

end EchoLife.SoftSar
