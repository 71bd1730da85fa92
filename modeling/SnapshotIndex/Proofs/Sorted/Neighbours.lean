import SnapshotIndex.Proofs.Snapshot.Reached
import SnapshotIndex.Proofs.Sorted.Reachable
import SnapshotIndex.Proofs.Sorted.Refinement
import SnapshotIndex.Proofs.Views.Reading

/-!
# The neighbours of an element

Four queries ask for the element next to a given one, which need not be there:
the greatest that is less or not greater, and the least that is not less or
greater.  All of them begin with the same search and then step down by one, or
not, and check for the end of the array, or not.

What the search leaves is a number `n` such that the wanted elements are those
before the index `n` or those from there on, and each of the two cases is settled
once.  Of the elements before it, the greatest stands just below the number and
`n` elements are not greater than it (`greatest_iff`, `upTo_eq`).  Of the elements
from there on, the least stands at the number itself and all but `n` elements are
not less than it (`least_iff`, `fromOn_eq`).  The queries differ in the number
alone, `Shows.lt_index_iff` and `Shows.lt_indexPast_iff`, and two queries with the
same number share out the elements between them.

`neighbours_exact` puts this together for every index and every array.
-/

namespace SnapshotIndex

open Identified (ident)

variable {α : Type} [Identified α]

/-! ## What is asked for -/

namespace KeyOrder

variable (order : KeyOrder α) (xs : List α)

/-- The greatest of the elements that pass a test. -/
structure Greatest (p : α → Bool) (b : α) : Prop where
  mem : b ∈ xs
  passes : p b = true
  le : ∀ c ∈ xs, p c = true → (order.compare c b).isLE = true

/-- The least of the elements that pass a test. -/
structure Least (p : α → Bool) (b : α) : Prop where
  mem : b ∈ xs
  passes : p b = true
  ge : ∀ c ∈ xs, p c = true → (order.compare c b).isGE = true

/-- The number of elements up to one that was found, if one was. -/
def upTo : Option α → Nat
  | none => 0
  | some b => xs.countP fun c => (order.compare c b).isLE

/-- The number of elements from one that was found on, if one was. -/
def fromOn : Option α → Nat
  | none => 0
  | some b => xs.countP fun c => (order.compare c b).isGE

end KeyOrder

/-- What a query finds: an element, and its index. -/
structure Finding (α : Type) where
  index? : Option Nat
  element? : Option α

/-- A query finds the wanted one of the elements that pass a test, with its own
index, and nothing exactly if no element passes the test. -/
structure Finding.Exact (found : Finding α) (xs : List α) (p : α → Bool) (Wanted : α → Prop) :
    Prop where
  element_iff : ∀ b, found.element? = some b ↔ Wanted b
  index_iff : ∀ i, found.index? = some i ↔ ∃ b, xs[i]? = some b ∧ Wanted b
  element_none_iff : found.element? = none ↔ ∀ b ∈ xs, p b = false
  index_none_iff : found.index? = none ↔ ∀ b ∈ xs, p b = false

/-- The answers to all questions about the neighbourhood of an element. -/
structure Neighbours (α : Type) where
  held : Bool
  lower : Finding α
  floor : Finding α
  ceiling : Finding α
  higher : Finding α

/-- The answers of an array. -/
def SortedArray.neighbours (c : SortedArray α) (a : α) : Neighbours α where
  held := c.contains a
  lower := ⟨c.lowerIndex? a, c.lower? a⟩
  floor := ⟨c.floorIndex? a, c.floor? a⟩
  ceiling := ⟨c.ceilingIndex? a, c.ceiling? a⟩
  higher := ⟨c.higherIndex? a, c.higher? a⟩

/-- The answers of an index, which names places and not indexes.  The place before
the start has no index, and is the only one without. -/
def SortedIndex.neighbours (s : SortedIndex α) (a : α) : Neighbours α where
  held := s.contains a
  lower := ⟨(s.lowerPosition a).index?, s.lower? a⟩
  floor := ⟨(s.floorPosition a).index?, s.floor? a⟩
  ceiling := ⟨(s.ceilingPosition a).index?, s.ceiling? a⟩
  higher := ⟨(s.higherPosition a).index?, s.higher? a⟩

/-- The answers are those that the elements of a list give. -/
structure Neighbours.Exact (found : Neighbours α) (order : KeyOrder α) (xs : List α) (a : α) :
    Prop where
  lower : found.lower.Exact xs (fun b => (order.compare b a).isLT)
    (order.Greatest xs fun b => (order.compare b a).isLT)
  floor : found.floor.Exact xs (fun b => (order.compare b a).isLE)
    (order.Greatest xs fun b => (order.compare b a).isLE)
  ceiling : found.ceiling.Exact xs (fun b => (order.compare b a).isGE)
    (order.Least xs fun b => (order.compare b a).isGE)
  higher : found.higher.Exact xs (fun b => (order.compare b a).isGT)
    (order.Least xs fun b => (order.compare b a).isGT)
  /-- An element is held exactly if it is its own floor, up to the handle. -/
  held_iff_floor : found.held = true ↔ ∃ b, found.floor.element? = some b ∧ order.same b a = true
  held_iff_ceiling :
    found.held = true ↔ ∃ b, found.ceiling.element? = some b ∧ order.same b a = true
  /-- And then it is its own ceiling too, with the same handle. -/
  floor_eq_ceiling : found.held = true → found.floor = found.ceiling
  /-- Nothing stands between the floor and the next higher element. -/
  around : order.upTo xs found.floor.element? + order.fromOn xs found.higher.element? = xs.length
  /-- Nothing stands between the next lower element and the ceiling. -/
  between : order.upTo xs found.lower.element? + order.fromOn xs found.ceiling.element? = xs.length

namespace KeyOrder

variable (order : KeyOrder α) [Std.TransCmp order.keys] {xs : List α} {a b : α}

/-- The same element, if it is there, is the greatest that is not greater. -/
theorem greatest_of_same (hb : b ∈ xs) (hsame : order.same b a = true) :
    order.Greatest xs (fun d => (order.compare d a).isLE) b := by
  have heq : order.compare b a = .eq := order.compare_eq_eq_iff.mpr hsame
  refine ⟨hb, by rw [heq]; rfl, ?_⟩
  intro d _ hle
  rwa [Std.TransCmp.congr_right heq]

/-- And it is the least that is not less. -/
theorem least_of_same (hb : b ∈ xs) (hsame : order.same b a = true) :
    order.Least xs (fun d => (order.compare d a).isGE) b := by
  have heq : order.compare b a = .eq := order.compare_eq_eq_iff.mpr hsame
  refine ⟨hb, by rw [heq]; rfl, ?_⟩
  intro d _ hge
  rwa [Std.TransCmp.congr_right heq]

end KeyOrder

/-! ## Increasing lists -/

namespace KeyOrder.Increasing

variable {order : KeyOrder α} [Std.TransCmp order.keys] {xs : List α} {n : Nat} {p : α → Bool}

theorem isLE_iff (h : order.Increasing xs) {i j : Nat} {b c : α} (hb : xs[i]? = some b)
    (hc : xs[j]? = some c) : (order.compare c b).isLE = true ↔ j ≤ i := by
  rcases Nat.lt_trichotomy j i with hlt | rfl | hgt
  · rw [h.lt_of_lt hlt hc hb]
    simpa using Nat.le_of_lt hlt
  · obtain rfl : b = c := Option.some.inj (hb.symm.trans hc)
    simp [order.compare_self]
  · rw [order.compare_swap, h.lt_of_lt hgt hb hc]
    simpa using hgt

theorem isGE_iff (h : order.Increasing xs) {i j : Nat} {b c : α} (hb : xs[i]? = some b)
    (hc : xs[j]? = some c) : (order.compare c b).isGE = true ↔ i ≤ j := by
  rw [order.compare_swap, Ordering.isGE_swap]
  exact h.isLE_iff hc hb

/-- Of the elements before an index the greatest stands just below it. -/
theorem greatest_iff (h : order.Increasing xs) (hn : n ≤ xs.length)
    (hp : ∀ (i : Nat) b, xs[i]? = some b → (p b = true ↔ i < n)) {i : Nat} {b : α}
    (hb : xs[i]? = some b) : order.Greatest xs p b ↔ n = i + 1 := by
  constructor
  · intro hgreatest
    have hi : i < n := (hp i b hb).mp hgreatest.passes
    obtain ⟨c, hc⟩ : ∃ c, xs[n - 1]? = some c := ⟨_, List.getElem?_eq_getElem (by omega)⟩
    have hpasses : p c = true := (hp _ c hc).mpr (by omega)
    have hle := (h.isLE_iff hb hc).mp (hgreatest.le c (List.mem_of_getElem? hc) hpasses)
    omega
  · rintro rfl
    refine ⟨List.mem_of_getElem? hb, (hp i b hb).mpr (Nat.lt_succ_self i), ?_⟩
    intro c hc hpasses
    obtain ⟨j, hj⟩ := List.mem_iff_getElem?.mp hc
    exact (h.isLE_iff hb hj).mpr (Nat.le_of_lt_succ ((hp j c hj).mp hpasses))

/-- Of the elements from an index on the least stands there. -/
theorem least_iff (h : order.Increasing xs)
    (hp : ∀ (i : Nat) b, xs[i]? = some b → (p b = true ↔ n ≤ i)) {i : Nat} {b : α}
    (hb : xs[i]? = some b) : order.Least xs p b ↔ n = i := by
  constructor
  · intro hleast
    have hi : n ≤ i := (hp i b hb).mp hleast.passes
    have hlength := (List.getElem?_eq_some_iff.mp hb).1
    obtain ⟨c, hc⟩ : ∃ c, xs[n]? = some c := ⟨_, List.getElem?_eq_getElem (by omega)⟩
    have hpasses : p c = true := (hp _ c hc).mpr (Nat.le_refl n)
    have hge := (h.isGE_iff hb hc).mp (hleast.ge c (List.mem_of_getElem? hc) hpasses)
    omega
  · rintro rfl
    refine ⟨List.mem_of_getElem? hb, (hp n b hb).mpr (Nat.le_refl n), ?_⟩
    intro c hc hpasses
    obtain ⟨j, hj⟩ := List.mem_iff_getElem?.mp hc
    exact (h.isGE_iff hb hj).mpr ((hp j c hj).mp hpasses)

/-- There are as many elements up to the one just below an index as the index says. -/
theorem upTo_eq (h : order.Increasing xs) (hn : n ≤ xs.length) :
    order.upTo xs ((SortedArray.below? n).bind fun i => xs[i]?) = n := by
  cases n with
  | zero => rfl
  | succ i =>
    obtain ⟨b, hb⟩ : ∃ b, xs[i]? = some b := ⟨_, List.getElem?_eq_getElem hn⟩
    rw [SortedArray.below?, Option.bind_some, hb]
    have hplaces : ∀ (j : Nat) c, xs[j]? = some c →
        ((order.compare c b).isLE = true ↔ 0 ≤ j ∧ j < i + 1) := by
      intro j c hc
      rw [h.isLE_iff hb hc]
      omega
    exact countP_of_places hplaces hn

/-- From the element at an index on there are as many elements as are left. -/
theorem fromOn_eq (h : order.Increasing xs) (n : Nat) :
    order.fromOn xs xs[n]? = xs.length - n := by
  cases hb : xs[n]? with
  | none =>
    have hn := List.getElem?_eq_none_iff.mp hb
    exact (Nat.sub_eq_zero_of_le hn).symm
  | some b =>
    refine countP_of_places (fun j c hc => ?_) (Nat.le_refl _)
    have hlength := (List.getElem?_eq_some_iff.mp hc).1
    rw [h.isGE_iff hb hc]
    omega

end KeyOrder.Increasing

/-! ## Queries -/

omit [Identified α] in
/-- A query that looks up the element at the index it finds is exact if the index is
that of the wanted element. -/
theorem Finding.Exact.of_index {xs : List α} {index? : Option Nat} {p : α → Bool}
    {Wanted : α → Prop} (hmem : ∀ b, Wanted b → b ∈ xs) (hlt : ∀ i, index? = some i → i < xs.length)
    (hindex : ∀ (i : Nat) b, xs[i]? = some b → (index? = some i ↔ Wanted b))
    (hnone : index? = none ↔ ∀ b ∈ xs, p b = false) :
    Finding.Exact ⟨index?, index?.bind fun i => xs[i]?⟩ xs p Wanted where
  element_iff := by
    intro b
    dsimp only
    rw [Option.bind_eq_some_iff]
    constructor
    · rintro ⟨i, hi, hb⟩
      exact (hindex i b hb).mp hi
    · intro hwanted
      obtain ⟨i, hb⟩ := List.mem_iff_getElem?.mp (hmem b hwanted)
      exact ⟨i, (hindex i b hb).mpr hwanted, hb⟩
  index_iff := by
    intro i
    constructor
    · intro hi
      obtain ⟨b, hb⟩ : ∃ b, xs[i]? = some b := ⟨_, List.getElem?_eq_getElem (hlt i hi)⟩
      exact ⟨b, hb, (hindex i b hb).mp hi⟩
    · rintro ⟨b, hb, hwanted⟩
      exact (hindex i b hb).mpr hwanted
  element_none_iff := by
    rw [← hnone]
    cases hfound : index? with
    | none => exact iff_of_true rfl rfl
    | some i => simp [List.getElem?_eq_getElem (hlt i hfound)]
  index_none_iff := hnone

namespace Shows

variable {order : KeyOrder α} [Std.TransCmp order.keys] {c : SortedArray α} {xs : List α} {n : Nat}
  {p : α → Bool}

/-- To step down from an index is to find the greatest of the elements before it. -/
theorem exact_below (h : Shows order c xs) (hn : n ≤ c.size)
    (hp : ∀ (i : Nat) b, xs[i]? = some b → (p b = true ↔ i < n)) :
    Finding.Exact ⟨SortedArray.below? n, (SortedArray.below? n).bind c.get?⟩ xs p
      (order.Greatest xs p) := by
  have hlength : n ≤ xs.length := by rwa [h.length_eq]
  have hbelow : ∀ i, SortedArray.below? n = some i ↔ n = i + 1 := by
    intro i
    cases n <;> simp [SortedArray.below?]
  have hnone : SortedArray.below? n = none ↔ n = 0 := by
    cases n <;> simp [SortedArray.below?]
  rw [funext h.get?_eq]
  refine .of_index (fun b hb => hb.mem) ?_ ?_ ?_
  · intro i hi
    have := (hbelow i).mp hi
    omega
  · intro i b hb
    rw [hbelow, h.increasing.greatest_iff hlength hp hb]
  · rw [hnone]
    constructor
    · rintro rfl b hb
      obtain ⟨i, hi⟩ := List.mem_iff_getElem?.mp hb
      rw [Bool.eq_false_iff, Ne, hp i b hi]
      exact Nat.not_lt_zero i
    · intro hall
      by_contra hpos
      obtain ⟨b, hb⟩ : ∃ b, xs[0]? = some b := ⟨_, List.getElem?_eq_getElem (by omega)⟩
      have hpasses := (hp 0 b hb).mpr (Nat.pos_of_ne_zero hpos)
      rw [hall b (List.mem_of_getElem? hb)] at hpasses
      exact Bool.false_ne_true hpasses

/-- To stay at an index, if it is one, is to find the least of the elements from there
on. -/
theorem exact_within (h : Shows order c xs)
    (hp : ∀ (i : Nat) b, xs[i]? = some b → (p b = true ↔ n ≤ i)) :
    Finding.Exact ⟨c.within? n, (c.within? n).bind c.get?⟩ xs p (order.Least xs p) := by
  have hwithin : ∀ i, c.within? n = some i ↔ n = i ∧ i < xs.length := by
    intro i
    rw [SortedArray.within?, h.length_eq]
    split <;> simp <;> omega
  have hnone : c.within? n = none ↔ xs.length ≤ n := by
    rw [SortedArray.within?, h.length_eq]
    split <;> simp <;> omega
  rw [funext h.get?_eq]
  refine .of_index (fun b hb => hb.mem) ?_ ?_ ?_
  · intro i hi
    exact ((hwithin i).mp hi).2
  · intro i b hb
    have hlt := (List.getElem?_eq_some_iff.mp hb).1
    rw [hwithin, h.increasing.least_iff hp hb]
    omega
  · rw [hnone]
    constructor
    · intro hend b hb
      obtain ⟨i, hi⟩ := List.mem_iff_getElem?.mp hb
      have hlt := (List.getElem?_eq_some_iff.mp hi).1
      rw [Bool.eq_false_iff, Ne, hp i b hi]
      omega
    · intro hall
      by_contra hlt
      obtain ⟨b, hb⟩ : ∃ b, xs[n]? = some b := ⟨_, List.getElem?_eq_getElem (by omega)⟩
      have hpasses := (hp n b hb).mpr (Nat.le_refl n)
      rw [hall b (List.mem_of_getElem? hb)] at hpasses
      exact Bool.false_ne_true hpasses

/-- If a part of the elements is stepped down from and the rest is stayed at, no
element is left out. -/
theorem upTo_add_fromOn (h : Shows order c xs) (hn : n ≤ c.size) :
    order.upTo xs ((SortedArray.below? n).bind c.get?) +
      order.fromOn xs ((c.within? n).bind c.get?) = xs.length := by
  have hlength : n ≤ xs.length := by rwa [h.length_eq]
  rw [c.within?_bind_get?, funext h.get?_eq, h.increasing.upTo_eq hlength,
    h.increasing.fromOn_eq, Nat.add_sub_cancel' hlength]

theorem floor_exact (h : Shows order c xs) (a : α) :
    Finding.Exact ⟨c.floorIndex? a, c.floor? a⟩ xs (fun b => (order.compare b a).isLE)
      (order.Greatest xs fun b => (order.compare b a).isLE) :=
  h.exact_below (c.indexPast_le_size a) fun _ _ hb => h.lt_indexPast_iff a hb

theorem ceiling_exact (h : Shows order c xs) (a : α) :
    Finding.Exact ⟨c.ceilingIndex? a, c.ceiling? a⟩ xs (fun b => (order.compare b a).isGE)
      (order.Least xs fun b => (order.compare b a).isGE) :=
  h.exact_within fun _ _ hb => h.index_le_iff a hb

/-- The four queries of an array are exact. -/
theorem neighbours (h : Shows order c xs) (a : α) : (c.neighbours a).Exact order xs a where
  lower := h.exact_below (c.index_le_size a) fun _ _ hb => h.lt_index_iff a hb
  floor := h.floor_exact a
  ceiling := h.ceiling_exact a
  higher := h.exact_within fun _ _ hb => h.indexPast_le_iff a hb
  held_iff_floor := by
    constructor
    · intro hheld
      obtain ⟨b, hb, hsame⟩ := (h.contains_iff a).mp hheld
      exact ⟨b, ((h.floor_exact a).element_iff b).mpr (order.greatest_of_same hb hsame), hsame⟩
    · rintro ⟨b, hfound, hsame⟩
      exact (h.contains_iff a).mpr ⟨b, (((h.floor_exact a).element_iff b).mp hfound).mem, hsame⟩
  held_iff_ceiling := by
    constructor
    · intro hheld
      obtain ⟨b, hb, hsame⟩ := (h.contains_iff a).mp hheld
      exact ⟨b, ((h.ceiling_exact a).element_iff b).mpr (order.least_of_same hb hsame), hsame⟩
    · rintro ⟨b, hfound, hsame⟩
      exact (h.contains_iff a).mpr ⟨b, (((h.ceiling_exact a).element_iff b).mp hfound).mem, hsame⟩
  floor_eq_ceiling := by
    intro hheld
    cases hsearch : c.search a with
    | missing i =>
      change (c.search a).isFound = true at hheld
      rw [hsearch] at hheld
      exact absurd hheld Bool.false_ne_true
    | found i =>
      have hlt := c.indexPast_le_size a
      rw [hsearch] at hlt
      have hindex : c.floorIndex? a = c.ceilingIndex? a := by
        rw [SortedArray.floorIndex?, SortedArray.ceilingIndex?, hsearch]
        exact (if_pos hlt).symm
      simp only [SortedArray.neighbours, SortedArray.floor?, SortedArray.ceiling?, hindex]
  around := h.upTo_add_fromOn (c.indexPast_le_size a)
  between := h.upTo_add_fromOn (c.index_le_size a)

end Shows

/-- The place of an index is as good as the index. -/
theorem SortedIndex.neighbours_eq (s : SortedIndex α) (a : α) :
    s.neighbours a = s.content.neighbours a := by
  simp only [SortedIndex.neighbours, lowerPosition, floorPosition, ceilingPosition, higherPosition,
    Position.index?_ofIndex?]
  rfl

/-- The queries for the neighbours of an element are exact, whether or not the element
is there.  This holds of every index and every array that can be reached, in any order
that is a total preorder. -/
theorem neighbours_exact (order : KeyOrder α) [Std.TransCmp order.keys] (a : α) :
    (∀ ops : List (Interleaved (SortedArray α) (SortedOp α)),
      let s := SortedIndex.reached order ops
      (s.neighbours a).Exact order s.toList a) ∧
    ∀ ops : List (ArrayOp α),
      let c := (runAll SortedArray.perform (SortedArray.empty order) ops).2
      (c.neighbours a).Exact order c.toList a := by
  constructor
  · intro ops s
    rw [s.neighbours_eq]
    exact (shows_reached order ops).neighbours a
  · intro ops c
    exact (Index.shows_arrayRun ops).neighbours a

/-- The neighbours of a record that is not there, between others with equal tens of
their keys. -/
theorem neighbours_exact_bucket :
    let order := RecordOrder.bucket.keyOrder
    let probe : Record := ⟨⟨5⟩, 17, ⟨1⟩, ""⟩
    let s := SortedIndex.reached order
      [.act (.add ⟨⟨7⟩, 14, ⟨1⟩, ""⟩), .hold ⟨0⟩, .act (.add ⟨⟨2⟩, 19, ⟨1⟩, ""⟩),
        .act (.add ⟨⟨1⟩, 23, ⟨1⟩, ""⟩)]
    Std.TransCmp order.keys ∧ (s.neighbours probe).Exact order s.toList probe ∧
      s.floor? probe = some ⟨⟨2⟩, 19, ⟨1⟩, ""⟩ ∧ s.higherPosition probe = .nth 1 :=
  ⟨inferInstance, (neighbours_exact RecordOrder.bucket.keyOrder _).1 _, rfl, rfl⟩

end SnapshotIndex
