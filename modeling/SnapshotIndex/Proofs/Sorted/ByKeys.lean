import Mathlib.Data.List.Find
import SnapshotIndex.Proofs.Sorted.Canonical

/-!
# Searching by keys alone

An array is in the order of keys and then of identities, and is searched by keys
without identities.  The coarser comparison is no order of the array in its own
right, since elements with equal keys stand next to each other in the order of their
identities.  But no element with smaller keys stands after one without
(`Shows.lt_partitionByKeys_iff`), and that is all that bisection asks for.

So the point that bisection finds has all elements with smaller keys before it, and
those with equal keys come next, the one with the smallest identity at the point
itself (`Shows.exists_leftmost`).  The given element is compared by its keys only,
and its own identity, be it before, among or after theirs, does not come into it
(`SortedArray.find?_congr`).  A cursor over the whole array that is sent to an element
goes to the point of bisection too, whatever there is.

`find_by_keys` puts this together for every index.
-/

namespace SnapshotIndex

open Identified (ident)

variable {α : Type} [Identified α]

/-! ## The point of bisection -/

omit [Identified α] in
/-- A search by keys does not look at anything but keys. -/
theorem SortedArray.find?_congr {c : SortedArray α} {a a' : α}
    (h : ∀ b, c.order.keys b a = c.order.keys b a') : c.find? a = c.find? a' := by
  unfold SortedArray.find? SortedArray.indexByKeys? SortedArray.partitionByKeys
  simp only [h]

omit [Identified α] in
/-- The index of a search by keys is that point, if the element there has equal keys. -/
theorem SortedArray.indexByKeys?_eq_some_iff {c : SortedArray α} {a : α} {i : Nat} :
    c.indexByKeys? a = some i ↔
      i = c.partitionByKeys a ∧ ∃ b, c.toList[i]? = some b ∧ c.order.keys b a = .eq := by
  unfold SortedArray.indexByKeys?
  dsimp only
  rw [c.get?_eq]
  constructor
  · intro h
    split at h
    · rename_i hany
      obtain rfl := Option.some.inj h
      obtain ⟨b, hb, heq⟩ := (Option.any_eq_true _ _).mp hany
      exact ⟨rfl, b, hb, of_decide_eq_true heq⟩
    · exact absurd h.symm (Option.some_ne_none i)
  · rintro ⟨rfl, b, hb, heq⟩
    rw [hb, Option.any_some, heq]
    rfl

namespace Shows

variable {order : KeyOrder α} [Std.TransCmp order.keys] {c : SortedArray α} {xs : List α}

theorem partitionByKeys_eq_countP (h : Shows order c xs) (a : α) :
    c.partitionByKeys a = xs.countP fun b => (order.keys b a).isLT := by
  have hplaces : ∀ (i : Nat) b, xs[i]? = some b →
      ((order.keys b a).isLT = true ↔ 0 ≤ i ∧ i < c.partitionByKeys a) := by
    intro i b hb
    rw [Ordering.isLT_iff_eq_lt, h.lt_partitionByKeys_iff a hb]
    omega
  have hle : c.partitionByKeys a ≤ xs.length := by
    rw [h.length_eq]
    exact c.partitionPoint_le _
  exact (countP_of_places hplaces hle).symm

/-- No element with equal keys stands before the point of bisection. -/
theorem partitionByKeys_le (h : Shows order c xs) {a b : α} {i : Nat} (hb : xs[i]? = some b)
    (heq : order.keys b a = .eq) : c.partitionByKeys a ≤ i := by
  refine Nat.le_of_not_lt fun hlt => ?_
  rw [← h.lt_partitionByKeys_iff a hb, heq] at hlt
  exact absurd hlt (by decide)

/-- If some element has equal keys, the one at the point of bisection has, and of all
of them it has the smallest identity. -/
theorem exists_leftmost (h : Shows order c xs) {a b : α} (hb : b ∈ xs)
    (heq : order.keys b a = .eq) :
    ∃ d, xs[c.partitionByKeys a]? = some d ∧ order.keys d a = .eq ∧
      ∀ e ∈ xs, order.keys e a = .eq → ((ident d).order (ident e)).isLE = true := by
  obtain ⟨i, hi⟩ := List.mem_iff_getElem?.mp hb
  have hpoint := h.partitionByKeys_le hi heq
  have hlength := (List.getElem?_eq_some_iff.mp hi).1
  obtain ⟨d, hd⟩ : ∃ d, xs[c.partitionByKeys a]? = some d :=
    ⟨_, List.getElem?_eq_getElem (by omega)⟩
  have hnotless : order.keys d a ≠ .lt := by
    rw [Ne, h.lt_partitionByKeys_iff a hd]
    exact Nat.lt_irrefl _
  -- it does not stand after the one with equal keys, so its keys are not greater either
  have hdkeys : order.keys d a = .eq := by
    rcases Nat.lt_or_eq_of_le hpoint with hlt | rfl
    · have hle := h.increasing.keys_isLE hlt hd hi
      rw [Std.TransCmp.congr_right heq] at hle
      exact (Ordering.isLE_iff_eq_lt_or_eq_eq.mp hle).resolve_left hnotless
    · rwa [Option.some.inj (hd.symm.trans hi)]
  refine ⟨d, hd, hdkeys, ?_⟩
  intro e he heq'
  obtain ⟨j, hj⟩ := List.mem_iff_getElem?.mp he
  rcases Nat.lt_or_eq_of_le (h.partitionByKeys_le hj heq') with hlt | rfl
  · have hkeys : order.keys d e = .eq := (Std.TransCmp.congr_right heq').trans hdkeys
    rw [h.increasing.ident_lt hlt hd hj hkeys]
    rfl
  · obtain rfl : d = e := Option.some.inj (hd.symm.trans hj)
    exact Std.ReflCmp.isLE_rfl

theorem indexByKeys?_eq_some_iff (h : Shows order c xs) {a : α} {i : Nat} :
    c.indexByKeys? a = some i ↔
      i = c.partitionByKeys a ∧ ∃ b, xs[i]? = some b ∧ order.keys b a = .eq := by
  obtain ⟨rfl, rfl, -⟩ := h
  exact SortedArray.indexByKeys?_eq_some_iff

theorem find?_eq_some_iff (h : Shows order c xs) {a b : α} :
    c.find? a = some b ↔ xs[c.partitionByKeys a]? = some b ∧ order.keys b a = .eq := by
  unfold SortedArray.find?
  rw [Option.bind_eq_some_iff]
  constructor
  · rintro ⟨i, hi, hb⟩
    obtain ⟨rfl, d, hd, heq⟩ := h.indexByKeys?_eq_some_iff.mp hi
    rw [h.get?_eq] at hb
    obtain rfl : d = b := Option.some.inj (hd.symm.trans hb)
    exact ⟨hd, heq⟩
  · rintro ⟨hb, heq⟩
    exact ⟨_, h.indexByKeys?_eq_some_iff.mpr ⟨rfl, b, hb, heq⟩, (h.get?_eq _).trans hb⟩

/-- The element that is found is the one with the smallest identity. -/
theorem find?_iff (h : Shows order c xs) {a b : α} :
    c.find? a = some b ↔ b ∈ xs ∧ order.keys b a = .eq ∧
      ∀ e ∈ xs, order.keys e a = .eq → ((ident b).order (ident e)).isLE = true := by
  rw [h.find?_eq_some_iff]
  constructor
  · rintro ⟨hb, heq⟩
    obtain ⟨d, hd, -, hleast⟩ := h.exists_leftmost (List.mem_of_getElem? hb) heq
    obtain rfl : d = b := Option.some.inj (hd.symm.trans hb)
    exact ⟨List.mem_of_getElem? hb, heq, hleast⟩
  · rintro ⟨hmem, heq, hleast⟩
    obtain ⟨d, hd, hdkeys, -⟩ := h.exists_leftmost hmem heq
    obtain ⟨i, hi⟩ := List.mem_iff_getElem?.mp hmem
    rcases Nat.lt_or_eq_of_le (h.partitionByKeys_le hi heq) with hlt | rfl
    · -- the one at the point would have a smaller identity
      have hkeys : order.keys d b = .eq := (Std.TransCmp.congr_right heq).trans hdkeys
      have hless := h.increasing.ident_lt hlt hd hi hkeys
      have hle := hleast d (List.mem_of_getElem? hd) hdkeys
      rw [@Std.OrientedCmp.eq_swap _ Ident.order, hless] at hle
      exact absurd hle (by decide)
    · exact ⟨hi, heq⟩

theorem find?_eq_none_iff (h : Shows order c xs) {a : α} :
    c.find? a = none ↔ ∀ b ∈ xs, order.keys b a ≠ .eq := by
  constructor
  · intro hnone b hb heq
    obtain ⟨d, hd, hdkeys, -⟩ := h.exists_leftmost hb heq
    rw [h.find?_eq_some_iff.mpr ⟨hd, hdkeys⟩] at hnone
    exact Option.some_ne_none d hnone
  · intro hnone
    rw [Option.eq_none_iff_forall_ne_some]
    intro b hb
    obtain ⟨hmem, heq, -⟩ := h.find?_iff.mp hb
    exact hnone b hmem heq

/-! ## Cursors -/

/-- What is found by keys, or else the first element with greater keys, is the first
one whose keys are not smaller. -/
theorem find?_or (h : Shows order c xs) (a : α) :
    (c.find? a).or (xs.find? fun b => (order.keys b a).isGT) =
      xs.find? fun b => (order.keys b a).isGE := by
  cases hfound : c.find? a with
  | none =>
    have hnone := h.find?_eq_none_iff.mp hfound
    rw [Option.none_or]
    refine List.find?_congr fun b hb => ?_
    cases hkeys : order.keys b a with
    | lt => rfl
    | eq => exact absurd hkeys (hnone b hb)
    | gt => rfl
  | some b =>
    rw [h.find?_eq, List.head?_filter] at hfound
    obtain ⟨hb, -⟩ := Option.filter_eq_some_iff.mp hfound
    rw [Option.some_or, hb]

end Shows

omit [Identified α] in
theorem Spot.seek_of_find? {xs : List α} {passes : α → Bool} {b : α}
    (h : xs.find? passes = some b) : ∃ i, Spot.seek xs passes = .on i ∧ xs.get i = b := by
  rw [List.find?_eq_map_findFinIdx?_getElem] at h
  obtain ⟨i, hi, hb⟩ := Option.map_eq_some_iff.mp h
  refine ⟨i, ?_, hb⟩
  rw [Spot.seek, hi]

omit [Identified α] in
theorem Spot.seek_of_find?_eq_none {xs : List α} {passes : α → Bool}
    (h : xs.find? passes = none) : Spot.seek xs passes = .exhausted := by
  rw [List.find?_eq_map_findFinIdx?_getElem] at h
  rw [Spot.seek, Option.map_eq_none_iff.mp h]

/-- A cursor over all elements of an index after some moves. -/
def SortedIndex.cursorAfter (s : SortedIndex α) (moves : List (CursorMove α)) :
    Cursor (SortedArray α) :=
  moves.foldl (fun c m => (c.use s.content m.use).2) (Cursor.whole s)

namespace Shows

variable {order : KeyOrder α} [Std.TransCmp order.keys] {s : SortedIndex α}

/-- Wherever a cursor has been moved, it is at a spot of the list of all elements. -/
theorem cursorAfter (h : Shows order s.content s.toList) (moves : List (CursorMove α)) :
    ∃ l spot,
      CursorShows (s.cursorAfter moves) s.content
        (SortedArray.spanPlaces s.content.wholeSpan) l ∧
      l.At s.toList (fun a b => (order.keys b a).isGE) spot := by
  have hstart : ListCursor.At
      ⟨s.toList, s.content.numberIn s.content.wholeSpan, .unpositioned⟩ s.toList
      (fun a b => (order.keys b a).isGE) .unpositioned := by
    refine ⟨rfl, fun a => ?_, rfl⟩
    have hwhole := h.numberIn_eq_findIdx? (s := s.content.wholeSpan) (Nat.le_refl _) a
    rwa [SortedArray.slice_whole] at hwhole
  have hwhole := Index.shows_whole_sorted s
  unfold SortedIndex.cursorAfter
  generalize Cursor.whole s = c at hwhole
  generalize ListCursor.mk s.toList _ _ = l at hwhole hstart
  generalize Spot.unpositioned = spot at hstart
  induction moves generalizing c l spot with
  | nil => exact ⟨l, spot, hwhole, hstart⟩
  | cons m moves ih => exact ih _ _ (hwhole.use m.use).2 _ (hstart.move m)

/-- Sent to an element, a cursor stands on the first element whose keys are not
smaller, or is exhausted. -/
theorem moveTo_cursorAfter (h : Shows order s.content s.toList) (moves : List (CursorMove α))
    (a : α) :
    let c := (s.cursorAfter moves).moveTo s.content a
    match s.toList.find? fun b => (order.keys b a).isGE with
    | some b => c.isValid s.content = true ∧ c.get s.content = .ok b
    | none => c.isValid s.content = false ∧ c.standing = .exhausted := by
  intro c
  obtain ⟨l, spot, hshows, hat⟩ := h.cursorAfter moves
  have hsent : CursorShows c s.content _ (l.moveTo a) := hshows.moveTo a
  have hspot := hat.moveTo a
  cases hfound : s.toList.find? fun b => (order.keys b a).isGE with
  | none =>
    rw [Spot.seek_of_find?_eq_none hfound] at hspot
    have hstanding : c.standing = .exhausted := hsent.exhausted_of_list hspot.standing_eq
    refine ⟨?_, hstanding⟩
    rw [Cursor.isValid, hstanding]
  | some b =>
    obtain ⟨i, hseek, hb⟩ := Spot.seek_of_find? hfound
    rw [hseek] at hspot
    constructor
    · rw [hsent.isValid_eq, hspot.isValid_iff]
      exact ⟨i, rfl⟩
    · rw [hsent.get_eq, hspot.get_eq]
      exact congrArg Except.ok hb

end Shows

/-! ## Every index -/

/-- What a search by keys finds in an index, and where it leads a cursor. -/
structure SortedIndex.FindsByKeys (order : KeyOrder α) (s : SortedIndex α) (a : α) : Prop where
  /-- The point of bisection counts the elements with smaller keys. -/
  partition_eq : s.content.partitionByKeys a = s.toList.countP fun b => (order.keys b a).isLT
  /-- They come first. -/
  leading : ∀ (i : Nat) b, s.toList[i]? = some b →
    (order.keys b a = .lt ↔ i < s.content.partitionByKeys a)
  /-- An index is found exactly if some element has equal keys. -/
  index_isSome_iff : (s.content.indexByKeys? a).isSome = true ↔
    ∃ b ∈ s.toList, order.keys b a = .eq
  /-- And it is the index of the first one. -/
  index_leftmost : ∀ i, s.content.indexByKeys? a = some i →
    (∃ b, s.toList[i]? = some b ∧ order.keys b a = .eq) ∧
      ∀ (j : Nat) b, s.toList[j]? = some b → order.keys b a = .eq → i ≤ j
  /-- The element that is found has the smallest identity of those with equal keys. -/
  find_iff : ∀ b, s.find? a = some b ↔ b ∈ s.toList ∧ order.keys b a = .eq ∧
    ∀ e ∈ s.toList, order.keys e a = .eq → ((ident b).order (ident e)).isLE = true
  find_none_iff : s.find? a = none ↔ ∀ b ∈ s.toList, order.keys b a ≠ .eq
  /-- The identity of the given element does not matter, nor anything but its keys. -/
  find_congr : ∀ a', order.keys a a' = .eq → s.find? a = s.find? a'
  /-- A cursor over all elements reads the content that there was at its making. -/
  reads : s.read? (Cursor.whole s).snapshot = some s.content
  /-- Wherever it has been moved, it goes to the element that is found, or else to the
  first one with greater keys. -/
  lands : ∀ (moves : List (CursorMove α)) b,
    (s.find? a).or (s.toList.find? fun b => (order.keys b a).isGT) = some b →
      ((s.cursorAfter moves).moveTo s.content a).isValid s.content = true ∧
        ((s.cursorAfter moves).moveTo s.content a).get s.content = .ok b
  /-- If there is neither it is exhausted. -/
  exhausted : ∀ moves : List (CursorMove α),
    (s.find? a).or (s.toList.find? fun b => (order.keys b a).isGT) = none →
      ((s.cursorAfter moves).moveTo s.content a).isValid s.content = false ∧
        ((s.cursorAfter moves).moveTo s.content a).standing = .exhausted

namespace Shows

variable {order : KeyOrder α} [Std.TransCmp order.keys] {s : SortedIndex α}

theorem findsByKeys (h : Shows order s.content s.toList) (a : α) : s.FindsByKeys order a where
  partition_eq := h.partitionByKeys_eq_countP a
  leading _ _ hb := h.lt_partitionByKeys_iff a hb
  index_isSome_iff := by
    rw [Option.isSome_iff_exists]
    constructor
    · rintro ⟨i, hi⟩
      obtain ⟨-, b, hb, heq⟩ := h.indexByKeys?_eq_some_iff.mp hi
      exact ⟨b, List.mem_of_getElem? hb, heq⟩
    · rintro ⟨b, hb, heq⟩
      obtain ⟨d, hd, hdkeys, -⟩ := h.exists_leftmost hb heq
      exact ⟨_, h.indexByKeys?_eq_some_iff.mpr ⟨rfl, d, hd, hdkeys⟩⟩
  index_leftmost := by
    intro i hi
    obtain ⟨rfl, hthere⟩ := h.indexByKeys?_eq_some_iff.mp hi
    exact ⟨hthere, fun j b hb heq => h.partitionByKeys_le hb heq⟩
  find_iff _ := h.find?_iff
  find_none_iff := h.find?_eq_none_iff
  find_congr := by
    intro a' hsame
    refine SortedArray.find?_congr fun b => ?_
    rw [h.order_eq]
    exact Std.TransCmp.congr_right hsame
  reads := s.store.read?_snapshot
  lands := by
    intro moves b hb
    rw [SortedIndex.find?, h.find?_or] at hb
    have hlands := h.moveTo_cursorAfter moves a
    rw [hb] at hlands
    exact hlands
  exhausted := by
    intro moves hnone
    rw [SortedIndex.find?, h.find?_or] at hnone
    have hexhausted := h.moveTo_cursorAfter moves a
    rw [hnone] at hexhausted
    exact hexhausted

end Shows

/-- A search by keys is exact, although the elements are in another order than the one
in which they are searched.  This holds of every index, in any order that is a total
preorder, and for elements that are not there as well. -/
theorem find_by_keys (order : KeyOrder α) [Std.TransCmp order.keys]
    (ops : List (Interleaved (SortedArray α) (SortedOp α))) (a : α) :
    (SortedIndex.reached order ops).FindsByKeys order a :=
  (shows_reached order ops).findsByKeys a

/-- A run of records with equal tens of their keys, searched by one whose identity is
among theirs. -/
theorem find_by_keys_bucket :
    let order := RecordOrder.bucket.keyOrder
    let probe : Record := ⟨⟨5⟩, 17, ⟨1⟩, ""⟩
    let s := SortedIndex.reached order
      [.act (.add ⟨⟨7⟩, 14, ⟨1⟩, ""⟩), .hold ⟨0⟩, .act (.add ⟨⟨2⟩, 19, ⟨1⟩, ""⟩),
        .act (.add ⟨⟨9⟩, 3, ⟨1⟩, ""⟩)]
    Std.TransCmp order.keys ∧ s.FindsByKeys order probe ∧
      s.find? probe = some ⟨⟨2⟩, 19, ⟨1⟩, ""⟩ ∧ s.content.indexByKeys? probe = some 1 :=
  ⟨inferInstance, find_by_keys RecordOrder.bucket.keyOrder _ _, rfl, rfl⟩

end SnapshotIndex
