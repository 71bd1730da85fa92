import SnapshotIndex.Proofs.Snapshot.Captures
import SnapshotIndex.Proofs.Sorted.Reachable
import SnapshotIndex.Proofs.Sorted.Refinement

/-!
# What a range view reads

A view answers from indexes: it finds its own span by bisection, and to look for
a neighbour of an element it takes the index where a search in the whole array
leads and clamps it into the span.

The obstacle is the clamping.  It goes up or down from an index that may lie
before, within or past the span, which itself may be empty or at either end.
`clampDown_below?` and `clampUp_within?` say that in all these cases a clamped
index is one end of a narrower span, cut off where the search led.  By its
places such a span is a filter of the elements, like the span of the view, and
so the neighbours in a view are the ends of a filtered list
(`Shows.below?_eq`, `Shows.above?_eq`).

* `Reads`: everything that can be read of a view is what the elements between its
  bounds say, in the order of the view.
* `view_reads`: over every run, for every view.
-/

namespace SnapshotIndex

open Identified (ident)

variable {α : Type}

/-! ## Spans that are cut off -/

/-- An index that is clamped down ends the part of the span before it. -/
theorem Span.clampDown_below? (s : Span) (n : Nat) :
    s.clampDown (SortedArray.below? n) = (⟨s.start, min s.stop n⟩ : Span).last? := by
  unfold clampDown last? isEmpty
  cases n with
  | zero => simp [SortedArray.below?]
  | succ i =>
    simp only [SortedArray.below?, Option.bind_some, decide_eq_true_eq]
    by_cases hstop : s.stop = 0
    · rw [if_pos hstop, if_pos (by omega)]
    · have hmin : min i (s.stop - 1) = min s.stop (i + 1) - 1 := by omega
      rw [if_neg hstop, hmin]
      by_cases hle : s.start ≤ min s.stop (i + 1) - 1
      · rw [if_pos hle, if_neg (by omega)]
      · rw [if_neg hle, if_pos (by omega)]

/-- An index that is clamped up begins the part of the span from there on. -/
theorem Span.clampUp_within? (s : Span) {xs : SortedArray α} (hstop : s.stop ≤ xs.size) (n : Nat) :
    s.clampUp (xs.within? n) = (⟨max s.start n, s.stop⟩ : Span).first? := by
  unfold clampUp first? isEmpty SortedArray.within?
  simp only [decide_eq_true_eq]
  by_cases hn : n < xs.size
  · rw [if_pos hn, Option.bind_some, Nat.max_comm]
    by_cases hlt : max s.start n < s.stop
    · rw [if_pos hlt, if_neg (by omega)]
    · rw [if_neg hlt, if_pos (by omega)]
  · rw [if_neg hn, if_pos (by omega)]
    rfl

/-! ## Neighbours -/

variable [Identified α] {order : KeyOrder α}

namespace Shows

variable {c : SortedArray α} {xs : List α} [Std.TransCmp order.keys]

/-- The lesser elements stand before the index of a search. -/
theorem lt_index_iff (h : Shows order c xs) (a : α) {i : Nat} {b : α} (hb : xs[i]? = some b) :
    (order.compare b a).isLT = true ↔ i < (c.search a).index := by
  obtain ⟨rfl, rfl, hinc⟩ := h
  rw [SortedArray.Sorted.lt_index_iff hinc hb, Ordering.isLT_iff_eq_lt]

/-- Those that are not greater stand before the index past it. -/
theorem lt_indexPast_iff (h : Shows order c xs) (a : α) {i : Nat} {b : α} (hb : xs[i]? = some b) :
    (order.compare b a).isLE = true ↔ i < (c.search a).indexPast := by
  obtain ⟨rfl, rfl, hinc⟩ := h
  rw [SortedArray.Sorted.lt_indexPast_iff hinc hb]

/-- The others stand from the index on. -/
theorem index_le_iff (h : Shows order c xs) (a : α) {i : Nat} {b : α} (hb : xs[i]? = some b) :
    (order.compare b a).isGE = true ↔ (c.search a).index ≤ i := by
  rw [← Nat.not_lt, ← h.lt_index_iff a hb]
  cases order.compare b a <;> decide

/-- The greater elements stand from the index past a search on. -/
theorem indexPast_le_iff (h : Shows order c xs) (a : α) {i : Nat} {b : α} (hb : xs[i]? = some b) :
    (order.compare b a).isGT = true ↔ (c.search a).indexPast ≤ i := by
  rw [← Nat.not_lt, ← h.lt_indexPast_iff a hb]
  cases order.compare b a <;> decide

omit [Std.TransCmp order.keys] in
theorem get?_eq (h : Shows order c xs) (i : Nat) : c.get? i = xs[i]? := by
  rw [SortedArray.get?_eq, h.toList_eq]

/-- Below a number that tells a part of the elements from the rest, the last
index of a view is that of its last element of that part. -/
theorem clampDown_eq (h : Shows order c xs) (v : RangeView α) {n : Nat} {p : α → Bool}
    (hp : ∀ (i : Nat) b, xs[i]? = some b → (p b = true ↔ i < n)) :
    ((v.span c).clampDown (SortedArray.below? n)).bind c.get? =
      ((xs.filter (v.inRange order)).filter p).getLast? := by
  let cut : Span := ⟨(v.span c).start, min (v.span c).stop n⟩
  have hplaces : ∀ (i : Nat) b, xs[i]? = some b →
      ((p b && v.inRange order b) = true ↔ cut.start ≤ i ∧ i < cut.stop) := by
    intro i b hb
    rw [Bool.and_eq_true, hp i b hb, h.inRange_iff v i b hb]
    dsimp only [cut]
    omega
  have hstop : cut.stop ≤ xs.length := Nat.le_trans (Nat.min_le_left _ _) (h.span_le v).2
  rw [Span.clampDown_below?, List.filter_filter, ← last?_of_places hplaces hstop]
  exact Option.bind_congr fun i _ => h.get?_eq i

/-- From such a number on, the first index of a view is that of its first
element of the rest. -/
theorem clampUp_eq (h : Shows order c xs) (v : RangeView α) {n : Nat} {p : α → Bool}
    (hp : ∀ (i : Nat) b, xs[i]? = some b → (p b = true ↔ n ≤ i)) :
    ((v.span c).clampUp (c.within? n)).bind c.get? =
      ((xs.filter (v.inRange order)).filter p).head? := by
  let cut : Span := ⟨max (v.span c).start n, (v.span c).stop⟩
  have hplaces : ∀ (i : Nat) b, xs[i]? = some b →
      ((p b && v.inRange order b) = true ↔ cut.start ≤ i ∧ i < cut.stop) := by
    intro i b hb
    rw [Bool.and_eq_true, hp i b hb, h.inRange_iff v i b hb]
    dsimp only [cut]
    omega
  rw [Span.clampUp_within? _ (c.span_le v).2, List.filter_filter, ← first?_of_places hplaces]
  exact Option.bind_congr fun i _ => h.get?_eq i

theorem below?_eq (h : Shows order c xs) (v : RangeView α) (a : α) :
    v.below? c a = ((xs.filter (v.inRange order)).filter fun b =>
      (order.compare b a).isLT).getLast? :=
  h.clampDown_eq v fun _ _ hb => h.lt_index_iff a hb

theorem atOrBelow?_eq (h : Shows order c xs) (v : RangeView α) (a : α) :
    v.atOrBelow? c a = ((xs.filter (v.inRange order)).filter fun b =>
      (order.compare b a).isLE).getLast? :=
  h.clampDown_eq v fun _ _ hb => h.lt_indexPast_iff a hb

theorem atOrAbove?_eq (h : Shows order c xs) (v : RangeView α) (a : α) :
    v.atOrAbove? c a = ((xs.filter (v.inRange order)).filter fun b =>
      (order.compare b a).isGE).head? :=
  h.clampUp_eq v fun _ _ hb => h.index_le_iff a hb

theorem above?_eq (h : Shows order c xs) (v : RangeView α) (a : α) :
    v.above? c a = ((xs.filter (v.inRange order)).filter fun b =>
      (order.compare b a).isGT).head? :=
  h.clampUp_eq v fun _ _ hb => h.indexPast_le_iff a hb

end Shows

/-! ## The order of a view -/

namespace RangeView

variable {v : RangeView α}

/-- How two elements compare in the order of a view. -/
def compare (order : KeyOrder α) (v : RangeView α) (a b : α) : Ordering :=
  if v.descending then order.compare b a else order.compare a b

theorem mem_shown {a : α} {xs : List α} :
    a ∈ v.shown order xs ↔ a ∈ xs ∧ v.inRange order a = true := by
  unfold shown
  split <;> simp [List.mem_filter]

theorem length_shown (v : RangeView α) (xs : List α) :
    (v.shown order xs).length = (xs.filter (v.inRange order)).length := by
  unfold shown
  split <;> simp

/-- The elements that a view shows stand in its order. -/
theorem pairwise_shown {xs : List α} (h : order.Increasing xs) (v : RangeView α) :
    (v.shown order xs).Pairwise fun a b => v.compare order a b = .lt := by
  have hkept : order.Increasing (xs.filter (v.inRange order)) := h.sublist List.filter_sublist
  unfold shown compare
  split
  · exact List.pairwise_reverse.mpr hkept
  · exact hkept

section Ends

variable [Std.TransCmp order.keys] (v : RangeView α) (xs : List α) (a : α) (p : Ordering → Bool)

/-- The last element on one side of another one is, in a descending view, the
first one on the opposite side in the order of the index. -/
theorem getLast?_shown :
    ((v.shown order xs).filter fun b => p (v.compare order b a)).getLast? =
      if v.descending then
        ((xs.filter (v.inRange order)).filter fun b => p (order.compare b a).swap).head?
      else ((xs.filter (v.inRange order)).filter fun b => p (order.compare b a)).getLast? := by
  unfold shown compare
  split
  · rw [List.filter_reverse, List.getLast?_reverse]
    simp only [← order.compare_swap]
  · rfl

theorem head?_shown :
    ((v.shown order xs).filter fun b => p (v.compare order b a)).head? =
      if v.descending then
        ((xs.filter (v.inRange order)).filter fun b => p (order.compare b a).swap).getLast?
      else ((xs.filter (v.inRange order)).filter fun b => p (order.compare b a)).head? := by
  unfold shown compare
  split
  · rw [List.filter_reverse, List.head?_reverse]
    simp only [← order.compare_swap]
  · rfl

end Ends

/-- Elements that are the same are between the same bounds. -/
theorem inRange_of_same [Std.TransCmp order.keys] {a b : α} (h : order.same b a = true)
    (v : RangeView α) : v.inRange order b = v.inRange order a := by
  have hcompare : ∀ c, order.compare b c = order.compare a c := fun c =>
    Std.TransCmp.congr_left (order.compare_eq_eq_iff.mpr h)
  unfold inRange Bound.admitsAbove Bound.admitsBelow
  simp only [hcompare]

end RangeView

/-! ## Everything that can be read -/

/-- Everything that can be read of a view of an index is what the elements
between its bounds say, in the order of the view. -/
structure RangeView.Reads (order : KeyOrder α) (v : RangeView α) (s : SortedIndex α) : Prop where
  pairwise : (v.shown order s.toList).Pairwise fun a b => v.compare order a b = .lt
  toList_eq : v.toList s = v.shown order s.toList
  walk_read : s.read? (v.walk s).snapshot = some s.content
  walk_remaining : (v.walk s).remaining = (v.shown order s.toList).length
  /-- Any number of steps of a walk take as many elements, until all are taken. -/
  walk_drain : ∀ steps, (Walk.drainWith Walk.next s.content steps (v.walk s)).1 =
    (v.shown order s.toList).take steps
  size_eq : v.size s.content = (v.shown order s.toList).length
  isEmpty_eq : v.isEmpty s.content = (v.shown order s.toList).isEmpty
  contains_iff : ∀ a, v.contains s.content a = true ↔
    ∃ b ∈ v.shown order s.toList, order.keys b a = .eq ∧ ident b = ident a
  first_eq : v.first? s.content = (v.shown order s.toList).head?
  last_eq : v.last? s.content = (v.shown order s.toList).getLast?
  lower_eq : ∀ a, v.lower? s.content a =
    ((v.shown order s.toList).filter fun b => (v.compare order b a).isLT).getLast?
  floor_eq : ∀ a, v.floor? s.content a =
    ((v.shown order s.toList).filter fun b => (v.compare order b a).isLE).getLast?
  ceiling_eq : ∀ a, v.ceiling? s.content a =
    ((v.shown order s.toList).filter fun b => (v.compare order b a).isGE).head?
  higher_eq : ∀ a, v.higher? s.content a =
    ((v.shown order s.toList).filter fun b => (v.compare order b a).isGT).head?
  cursor_read : s.read? (v.cursor s).snapshot = some s.content
  cursor_size : (v.cursor s).size = (s.toList.filter (v.inRange order)).length
  /-- A cursor visits the elements in the order of the index, and then stands on
  none. -/
  cursor_visit : (((v.cursor s).toFirst s.content).visit s.content).1 =
    s.toList.filter (v.inRange order)
  cursor_end : (((v.cursor s).toFirst s.content).visit s.content).2.isValid s.content = false
  /-- From its last element it visits them backwards. -/
  cursor_visitBack : (((v.cursor s).toLast s.content).visitBack s.content).1 =
    (s.toList.filter (v.inRange order)).reverse

/-! ## Proof that a view reads so -/

namespace Shows

variable {s : SortedIndex α} [Std.TransCmp order.keys]

/-- A walk over a view is one over the elements that it shows. -/
theorem rest_walk (h : Shows order s.content s.toList) (v : RangeView α) :
    ∃ l : ListWalk α, WalkShows (v.walk s) s.content l ∧ l.rest.1 = v.shown order s.toList := by
  refine ⟨_, Index.shows_walk_view s v, ?_⟩
  rw [h.slice_span v]
  rfl

theorem length_span (h : Shows order s.content s.toList) (v : RangeView α) :
    (v.shown order s.toList).length = (v.span s.content).size := by
  rw [RangeView.length_shown, ← h.slice_span v, SortedArray.length_slice (s.content.span_le v).2]

theorem isEmpty_span (h : Shows order s.content s.toList) (v : RangeView α) :
    v.isEmpty s.content = (v.shown order s.toList).isEmpty := by
  have hlength := h.length_span v
  rw [Bool.eq_iff_iff, List.isEmpty_iff_length_eq_zero, hlength]
  simp only [RangeView.isEmpty, Span.isEmpty, Span.size, decide_eq_true_eq]
  omega

theorem contains_view_iff (h : Shows order s.content s.toList) (v : RangeView α) (a : α) :
    v.contains s.content a = true ↔
      ∃ b ∈ v.shown order s.toList, order.keys b a = .eq ∧ ident b = ident a := by
  have hsame : ∀ b, order.same b a = true ↔ order.keys b a = .eq ∧ ident b = ident a :=
    fun b => decide_eq_true_iff
  rw [RangeView.contains, h.order_eq, Bool.and_eq_true, h.contains_iff]
  constructor
  · rintro ⟨hin, b, hb, heq⟩
    rw [← RangeView.inRange_of_same heq v] at hin
    exact ⟨b, RangeView.mem_shown.mpr ⟨hb, hin⟩, (hsame b).mp heq⟩
  · rintro ⟨b, hb, heq⟩
    obtain ⟨hmem, hin⟩ := RangeView.mem_shown.mp hb
    rw [RangeView.inRange_of_same ((hsame b).mpr heq) v] at hin
    exact ⟨hin, b, hmem, (hsame b).mpr heq⟩

theorem lower_eq (h : Shows order s.content s.toList) (v : RangeView α) (a : α) :
    v.lower? s.content a =
      ((v.shown order s.toList).filter fun b => (v.compare order b a).isLT).getLast? := by
  unfold RangeView.lower?
  rw [h.above?_eq, h.below?_eq, RangeView.getLast?_shown v _ a Ordering.isLT]
  simp only [Ordering.isLT_swap]

theorem floor_eq (h : Shows order s.content s.toList) (v : RangeView α) (a : α) :
    v.floor? s.content a =
      ((v.shown order s.toList).filter fun b => (v.compare order b a).isLE).getLast? := by
  unfold RangeView.floor?
  rw [h.atOrAbove?_eq, h.atOrBelow?_eq, RangeView.getLast?_shown v _ a Ordering.isLE]
  simp only [Ordering.isLE_swap]

theorem ceiling_eq (h : Shows order s.content s.toList) (v : RangeView α) (a : α) :
    v.ceiling? s.content a =
      ((v.shown order s.toList).filter fun b => (v.compare order b a).isGE).head? := by
  unfold RangeView.ceiling?
  rw [h.atOrBelow?_eq, h.atOrAbove?_eq, RangeView.head?_shown v _ a Ordering.isGE]
  simp only [Ordering.isGE_swap]

theorem higher_eq (h : Shows order s.content s.toList) (v : RangeView α) (a : α) :
    v.higher? s.content a =
      ((v.shown order s.toList).filter fun b => (v.compare order b a).isGT).head? := by
  unfold RangeView.higher?
  rw [h.below?_eq, h.above?_eq, RangeView.head?_shown v _ a Ordering.isGT]
  simp only [Ordering.isGT_swap]

/-- Each view of an index that shows its elements in increasing order reads so. -/
theorem reads (h : Shows order s.content s.toList) (v : RangeView α) : v.Reads order s := by
  obtain ⟨l, hwalk, hrest⟩ := h.rest_walk v
  have hcursor := Index.shows_cursor_view s v
  rw [h.slice_span v] at hcursor
  have hlength := h.length_span v
  refine
    { pairwise := RangeView.pairwise_shown h.increasing v
      toList_eq := hwalk.rest.1.trans hrest
      walk_read := ?_
      walk_remaining := ?_
      walk_drain := fun steps => hrest ▸ hwalk.drain_next steps
      size_eq := hlength.symm
      isEmpty_eq := h.isEmpty_span v
      contains_iff := h.contains_view_iff v
      first_eq := ?_
      last_eq := ?_
      lower_eq := h.lower_eq v
      floor_eq := h.floor_eq v
      ceiling_eq := h.ceiling_eq v
      higher_eq := h.higher_eq v
      cursor_read := s.store.read?_snapshot
      cursor_size := hcursor.size_eq
      cursor_visit := ?_
      cursor_end := ?_
      cursor_visitBack := ?_ }
  · rw [Index.snapshot_walk_view]
    exact s.store.read?_snapshot
  · rw [hlength]
    unfold RangeView.walk
    dsimp only
    split <;> rfl
  · rw [← h.firstIndex?_spec v]
    exact Option.bind_congr fun i _ => h.get?_eq i
  · rw [← h.lastIndex?_spec v]
    exact Option.bind_congr fun i _ => h.get?_eq i
  · rw [hcursor.toFirst.visit.1]
    exact (ListCursor.visit_toFirst _ _ _).1
  · rw [hcursor.toFirst.visit.2.isValid_eq]
    exact (ListCursor.visit_toFirst _ _ _).2
  · rw [hcursor.toLast.visitBack.1]
    exact ListCursor.visitBack_toLast _ _ _

end Shows

/-- Over every run of a sorted index, with changes through any views and captures
anywhere in between, every view of it reads as the elements between its bounds. -/
theorem view_reads (order : KeyOrder α) [Std.TransCmp order.keys]
    (ops : List (Interleaved (SortedArray α) (SortedOp α))) (v : RangeView α) :
    v.Reads order (SortedIndex.reached order ops) :=
  (shows_reached order ops).reads v

/-- Records that have equal tens of their keys, seen downwards from one that is
left out. -/
theorem view_reads_bucket :
    Std.TransCmp RecordOrder.bucket.keyOrder.keys ∧
      let s := SortedIndex.reached RecordOrder.bucket.keyOrder
        [.act (.add ⟨⟨2⟩, 11, ⟨1⟩, ""⟩), .hold ⟨0⟩, .act (.add ⟨⟨7⟩, 14, ⟨1⟩, ""⟩),
          .act (.add ⟨⟨3⟩, 19, ⟨1⟩, ""⟩)]
      let v : RangeView Record := ⟨.unbounded, .excluding ⟨⟨7⟩, 15, ⟨1⟩, ""⟩, true⟩
      v.Reads RecordOrder.bucket.keyOrder s ∧
        v.shown RecordOrder.bucket.keyOrder s.toList = [⟨⟨3⟩, 19, ⟨1⟩, ""⟩, ⟨⟨2⟩, 11, ⟨1⟩, ""⟩] :=
  ⟨inferInstance, view_reads RecordOrder.bucket.keyOrder _ _, rfl⟩

end SnapshotIndex
