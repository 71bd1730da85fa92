import SnapshotIndex.Proofs.Sorted.Set

/-!
# Arrays that show a list

`Shows` relates an array to the increasing list of its elements.  Each change
of an array by index keeps it, if the index comes from a search
(`Shows.insertAt`), stands for an element (`Shows.removeAt`) or belongs to the
span of a view (`Shows.dropSpan`).  The indexes at both ends of a view are
those of the least and the greatest element that it shows
(`Shows.firstIndex?_spec`, `Shows.lastIndex?_spec`).
-/

namespace SnapshotIndex

variable {α : Type} [Identified α] {order : KeyOrder α}

/-- An array whose elements, in increasing order, are those of a list. -/
structure Shows (order : KeyOrder α) (c : SortedArray α) (xs : List α) : Prop where
  order_eq : c.order = order
  toList_eq : c.toList = xs
  increasing : order.Increasing xs

theorem shows_empty : Shows order (.empty order) ([] : List α) := ⟨rfl, rfl, List.Pairwise.nil⟩

/-! ## Changes of a set -/

section Set

variable {xs : List α}

theorem without_sublist (a : α) : (SortedArray.without order a xs).Sublist xs :=
  List.filter_sublist

variable [Std.TransCmp order.keys]

/-- A new element stands between the lesser and the greater ones. -/
theorem increasing_placed (h : order.Increasing xs) {a : α}
    (hnew : ∀ b ∈ xs, order.same b a = false) :
    order.Increasing (SortedArray.placed order a xs) := by
  have hless : ∀ b ∈ xs.filter (fun b => (order.compare b a).isLT), order.compare b a = .lt := by
    intro b hb
    simpa using (List.mem_filter.mp hb).2
  have hgreater : ∀ b ∈ xs.filter (fun b => !(order.compare b a).isLT),
      order.compare a b = .lt := by
    intro b hb
    obtain ⟨hmem, hnot⟩ := List.mem_filter.mp hb
    have hne : order.compare b a ≠ .eq := by
      rw [Ne, order.compare_eq_eq_iff, hnew b hmem]
      decide
    rw [order.compare_swap]
    cases hba : order.compare b a with
    | lt => simp [hba] at hnot
    | eq => exact absurd hba hne
    | gt => rfl
  refine List.pairwise_append.mpr ⟨h.sublist List.filter_sublist,
    List.pairwise_cons.mpr ⟨hgreater, h.sublist List.filter_sublist⟩, ?_⟩
  intro b hb c hc
  rcases List.mem_cons.mp hc with rfl | hc
  · exact hless b hb
  · exact Std.TransCmp.lt_trans (hless b hb) (hgreater c hc)

end Set

/-! ## Changes of an array -/

namespace Shows

variable {c : SortedArray α} {xs : List α}

/-- An array that shows a list shows its own elements. -/
theorem self (h : Shows order c xs) : Shows order c c.toList := by
  rw [h.toList_eq]
  exact h

theorem length_eq (h : Shows order c xs) : xs.length = c.size := by
  rw [← h.toList_eq, c.length_toList]

theorem span_le (h : Shows order c xs) (v : RangeView α) :
    (v.span c).start ≤ (v.span c).stop ∧ (v.span c).stop ≤ xs.length := by
  rw [h.length_eq]
  exact c.span_le v

variable [Std.TransCmp order.keys]

theorem isFound_search (h : Shows order c xs) (a : α) :
    (c.search a).isFound = xs.any (order.same · a) := by
  obtain ⟨rfl, rfl, hinc⟩ := h
  cases hsearch : c.search a with
  | found i =>
    obtain ⟨b, hb, hsame⟩ := SortedArray.search_eq_found hsearch
    exact (List.any_eq_true.mpr ⟨b, List.mem_of_getElem? hb, hsame⟩).symm
  | missing i =>
    have hnone := (SortedArray.Sorted.search_missing_iff hinc a).mp ⟨i, hsearch⟩
    exact (List.any_eq_false.mpr fun b hb => by simp [hnone b hb]).symm

/-- An element is contained if one that is the same is there. -/
theorem contains_iff (h : Shows order c xs) (a : α) :
    c.contains a = true ↔ ∃ b ∈ xs, order.same b a = true := by
  rw [SortedArray.contains, h.isFound_search, List.any_eq_true]

theorem insertAt (h : Shows order c xs) {a : α} {i : Nat} (hsearch : c.search a = .missing i) :
    Shows order (c.insertAt i a) (SortedArray.placed order a xs) := by
  obtain ⟨rfl, rfl, hinc⟩ := h
  have hnone := (SortedArray.Sorted.search_missing_iff hinc a).mp ⟨i, hsearch⟩
  have hplaced := SortedArray.Sorted.insertAt_eq_placed hinc (a := a)
  rw [hsearch] at hplaced
  exact ⟨rfl, hplaced, increasing_placed hinc hnone⟩

/-- The element at an index is the only one that is the same as it. -/
theorem find?_same (h : Shows order c xs) {a b : α} {i : Nat} (hb : xs[i]? = some b)
    (hsame : order.same b a = true) : xs.find? (order.same · a) = some b := by
  have hplace : ∀ (j : Nat) d, xs[j]? = some d →
      (order.same d a = true ↔ i ≤ j ∧ j < i + 1) := by
    intro j d hd
    rw [h.increasing.same_iff_of_same hb hsame hd]
    omega
  rw [← List.head?_filter, filter_eq_slice hplace, List.head?_drop,
    List.getElem?_take_of_lt (Nat.lt_succ_self i), hb]

/-- The element at an index leaves together with the index. -/
theorem removeAt (h : Shows order c xs) {a b : α} {i : Nat} (hb : xs[i]? = some b)
    (hsame : order.same b a = true) :
    Shows order (c.removeAt i).2 (SortedArray.without order a xs) := by
  obtain ⟨rfl, rfl, hinc⟩ := h
  have herase := SortedArray.Sorted.eraseIdx_eq_without hinc hb hsame
  refine ⟨rfl, ?_, hinc.sublist (without_sublist a)⟩
  rw [SortedArray.toList_removeAt, herase]

theorem dropSpan (h : Shows order c xs) (v : RangeView α) :
    Shows order (c.dropSpan (v.span c)) (xs.filter fun a => !v.inRange order a) := by
  obtain ⟨rfl, rfl, hinc⟩ := h
  exact ⟨rfl, SortedArray.Sorted.toList_dropSpan_span v hinc, hinc.sublist List.filter_sublist⟩

/-! ## Reading through a view -/

/-- The elements in a view stand at the indexes of its span. -/
theorem inRange_iff (h : Shows order c xs) (v : RangeView α) (i : Nat) (a : α)
    (ha : xs[i]? = some a) :
    v.inRange order a = true ↔ (v.span c).start ≤ i ∧ i < (v.span c).stop := by
  obtain ⟨rfl, rfl, hinc⟩ := h
  exact SortedArray.Sorted.inRange_iff v hinc ha

/-- The first index of a span is that of the least element in the view. -/
theorem first?_span (h : Shows order c xs) (v : RangeView α) :
    (v.span c).first?.bind (fun i => xs[i]?) = (xs.filter (v.inRange order)).head? :=
  first?_of_places (h.inRange_iff v)

/-- The last index of a span is that of the greatest element in the view. -/
theorem last?_span (h : Shows order c xs) (v : RangeView α) :
    (v.span c).last?.bind (fun i => xs[i]?) = (xs.filter (v.inRange order)).getLast? :=
  last?_of_places (h.inRange_iff v) (h.span_le v).2

theorem firstIndex?_spec (h : Shows order c xs) (v : RangeView α) :
    (v.firstIndex? c).bind (fun i => xs[i]?) = (v.shown order xs).head? := by
  unfold RangeView.firstIndex? RangeView.shown
  split
  · rw [h.last?_span v, List.head?_reverse]
  · exact h.first?_span v

theorem lastIndex?_spec (h : Shows order c xs) (v : RangeView α) :
    (v.lastIndex? c).bind (fun i => xs[i]?) = (v.shown order xs).getLast? := by
  unfold RangeView.lastIndex? RangeView.shown
  split
  · rw [h.first?_span v, List.getLast?_reverse]
  · exact h.last?_span v

end Shows

end SnapshotIndex
