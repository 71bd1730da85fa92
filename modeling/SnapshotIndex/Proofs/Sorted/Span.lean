import SnapshotIndex.Index.RangeView
import SnapshotIndex.Proofs.Sorted.Search

/-!
# Spans of neighbours

In an increasing array the elements that a pair of bounds admits stand next to
each other.  `inRange_iff` says that they are exactly those whose index lies
in the span of the bounds, and with that the elements inside and outside the
bounds, taken from the list of all elements by a filter, are what one finds
inside and outside the span (`slice_span`, `toList_dropSpan_span`).

The changes of an array are all such rearrangements by index.  `placed` and
`without` say what they are for the elements: one is put between the lesser
and the greater ones, or the ones that are the same as one are left out.
-/

namespace SnapshotIndex

/-! ## Filtering by place -/

section Places

variable {α : Type} {p : α → Bool} {xs : List α} {start stop : Nat}

/-- A filter that only looks at the place of an element cuts out a slice. -/
theorem filter_eq_slice
    (h : ∀ (i : Nat) a, xs[i]? = some a → (p a = true ↔ start ≤ i ∧ i < stop)) :
    xs.filter p = (xs.take stop).drop start := by
  induction xs generalizing start stop with
  | nil => simp
  | cons x rest ih =>
    have hx := h 0 x rfl
    have hnext : ∀ (i : Nat) a, rest[i]? = some a →
        (p a = true ↔ start ≤ i + 1 ∧ i + 1 < stop) := fun i a ha => h (i + 1) a ha
    cases stop with
    | zero =>
      rw [List.take_zero, List.drop_nil, List.filter_eq_nil_iff]
      intro a ha hp
      obtain ⟨i, hi⟩ := List.mem_iff_getElem?.mp ha
      have := (h i a hi).mp hp
      omega
    | succ stop =>
      cases start with
      | zero =>
        have hin : p x = true := hx.mpr ⟨Nat.le_refl 0, Nat.succ_pos stop⟩
        have hrest : rest.filter p = (rest.take stop).drop 0 := ih fun i a ha => by
          rw [hnext i a ha]
          omega
        rw [List.filter_cons_of_pos hin, hrest]
        rfl
      | succ start =>
        have hout : ¬ p x = true := fun hp => absurd (hx.mp hp).1 (Nat.not_succ_le_zero start)
        have hrest : rest.filter p = (rest.take stop).drop start := ih fun i a ha => by
          rw [hnext i a ha]
          omega
        rw [List.filter_cons_of_neg hout, hrest]
        rfl

theorem countP_of_places
    (h : ∀ (i : Nat) a, xs[i]? = some a → (p a = true ↔ start ≤ i ∧ i < stop))
    (hstop : stop ≤ xs.length) : xs.countP p = stop - start := by
  rw [List.countP_eq_length_filter, filter_eq_slice h, List.length_drop, List.length_take,
    Nat.min_eq_left hstop]

theorem filter_eq_self_of_getElem? (h : ∀ (i : Nat) a, xs[i]? = some a → p a = true) :
    xs.filter p = xs := by
  rw [List.filter_eq_self]
  intro a ha
  obtain ⟨i, hi⟩ := List.mem_iff_getElem?.mp ha
  exact h i a hi

/-- What such a filter refuses is what stands before and after the slice. -/
theorem filter_not_eq_outside
    (h : ∀ (i : Nat) a, xs[i]? = some a → (p a = true ↔ start ≤ i ∧ i < stop))
    (hle : start ≤ stop) :
    xs.filter (fun a => !p a) = xs.take start ++ xs.drop stop := by
  have hbefore : (xs.take start).filter (fun a => !p a) = xs.take start := by
    apply filter_eq_self_of_getElem?
    intro i a hi
    have hlt : i < start := by
      have := (List.getElem?_eq_some_iff.mp hi).1
      rw [List.length_take] at this
      omega
    rw [List.getElem?_take_of_lt hlt] at hi
    have hnot : ¬ p a = true := fun hp => by
      have := (h i a hi).mp hp
      omega
    simpa using hnot
  have hinside : ((xs.drop start).take (stop - start)).filter (fun a => !p a) = [] := by
    rw [List.filter_eq_nil_iff]
    intro a ha
    obtain ⟨i, hi⟩ := List.mem_iff_getElem?.mp ha
    have hlt : i < stop - start := by
      have := (List.getElem?_eq_some_iff.mp hi).1
      rw [List.length_take] at this
      omega
    rw [List.getElem?_take_of_lt hlt, List.getElem?_drop] at hi
    have hp : p a = true := (h _ a hi).mpr (by omega)
    simp [hp]
  have hafter : (xs.drop stop).filter (fun a => !p a) = xs.drop stop := by
    apply filter_eq_self_of_getElem?
    intro i a hi
    rw [List.getElem?_drop] at hi
    have hnot : ¬ p a = true := fun hp => by
      have := (h _ a hi).mp hp
      omega
    simpa using hnot
  have hsplit : xs = xs.take start ++ ((xs.drop start).take (stop - start) ++ xs.drop stop) := by
    have hdrop : xs.drop stop = (xs.drop start).drop (stop - start) := by
      rw [List.drop_drop, Nat.add_sub_cancel' hle]
    rw [hdrop, List.take_append_drop, List.take_append_drop]
  conv_lhs => rw [hsplit]
  rw [List.filter_append, List.filter_append, hbefore, hinside, hafter, List.nil_append]

/-- The first element that such a filter lets pass stands at the start of the
slice. -/
theorem first?_of_places {s : Span}
    (h : ∀ (i : Nat) a, xs[i]? = some a → (p a = true ↔ s.start ≤ i ∧ i < s.stop)) :
    s.first?.bind (fun i => xs[i]?) = (xs.filter p).head? := by
  rw [filter_eq_slice h, List.head?_drop]
  unfold Span.first? Span.isEmpty
  by_cases hempty : s.stop ≤ s.start
  · rw [if_pos (by simpa using hempty), List.getElem?_eq_none]
    · rfl
    · rw [List.length_take]
      omega
  · rw [if_neg (by simpa using hempty), List.getElem?_take_of_lt (by omega)]
    rfl

/-- And the last one stands at its end. -/
theorem last?_of_places {s : Span}
    (h : ∀ (i : Nat) a, xs[i]? = some a → (p a = true ↔ s.start ≤ i ∧ i < s.stop))
    (hstop : s.stop ≤ xs.length) :
    s.last?.bind (fun i => xs[i]?) = (xs.filter p).getLast? := by
  rw [filter_eq_slice h, List.getLast?_drop, List.length_take]
  unfold Span.last? Span.isEmpty
  by_cases hempty : s.stop ≤ s.start
  · rw [if_pos (by simpa using hempty), if_pos (by omega)]
    rfl
  · rw [if_neg (by simpa using hempty), if_neg (by omega), List.getLast?_eq_getElem?,
      List.length_take, List.getElem?_take_of_lt (by omega), Nat.min_eq_left hstop]
    rfl

end Places

namespace SortedArray

variable {α : Type}

/-! ## Changes by index -/

theorem take_drop_size (items : Array α) (i : Nat) :
    (items.toList.drop i).take (items.size - i) = items.toList.drop i :=
  List.take_of_length_le (by simp)

@[simp] theorem toList_insertAt (xs : SortedArray α) (i : Nat) (a : α) :
    (xs.insertAt i a).toList = xs.toList.take i ++ a :: xs.toList.drop i := by
  simp [insertAt, toList, take_drop_size]

@[simp] theorem toList_removeAt (xs : SortedArray α) (i : Nat) :
    (xs.removeAt i).2.toList = xs.toList.eraseIdx i := by
  simp [removeAt, toList]

@[simp] theorem toList_dropSpan (xs : SortedArray α) (s : Span) :
    (xs.dropSpan s).toList = xs.toList.take s.start ++ xs.toList.drop s.stop := by
  simp [dropSpan, toList, take_drop_size]

theorem size_insertAt (xs : SortedArray α) (i : Nat) (a : α) :
    (xs.insertAt i a).size = xs.size + 1 := by
  rw [← length_toList, ← length_toList, toList_insertAt, List.length_append, List.length_cons,
    List.length_take, List.length_drop]
  omega

theorem size_removeAt {xs : SortedArray α} {i : Nat} (h : i < xs.size) :
    (xs.removeAt i).2.size = xs.size - 1 := by
  rw [← length_toList] at h ⊢
  rw [toList_removeAt, List.length_eraseIdx_of_lt h, length_toList]

theorem size_dropSpan {xs : SortedArray α} {s : Span} (hle : s.start ≤ s.stop)
    (hstop : s.stop ≤ xs.size) : (xs.dropSpan s).size = xs.size - s.size := by
  have hlength := xs.length_toList
  unfold Span.size
  rw [← length_toList, toList_dropSpan, List.length_append, List.length_take, List.length_drop]
  omega

variable [Identified α]

/-- Puts an element between the lesser ones and the others. -/
def placed (order : KeyOrder α) (a : α) (xs : List α) : List α :=
  xs.filter (fun b => (order.compare b a).isLT) ++
    a :: xs.filter fun b => !(order.compare b a).isLT

/-- Leaves out the elements that are the same as one. -/
def without (order : KeyOrder α) (a : α) (xs : List α) : List α :=
  xs.filter fun b => !order.same b a

theorem boundStart_le_size (xs : SortedArray α) (lo : Bound α) : xs.boundStart lo ≤ xs.size := by
  cases lo with
  | unbounded => exact Nat.zero_le _
  | including a => exact xs.index_le_size a
  | excluding a => exact xs.indexPast_le_size a

theorem boundStop_le_size (xs : SortedArray α) (hi : Bound α) : xs.boundStop hi ≤ xs.size := by
  cases hi with
  | unbounded => exact Nat.le_refl _
  | including a => exact xs.indexPast_le_size a
  | excluding a => exact xs.index_le_size a

/-- The span of a view lies within the array, and runs forwards. -/
theorem span_le (xs : SortedArray α) (v : RangeView α) : (v.span xs).start ≤ (v.span xs).stop ∧
    (v.span xs).stop ≤ xs.size := by
  constructor
  · exact Nat.le_max_right _ _
  · exact Nat.max_le.mpr ⟨xs.boundStop_le_size v.hi, xs.boundStart_le_size v.lo⟩

namespace Sorted

variable {xs : SortedArray α} [Std.TransCmp xs.order.keys]

/-- An element goes where the search for it ended. -/
theorem insertAt_eq_placed (h : xs.Sorted) {a : α} :
    (xs.insertAt (xs.search a).index a).toList = placed xs.order a xs.toList := by
  have hplace : ∀ (i : Nat) b, xs.toList[i]? = some b →
      ((xs.order.compare b a).isLT = true ↔ 0 ≤ i ∧ i < (xs.search a).index) := by
    intro i b hb
    rw [h.lt_index_iff hb, Ordering.isLT_iff_eq_lt]
    simp
  rw [toList_insertAt, placed, filter_eq_slice hplace,
    filter_not_eq_outside hplace (Nat.zero_le _)]
  simp

/-- To remove an element by its index is to leave out the ones that are the
same. -/
theorem eraseIdx_eq_without (h : xs.Sorted) {a b : α} {i : Nat} (hb : xs.toList[i]? = some b)
    (hsame : xs.order.same b a = true) : xs.toList.eraseIdx i = without xs.order a xs.toList := by
  have hplace : ∀ (j : Nat) c, xs.toList[j]? = some c →
      (xs.order.same c a = true ↔ i ≤ j ∧ j < i + 1) := by
    intro j c hc
    rw [h.same_iff_of_same hb hsame hc]
    omega
  rw [without, filter_not_eq_outside hplace (Nat.le_succ i), List.eraseIdx_eq_take_drop_succ]

/-! ## Bounds -/

theorem boundStart_le_iff (h : xs.Sorted) (lo : Bound α) {b : α} {i : Nat}
    (hb : xs.toList[i]? = some b) :
    xs.boundStart lo ≤ i ↔ lo.admitsAbove xs.order b = true := by
  cases lo with
  | unbounded => simp [boundStart]
  | including a =>
    have hlt := h.lt_index_iff (a := a) hb
    change (xs.search a).index ≤ i ↔ (xs.order.compare b a).isGE = true
    rw [← Nat.not_lt, hlt]
    cases xs.order.compare b a <;> decide
  | excluding a =>
    have hle := h.lt_indexPast_iff (a := a) hb
    change (xs.search a).indexPast ≤ i ↔ (xs.order.compare b a).isGT = true
    rw [← Nat.not_lt, hle]
    cases xs.order.compare b a <;> decide

theorem lt_boundStop_iff (h : xs.Sorted) (hi : Bound α) {b : α} {i : Nat}
    (hb : xs.toList[i]? = some b) :
    i < xs.boundStop hi ↔ hi.admitsBelow xs.order b = true := by
  cases hi with
  | unbounded => simpa [boundStop] using lt_size_of_getElem? hb
  | including a => exact h.lt_indexPast_iff hb
  | excluding a =>
    unfold boundStop Bound.admitsBelow
    rw [h.lt_index_iff hb, Ordering.isLT_iff_eq_lt]

/-! ## Views -/

variable (v : RangeView α)

/-- The elements in a view are those whose index lies in its span. -/
theorem inRange_iff (h : xs.Sorted) {b : α} {i : Nat} (hb : xs.toList[i]? = some b) :
    v.inRange xs.order b = true ↔ (v.span xs).start ≤ i ∧ i < (v.span xs).stop := by
  have hstart := h.boundStart_le_iff v.lo hb
  have hstop := h.lt_boundStop_iff v.hi hb
  unfold RangeView.inRange
  rw [Bool.and_eq_true, ← hstart, ← hstop]
  simp only [RangeView.span, boundSpan]
  omega

theorem slice_span (h : xs.Sorted) :
    (xs.toList.take (v.span xs).stop).drop (v.span xs).start =
      xs.toList.filter (v.inRange xs.order) :=
  (filter_eq_slice fun _ _ hb => h.inRange_iff v hb).symm

theorem toList_dropSpan_span (h : xs.Sorted) :
    (xs.dropSpan (v.span xs)).toList = xs.toList.filter fun b => !v.inRange xs.order b := by
  rw [toList_dropSpan,
    filter_not_eq_outside (fun _ _ hb => h.inRange_iff v hb) (xs.span_le v).1]

end Sorted

end SortedArray

end SnapshotIndex
