import SnapshotIndex.Proofs.Sorted.Span
import SnapshotIndex.Proofs.Traversal.Cursors

/-!
# Traversing an array

Every index of an array holds an element, so the places of a span are its
indexes.  `slice` is what a span cuts out of an array, and `window_span` the
window that a cursor or a walk of a view goes over.  The array as a whole is
the window of the span of all indexes (`window_whole`).
-/

namespace SnapshotIndex

namespace SortedArray

variable {α : Type}

/-- The elements at the indexes of a span. -/
def slice (xs : SortedArray α) (s : Span) : List α := (xs.toList.take s.stop).drop s.start

/-- The indexes of a span. -/
def spanPlaces (s : Span) : List Nat := List.range' s.start s.size

theorem getElem?_spanPlaces {s : Span} {i p : Nat} :
    (spanPlaces s)[i]? = some p ↔ i < s.size ∧ p = s.start + i := by
  unfold spanPlaces
  by_cases hi : i < s.size
  · rw [List.getElem?_range' hi]
    simp only [Nat.one_mul, Option.some.injEq, hi, true_and]
    exact eq_comm
  · rw [List.getElem?_eq_none (by simpa using hi)]
    simp [hi]

theorem mem_spanPlaces {s : Span} {p : Nat} : p ∈ spanPlaces s ↔ s.start ≤ p ∧ p < s.stop := by
  unfold spanPlaces Span.size
  rw [List.mem_range'_1]
  omega

theorem head?_spanPlaces {s : Span} {p : Nat} (hp : (spanPlaces s).head? = some p) :
    s.start < s.stop ∧ p = s.start := by
  rw [List.head?_eq_getElem?, getElem?_spanPlaces] at hp
  unfold Span.size at hp
  omega

theorem getLast?_spanPlaces {s : Span} {p : Nat} (hp : (spanPlaces s).getLast? = some p) :
    s.start < s.stop ∧ p = s.stop - 1 := by
  rw [List.getLast?_eq_getElem?, getElem?_spanPlaces] at hp
  have hlength : (spanPlaces s).length = s.size := List.length_range'
  unfold Span.size at hp hlength
  omega

theorem length_slice {xs : SortedArray α} {s : Span} (hstop : s.stop ≤ xs.size) :
    (xs.slice s).length = s.size := by
  have hlength := xs.length_toList
  unfold slice Span.size
  rw [List.length_drop, List.length_take]
  omega

theorem getElem?_slice (xs : SortedArray α) {s : Span} {i : Nat} (hi : i < s.size) :
    (xs.slice s)[i]? = xs.toList[s.start + i]? := by
  unfold Span.size at hi
  unfold slice
  rw [List.getElem?_drop, List.getElem?_take_of_lt (by omega)]

theorem chain_span {xs : SortedArray α} {s : Span} (hstop : s.stop ≤ xs.size) :
    Chain xs (spanPlaces s) (xs.slice s) where
  length_eq := by
    rw [length_slice hstop]
    exact List.length_range'
  get?_eq := by
    intro i p hp
    obtain ⟨hi, rfl⟩ := getElem?_spanPlaces.mp hp
    rw [xs.getElem?_slice hi, ← get?_eq]
    rfl
  next_eq := by
    intro i p q hp hq
    obtain ⟨-, rfl⟩ := getElem?_spanPlaces.mp hp
    obtain ⟨-, rfl⟩ := getElem?_spanPlaces.mp hq
    rfl
  prev_eq := by
    intro i p q hp hq
    obtain ⟨-, rfl⟩ := getElem?_spanPlaces.mp hp
    obtain ⟨-, rfl⟩ := getElem?_spanPlaces.mp hq
    rfl

/-- A span within an array is a window, also if it is empty. -/
theorem window_span {xs : SortedArray α} {s : Span} (hstop : s.stop ≤ xs.size) :
    Window xs (.nth s.start) (.ofIndex? s.last?) (spanPlaces s) (xs.slice s) where
  toChain := chain_span hstop
  first_eq := by
    intro p hp
    rw [(head?_spanPlaces hp).2]
  last_eq := by
    intro p hp
    obtain ⟨hlt, rfl⟩ := getLast?_spanPlaces hp
    unfold Span.last? Span.isEmpty
    rw [if_neg (by simpa using hlt)]
    rfl
  holds_iff := by
    intro q
    have hlength := xs.length_toList
    constructor
    · rintro ⟨hfirst, hlast, -⟩
      cases q with
      | before => exact absurd hfirst (Nat.not_succ_le_zero _)
      | nth p =>
        -- an empty span ends before the first index, so that no place is within it
        have hstart : s.start ≤ p := Nat.le_of_succ_le_succ hfirst
        refine ⟨p, mem_spanPlaces.mpr ⟨hstart, ?_⟩, rfl⟩
        unfold Span.last? Span.isEmpty at hlast
        split at hlast
        · exact absurd hlast (Nat.not_succ_le_zero _)
        · rename_i hnonempty
          have hp : p ≤ s.stop - 1 := Nat.le_of_succ_le_succ hlast
          simp only [decide_eq_true_eq] at hnonempty
          omega
    · rintro ⟨p, hp, rfl⟩
      obtain ⟨hstart, hlt⟩ := mem_spanPlaces.mp hp
      have hlast : s.last? = some (s.stop - 1) := by
        unfold Span.last? Span.isEmpty
        rw [if_neg (by simp only [decide_eq_true_eq]; omega)]
      refine ⟨Nat.succ_le_succ hstart, ?_, ?_⟩
      · rw [hlast]
        exact Nat.succ_le_succ (by omega)
      · change (xs.get? p).isSome = true
        rw [get?_eq, List.getElem?_eq_getElem (by omega)]
        rfl
  past_last := by
    intro p hp r hr hnext
    obtain ⟨hlt, rfl⟩ := getLast?_spanPlaces hp
    have hnext : s.stop - 1 + 1 = r := Position.nth.inj hnext
    have := mem_spanPlaces.mp hr
    omega
  past_first := by
    intro p hp r hr hprev
    obtain ⟨hlt, rfl⟩ := head?_spanPlaces hp
    have hmem := mem_spanPlaces.mp hr
    cases hstart : s.start with
    | zero =>
      rw [hstart] at hprev
      exact absurd hprev (by simp [Positional.prev, Position.pred])
    | succ i =>
      rw [hstart] at hprev
      have : i = r := Position.nth.inj hprev
      omega

/-! ## Searching -/

/-- The number, among the elements of a span, of the first one that a search by
keys finds not to be smaller. -/
def numberIn (xs : SortedArray α) (s : Span) (a : α) : Option Nat :=
  let i := max (xs.partitionByKeys a) s.start - s.start
  if i < s.size then some i else none

/-- A cursor that is sent to an element goes to the first one of its span that
a search by keys finds not to be smaller. -/
theorem seeks_span (xs : SortedArray α) (s : Span) :
    Seeks xs (.nth s.start) (spanPlaces s) (xs.numberIn s) := by
  intro a
  have hplace : (Positional.seek xs a).later (.nth s.start) =
      .nth (max (xs.partitionByKeys a) s.start) := by
    change Position.later (.nth (xs.partitionByKeys a)) (.nth s.start) = _
    unfold Position.later
    split
    · rename_i hle
      rw [Nat.max_eq_right (Nat.le_of_succ_le_succ hle)]
    · rename_i hgt
      have hlt : ¬ xs.partitionByKeys a ≤ s.start := fun hle => hgt (Nat.succ_le_succ hle)
      rw [Nat.max_eq_left (by omega)]
  by_cases hi : max (xs.partitionByKeys a) s.start - s.start < s.size
  · have hnumber : xs.numberIn s a = some (max (xs.partitionByKeys a) s.start - s.start) :=
      if_pos hi
    rw [hnumber]
    refine ⟨_, getElem?_spanPlaces.mpr ⟨hi, rfl⟩, by simp [Positional.seek], ?_⟩
    rw [hplace, Nat.add_sub_cancel' (Nat.le_max_right _ _)]
  · have hnumber : xs.numberIn s a = none := if_neg hi
    rw [hnumber]
    right
    intro p hp heq
    rw [hplace] at heq
    have heq := Position.nth.inj heq
    have hmem := mem_spanPlaces.mp hp
    unfold Span.size at hi
    rw [heq] at hi
    omega

/-! ## The whole array -/

/-- The span of all indexes. -/
def wholeSpan (xs : SortedArray α) : Span := ⟨0, xs.size⟩

theorem slice_whole (xs : SortedArray α) : xs.slice xs.wholeSpan = xs.toList := by
  unfold slice wholeSpan
  rw [List.drop_zero, List.take_of_length_le (Nat.le_of_eq xs.length_toList)]

theorem last_whole (xs : SortedArray α) :
    Positional.last xs = .ofIndex? xs.wholeSpan.last? := by
  change Position.pred xs.size = _
  unfold wholeSpan Span.last? Span.isEmpty
  cases xs.size with
  | zero => rfl
  | succ n => simp [Position.pred, Position.ofIndex?]

theorem window_whole (xs : SortedArray α) :
    Window xs (Positional.first xs) (Positional.last xs) (spanPlaces xs.wholeSpan) xs.toList := by
  rw [xs.last_whole, ← xs.slice_whole]
  exact window_span (show xs.wholeSpan.stop ≤ xs.size from Nat.le_refl _)

end SortedArray

end SnapshotIndex
