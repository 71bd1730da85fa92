import SnapshotIndex.Index.RangeView
import SnapshotIndex.Proofs.Snapshot.Changes
import SnapshotIndex.Proofs.Sorted.Shows
import SnapshotIndex.Proofs.Traversal.Handles

/-!
# Captures

A `Range` is what is captured of an index: all of it, or what a range view
shows.  `elements?` lists what an index has in a range at that moment, in the
order of the index, and `listCursor?` and `listWalk?` are a cursor and a walk
over this list.

* `slice_eq_filter`: in a sorted array a view shows what lies between its bounds.
* `shows_cursor?`, `shows_iterator`, `shows_walk?`: what is captured of a range
  refers to the present content, and is one over the elements of the range.
-/

namespace SnapshotIndex

/-- What is captured of an index. -/
inductive Range (α : Type)
  | whole
  | view (v : RangeView α)

/-- Whether a walk over a range begins at the high end. -/
def Range.descending {α : Type} : Range α → Bool
  | whole => false
  | view v => v.descending

namespace Index

variable {α : Type} [Identified α]

/-- A cursor over a range.  A bag has no views. -/
def cursor? (i : Index α) : Range α → Option (EitherCursor α)
  | .whole => some i.cursor
  | .view v => i.sorted?.map fun s => .sorted (v.cursor s)

/-- A walk over a range. -/
def walk? (i : Index α) : Range α → Option (EitherWalk α)
  | .whole => some i.walk
  | .view v => i.sorted?.map fun s => .sorted (v.walk s)

/-- The elements of a range, in the order of the index. -/
def elements? (i : Index α) : Range α → Option (List α)
  | .whole => some i.toList
  | .view v => i.sorted?.map fun s => s.content.slice (v.span s.content)

/-- The number, among the elements of a range, of the one to which a search
leads. -/
def numberIn (i : Index α) (r : Range α) (a : α) : Option Nat :=
  match i, r with
  | bag b, _ => IdentTable.numberOf b.toList a
  | sorted s, .whole => s.content.numberIn s.content.wholeSpan a
  | sorted s, .view v => s.content.numberIn (v.span s.content) a

/-- An unpositioned cursor over the elements of a range. -/
def listCursor? (i : Index α) (r : Range α) : Option (ListCursor α) :=
  (i.elements? r).map fun xs => ⟨xs, i.numberIn r, .unpositioned⟩

/-- A cursor on the first element of an index. -/
def listIterator (i : Index α) : ListCursor α :=
  ListCursor.toFirst ⟨i.toList, i.numberIn .whole, .unpositioned⟩

/-- A walk over the elements of a range. -/
def listWalk? (i : Index α) (r : Range α) : Option (ListWalk α) :=
  (i.elements? r).map fun xs => ⟨xs, r.descending⟩

omit [Identified α] in
@[simp] theorem read?_snapshot (i : Index α) : i.read? i.snapshot = some i.content := by
  cases i with
  | bag b => exact congrArg (Option.map EitherStore.bag) b.store.read?_snapshot
  | sorted s => exact congrArg (Option.map EitherStore.sorted) s.store.read?_snapshot

/-- The elements at the indexes of a view are those between its bounds. -/
theorem slice_eq_filter {xs : SortedArray α} [Std.TransCmp xs.order.keys] (h : xs.Sorted)
    (v : RangeView α) : xs.slice (v.span xs) = xs.toList.filter (v.inRange xs.order) :=
  SortedArray.Sorted.slice_span v h

/-! ## Cursors -/

theorem shows_whole_bag {b : Bag α} (h : b.content.WellFormed) :
    CursorShows (Cursor.whole b) b.content b.content.places
      ⟨b.toList, IdentTable.numberOf b.toList, .unpositioned⟩ where
  window := b.content.window_places
  size_eq := h.count_eq
  seeks := IdentTable.seeks_places h
  stands := .unpositioned

omit [Identified α] in
theorem shows_whole_sorted (s : SortedIndex α) :
    CursorShows (Cursor.whole s) s.content (SortedArray.spanPlaces s.content.wholeSpan)
      ⟨s.toList, s.content.numberIn s.content.wholeSpan, .unpositioned⟩ where
  window := s.content.window_whole
  size_eq := s.content.length_toList.symm
  seeks := s.content.seeks_span s.content.wholeSpan
  stands := .unpositioned

theorem shows_cursor_view (s : SortedIndex α) (v : RangeView α) :
    CursorShows (v.cursor s) s.content (SortedArray.spanPlaces (v.span s.content))
      ⟨s.content.slice (v.span s.content), s.content.numberIn (v.span s.content),
        .unpositioned⟩ where
  window := SortedArray.window_span (s.content.span_le v).2
  size_eq := (SortedArray.length_slice (s.content.span_le v).2).symm
  seeks := s.content.seeks_span (v.span s.content)
  stands := .unpositioned

/-- A captured cursor refers to the present content and is one over the
elements of its range. -/
theorem shows_cursor? {i : Index α} (h : i.Sound) (r : Range α) :
    Option.Rel (fun c l => c.snapshot = i.snapshot ∧ c.Shows i.content l) (i.cursor? r)
      (i.listCursor? r) := by
  cases i with
  | bag b =>
    cases r with
    | whole => exact .some ⟨rfl, .bag (shows_whole_bag h.2)⟩
    | view v => exact .none
  | sorted s =>
    cases r with
    | whole => exact .some ⟨rfl, .sorted (shows_whole_sorted s)⟩
    | view v => exact .some ⟨rfl, .sorted (shows_cursor_view s v)⟩

/-- A captured iterator stands on the first element. -/
theorem shows_iterator {i : Index α} (h : i.Sound) :
    i.iterator.snapshot = i.snapshot ∧ i.iterator.Shows i.content i.listIterator := by
  have hcursor := shows_cursor? h .whole
  obtain ⟨hsnapshot, hshows⟩ : i.cursor.snapshot = i.snapshot ∧
      i.cursor.Shows i.content ⟨i.toList, i.numberIn .whole, .unpositioned⟩ := by
    rcases hcursor with ⟨hcursor⟩
    exact hcursor
  obtain ⟨-, hfirst, hsame⟩ := hshows.use .toFirst
  exact ⟨hsame.trans hsnapshot, hfirst⟩

/-! ## Walks -/

theorem shows_walk_bag {b : Bag α} (h : b.content.WellFormed) :
    WalkShows (Walk.whole b) b.content ⟨b.toList, false⟩ :=
  .of_window b.content.window_places h.count_eq

omit [Identified α] in
theorem shows_walk_sorted (s : SortedIndex α) :
    WalkShows (Walk.whole s) s.content ⟨s.toList, false⟩ :=
  .of_window s.content.window_whole s.content.length_toList.symm

theorem shows_walk_view (s : SortedIndex α) (v : RangeView α) :
    WalkShows (v.walk s) s.content ⟨s.content.slice (v.span s.content), v.descending⟩ := by
  have hspan := (s.content.span_le v).2
  have hwithin : WalkShows (Walk.within s (v.span s.content)) s.content
      ⟨s.content.slice (v.span s.content), false⟩ :=
    .of_window (SortedArray.window_span hspan) (SortedArray.length_slice hspan).symm
  unfold RangeView.walk
  -- a descending view turns the walk around before anything is taken
  cases hdescending : v.descending with
  | true =>
    rw [if_pos rfl]
    exact hwithin.reversed
  | false =>
    rw [if_neg Bool.false_ne_true]
    exact hwithin

theorem snapshot_walk_view (s : SortedIndex α) (v : RangeView α) :
    (v.walk s).snapshot = s.snapshot := by
  unfold RangeView.walk
  dsimp only
  split <;> rfl

/-- A captured walk refers to the present content and has the elements of its
range left. -/
theorem shows_walk? {i : Index α} (h : i.Sound) (r : Range α) :
    Option.Rel (fun w l => w.snapshot = i.snapshot ∧ w.Shows i.content l) (i.walk? r)
      (i.listWalk? r) := by
  cases i with
  | bag b =>
    cases r with
    | whole => exact .some ⟨rfl, .bag (shows_walk_bag h.2)⟩
    | view v => exact .none
  | sorted s =>
    cases r with
    | whole => exact .some ⟨rfl, .sorted (shows_walk_sorted s)⟩
    | view v =>
      refine .some ⟨?_, .sorted (shows_walk_view s v)⟩
      exact congrArg EitherSnapshot.sorted (snapshot_walk_view s v)

end Index

/-- The same, of an index whose array shows its elements. -/
theorem Shows.slice_span {α : Type} [Identified α] {order : KeyOrder α}
    [Std.TransCmp order.keys] {s : SortedIndex α} (h : Shows order s.content s.toList)
    (v : RangeView α) :
    s.content.slice (v.span s.content) = s.toList.filter (v.inRange order) := by
  obtain ⟨rfl, -, hinc⟩ := h
  exact Index.slice_eq_filter hinc v

end SnapshotIndex
