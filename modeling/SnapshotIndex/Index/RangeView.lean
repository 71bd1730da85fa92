import SnapshotIndex.Index.Sorted

/-!
# Range views

A range view shows the elements of a sorted index between two bounds,
ascending or descending.  It holds the bounds and nothing else: each question
is answered from what the index holds at that moment, so a view stays good
whatever happens to the index.

A descending view turns everything around that depends on order: its first
element is the greatest, `lower?` looks upward, and the ends of a narrower
view are given from the top.  Cursors go in the order of the index all the
same.
-/

namespace SnapshotIndex

/-- The part of a sorted index between two bounds. -/
structure RangeView (α : Type) where
  lo : Bound α
  hi : Bound α
  descending : Bool

namespace RangeView

variable {α : Type}

/-- The view of everything, in descending order. -/
def allDescending : RangeView α := ⟨.unbounded, .unbounded, true⟩

def reversed (v : RangeView α) : RangeView α := { v with descending := !v.descending }

/-- A view as shown to a programmer. -/
def describe (v : RangeView α) : String :=
  "SubSet \x7b descending: " ++ (if v.descending then "true" else "false") ++ ", .. \x7d"

variable [Identified α]

/-! ## Bounds -/

/-- The ascending view between two bounds. -/
def between (order : KeyOrder α) (lo hi : Bound α) : Except Fault (RangeView α) :=
  if Bound.crossed order lo hi then .error .invalidRange else .ok ⟨lo, hi, false⟩

/-- Whether an element lies between the bounds. -/
def inRange (order : KeyOrder α) (v : RangeView α) (a : α) : Bool :=
  v.lo.admitsAbove order a && v.hi.admitsBelow order a

/-- Whether an element lies between the bounds or is named by one of them. -/
def inClosedRange (order : KeyOrder α) (v : RangeView α) (a : α) : Bool :=
  v.lo.closed.admitsAbove order a && v.hi.closed.admitsBelow order a

/-- Whether a narrower view may have this bound. -/
def admits (order : KeyOrder α) (v : RangeView α) : Bound α → Bool
  | .unbounded => true
  | .including a => v.inRange order a
  | .excluding a => v.inClosedRange order a

/-- The part of a view between two bounds, which are given in the order of the
view.  Where no bound is given the view's own stays. -/
def narrow (order : KeyOrder α) (v : RangeView α) (start stop : Bound α) :
    Except Fault (RangeView α) :=
  let lo := if v.descending then stop else start
  let hi := if v.descending then start else stop
  if Bound.crossed order lo hi then .error .invalidRange
  else if v.admits order lo && v.admits order hi then
    .ok { v with lo := lo.orElse v.lo, hi := hi.orElse v.hi }
  else .error .keyOutOfRange

/-! ## Reading -/

/-- The indexes of the elements in the view. -/
def span (v : RangeView α) (xs : SortedArray α) : Span := xs.boundSpan v.lo v.hi

def size (v : RangeView α) (xs : SortedArray α) : Nat := (v.span xs).size

def isEmpty (v : RangeView α) (xs : SortedArray α) : Bool := (v.span xs).isEmpty

/-- Whether an element is in the index and between the bounds. -/
def contains (v : RangeView α) (xs : SortedArray α) (a : α) : Bool :=
  v.inRange xs.order a && xs.contains a

/-- The index of the first element in the order of the view. -/
def firstIndex? (v : RangeView α) (xs : SortedArray α) : Option Nat :=
  if v.descending then (v.span xs).last? else (v.span xs).first?

/-- The index of the last element in the order of the view. -/
def lastIndex? (v : RangeView α) (xs : SortedArray α) : Option Nat :=
  if v.descending then (v.span xs).first? else (v.span xs).last?

/-- The first element in the order of the view. -/
def first? (v : RangeView α) (xs : SortedArray α) : Option α := (v.firstIndex? xs).bind xs.get?

/-- The last element in the order of the view. -/
def last? (v : RangeView α) (xs : SortedArray α) : Option α := (v.lastIndex? xs).bind xs.get?

/-- The greatest element of the view that is less. -/
def below? (v : RangeView α) (xs : SortedArray α) (a : α) : Option α :=
  ((v.span xs).clampDown (xs.lowerIndex? a)).bind xs.get?

/-- The greatest element of the view that is not greater. -/
def atOrBelow? (v : RangeView α) (xs : SortedArray α) (a : α) : Option α :=
  ((v.span xs).clampDown (xs.floorIndex? a)).bind xs.get?

/-- The least element of the view that is not less. -/
def atOrAbove? (v : RangeView α) (xs : SortedArray α) (a : α) : Option α :=
  ((v.span xs).clampUp (xs.ceilingIndex? a)).bind xs.get?

/-- The least element of the view that is greater. -/
def above? (v : RangeView α) (xs : SortedArray α) (a : α) : Option α :=
  ((v.span xs).clampUp (xs.higherIndex? a)).bind xs.get?

/-- The last element before the given one, in the order of the view. -/
def lower? (v : RangeView α) (xs : SortedArray α) (a : α) : Option α :=
  if v.descending then v.above? xs a else v.below? xs a

/-- The last element not after the given one, in the order of the view. -/
def floor? (v : RangeView α) (xs : SortedArray α) (a : α) : Option α :=
  if v.descending then v.atOrAbove? xs a else v.atOrBelow? xs a

/-- The first element not before the given one, in the order of the view. -/
def ceiling? (v : RangeView α) (xs : SortedArray α) (a : α) : Option α :=
  if v.descending then v.atOrBelow? xs a else v.atOrAbove? xs a

/-- The first element after the given one, in the order of the view. -/
def higher? (v : RangeView α) (xs : SortedArray α) (a : α) : Option α :=
  if v.descending then v.below? xs a else v.above? xs a

/-- A walk over the elements in the order of the view. -/
def walk (v : RangeView α) (s : SortedIndex α) : Walk (SortedArray α) :=
  let w := Walk.within s (v.span s.content)
  if v.descending then w.reversed else w

/-- A cursor over the elements in the order of the index. -/
def cursor (v : RangeView α) (s : SortedIndex α) : Cursor (SortedArray α) :=
  Cursor.within s (v.span s.content)

/-- The elements in the order of the view. -/
def toList (v : RangeView α) (s : SortedIndex α) : List α := ((v.walk s).rest s.content).1

/-! ## Changing the index through a view -/

/-- Adds an element to the index; one outside the bounds is refused. -/
def add (v : RangeView α) (s : SortedIndex α) (a : α) : Except Fault Bool × SortedIndex α :=
  if v.inRange s.order a then
    let (added, s) := s.add a
    (.ok added, s)
  else (.error .keyOutOfRange, s)

/-- Removes an element between the bounds from the index, and says whether it
was there. -/
def remove (v : RangeView α) (s : SortedIndex α) (a : α) : Bool × SortedIndex α :=
  if v.inRange s.order a then s.remove a else (false, s)

/-- Removes the first element in the order of the view and gives it back. -/
def pollFirst (v : RangeView α) (s : SortedIndex α) : Option α × SortedIndex α :=
  match v.firstIndex? s.content with
  | none => (none, s)
  | some i => s.removeAt i

/-- Removes the last element in the order of the view and gives it back. -/
def pollLast (v : RangeView α) (s : SortedIndex α) : Option α × SortedIndex α :=
  match v.lastIndex? s.content with
  | none => (none, s)
  | some i => s.removeAt i

/-- Removes all elements between the bounds from the index. -/
def clear (v : RangeView α) (s : SortedIndex α) : SortedIndex α :=
  s.removeSpan (v.span s.content)

end RangeView

end SnapshotIndex
