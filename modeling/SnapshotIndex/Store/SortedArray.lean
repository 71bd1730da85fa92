import SnapshotIndex.Element.KeyOrder
import SnapshotIndex.Store.Bisect
import SnapshotIndex.Store.Bound
import SnapshotIndex.Store.Position
import SnapshotIndex.Store.Sieve

/-!
# Sorted arrays

A `SortedArray` keeps its elements strictly increasing by keys and then by
identity, so bisection finds an element exactly when it is there.  The
neighbours of an element, present or not, are found from where it is or would
be inserted, and a pair of bounds becomes a span of indexes in the same way.
-/

namespace SnapshotIndex

/-- Elements in the order of their keys and then of their identities. -/
structure SortedArray (α : Type) where
  order : KeyOrder α
  items : Array α

/-- Where the search for an element ends. -/
inductive Search
  /-- At the element. -/
  | found (i : Nat)
  /-- Where the element would have to be inserted. -/
  | missing (i : Nat)
deriving DecidableEq

namespace Search

/-- The index where the search ends. -/
def index : Search → Nat
  | found i => i
  | missing i => i

/-- The index just past the element, or past where it would be. -/
def indexPast : Search → Nat
  | found i => i + 1
  | missing i => i

def isFound : Search → Bool
  | found _ => true
  | missing _ => false

end Search

namespace SortedArray

variable {α : Type}

def empty (order : KeyOrder α) : SortedArray α := ⟨order, #[]⟩

def size (xs : SortedArray α) : Nat := xs.items.size

def isEmpty (xs : SortedArray α) : Bool := xs.size == 0

def toList (xs : SortedArray α) : List α := xs.items.toList

def get? (xs : SortedArray α) (i : Nat) : Option α := xs.items[i]?

def first? (xs : SortedArray α) : Option α := xs.get? 0

def last? (xs : SortedArray α) : Option α := xs.items.back?

/-- The number of leading elements that pass a test which no element passes
after one that fails it. -/
def partitionPoint (xs : SortedArray α) (below : α → Bool) : Nat :=
  bisect (fun i => xs.items[i]?.any below) xs.size

/-! ## Searching by keys -/

/-- The number of elements with smaller keys; these come first. -/
def partitionByKeys (xs : SortedArray α) (a : α) : Nat :=
  xs.partitionPoint fun b => (xs.order.keys b a).isLT

/-- The index of the first element with equal keys. -/
def indexByKeys? (xs : SortedArray α) (a : α) : Option Nat :=
  let i := xs.partitionByKeys a
  if (xs.get? i).any fun b => xs.order.keys b a = .eq then some i else none

/-- The first element with equal keys, which need not be the given one. -/
def find? (xs : SortedArray α) (a : α) : Option α := (xs.indexByKeys? a).bind xs.get?

/-! ## Changes by index -/

def insertAt (xs : SortedArray α) (i : Nat) (a : α) : SortedArray α :=
  { xs with items := (xs.items.take i).push a ++ xs.items.drop i }

/-- Removes the element at an index and gives it back. -/
def removeAt (xs : SortedArray α) (i : Nat) : Option α × SortedArray α :=
  (xs.get? i, { xs with items := xs.items.eraseIdxIfInBounds i })

/-- Leaves out the elements of a span. -/
def dropSpan (xs : SortedArray α) (s : Span) : SortedArray α :=
  { xs with items := xs.items.take s.start ++ xs.items.drop s.stop }

/-- Removes the elements of a span.  A span that runs backwards or past the
end is refused. -/
def removeSpan? (xs : SortedArray α) (s : Span) : Option (SortedArray α) :=
  if s.start ≤ s.stop ∧ s.stop ≤ xs.size then some (xs.dropSpan s) else none

/-- Keeps the elements that pass a sieve, and counts the others. -/
def retain {σ : Type} (xs : SortedArray α) (sieve : Sieve σ α) (state : σ) :
    (Nat × SortedArray α) × σ :=
  let (kept, state) := sieve.strain xs.toList state
  ((xs.size - kept.length, { xs with items := kept.toArray }), state)

def clear (xs : SortedArray α) : SortedArray α := empty xs.order

/-! ## Searching by keys and identity -/

/-- An index, if an element is there. -/
def within? (xs : SortedArray α) (i : Nat) : Option Nat := if i < xs.size then some i else none

/-- The index just below a number. -/
def below? : Nat → Option Nat
  | 0 => none
  | i + 1 => some i

section Identity

variable [Identified α]

def search (xs : SortedArray α) (a : α) : Search :=
  let i := xs.partitionPoint fun b => (xs.order.compare b a).isLT
  if (xs.get? i).any fun b => xs.order.compare b a = .eq then .found i else .missing i

/-- Whether an element with these keys and this identity is there. -/
def contains (xs : SortedArray α) (a : α) : Bool := (xs.search a).isFound

/-- Whether an element may be inserted at an index: the element before it must
be less. -/
def mayInsertAt (xs : SortedArray α) (i : Nat) (a : α) : Bool :=
  i == 0 || (xs.get? (i - 1)).any fun b => (xs.order.compare b a).isLT

/-- The index of the greatest element that is less. -/
def lowerIndex? (xs : SortedArray α) (a : α) : Option Nat := below? (xs.search a).index

/-- The index of the greatest element that is not greater. -/
def floorIndex? (xs : SortedArray α) (a : α) : Option Nat := below? (xs.search a).indexPast

/-- The index of the least element that is not less. -/
def ceilingIndex? (xs : SortedArray α) (a : α) : Option Nat := xs.within? (xs.search a).index

/-- The index of the least element that is greater. -/
def higherIndex? (xs : SortedArray α) (a : α) : Option Nat := xs.within? (xs.search a).indexPast

/-- The greatest element that is less. -/
def lower? (xs : SortedArray α) (a : α) : Option α := (xs.lowerIndex? a).bind xs.get?

/-- The greatest element that is not greater. -/
def floor? (xs : SortedArray α) (a : α) : Option α := (xs.floorIndex? a).bind xs.get?

/-- The least element that is not less. -/
def ceiling? (xs : SortedArray α) (a : α) : Option α := (xs.ceilingIndex? a).bind xs.get?

/-- The least element that is greater. -/
def higher? (xs : SortedArray α) (a : α) : Option α := (xs.higherIndex? a).bind xs.get?

/-! ## Spans -/

/-- The first index inside a lower bound. -/
def boundStart (xs : SortedArray α) : Bound α → Nat
  | .unbounded => 0
  | .including a => (xs.search a).index
  | .excluding a => (xs.search a).indexPast

/-- The first index past an upper bound. -/
def boundStop (xs : SortedArray α) : Bound α → Nat
  | .unbounded => xs.size
  | .including a => (xs.search a).indexPast
  | .excluding a => (xs.search a).index

/-- The indexes between two bounds; none if the bounds cross. -/
def boundSpan (xs : SortedArray α) (lo hi : Bound α) : Span :=
  let start := xs.boundStart lo
  ⟨start, max (xs.boundStop hi) start⟩

/-! ## Changes by element -/

/-- Adds an element unless it is there already, and says whether it did. -/
def add (xs : SortedArray α) (a : α) : Bool × SortedArray α :=
  match xs.search a with
  | .found _ => (false, xs)
  | .missing i => (true, xs.insertAt i a)

/-- Removes an element and gives back the one that was stored. -/
def remove (xs : SortedArray α) (a : α) : Option α × SortedArray α :=
  match xs.search a with
  | .found i => xs.removeAt i
  | .missing _ => (none, xs)

end Identity

/-! ## Traversal -/

/-- A sorted array is traversed index by index, and a cursor that is sent to an
element goes to the first one whose keys are not smaller. -/
instance : Positional (SortedArray α) α where
  size xs := xs.size
  first _ := .nth 0
  last xs := .pred xs.size
  next _ p := match p with
    | .before => .nth 0
    | .nth i => .nth (i + 1)
  prev _ p := match p with
    | .before => .before
    | .nth i => .pred i
  get? xs p := p.index?.bind xs.get?
  seek xs a := .nth (xs.partitionByKeys a)

end SortedArray

end SnapshotIndex
