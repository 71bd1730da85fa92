import SnapshotIndex.Snapshot.Tracked
import SnapshotIndex.Store.Bound
import SnapshotIndex.Store.Position

/-!
# Walks

A walk yields the elements of a snapshot, or of a window of it, from both ends
until they meet.  It can be turned around at any time, which exchanges the
ends and yields nothing twice.  Like a cursor it refers to its snapshot, and
each step is given the content that the snapshot reads.
-/

namespace SnapshotIndex

/-- A walk over what is left of a window of a snapshot. -/
structure Walk (σ : Type) where
  snapshot : Snapshot σ
  /-- The place of the lowest element left. -/
  front : Position
  /-- The place of the highest element left. -/
  back : Position
  /-- The number of elements left. -/
  remaining : Nat
  /-- Whether the walk begins at the high end. -/
  descending : Bool

namespace Walk

variable {σ α : Type}

/-- A walk as shown to a programmer. -/
def describe (w : Walk σ) : String :=
  "Iter \x7b remaining: " ++ toString w.remaining ++ ", descending: "
    ++ (if w.descending then "true" else "false") ++ ", .. \x7d"

def reversed (w : Walk σ) : Walk σ := { w with descending := !w.descending }

/-- An ascending walk over the elements at a span of indexes. -/
def within (t : Tracked σ) (span : Span) : Walk σ :=
  { snapshot := t.snapshot, front := .nth span.start, back := .ofIndex? span.last?,
    remaining := span.size, descending := false }

variable [Positional σ α]

/-- An ascending walk over all elements. -/
def whole (t : Tracked σ) : Walk σ :=
  { snapshot := t.snapshot, front := Positional.first t.content,
    back := Positional.last t.content, remaining := Positional.size t.content,
    descending := false }

/-- Takes the lowest element left. -/
def takeLow (w : Walk σ) (content : σ) : Option α × Walk σ :=
  if w.remaining = 0 then (none, w)
  else match Positional.get? content w.front with
    | none => (none, w)
    | some a =>
      (some a,
        { w with
          remaining := w.remaining - 1
          front := if w.remaining = 1 then w.front else Positional.next content w.front })

/-- Takes the highest element left. -/
def takeHigh (w : Walk σ) (content : σ) : Option α × Walk σ :=
  if w.remaining = 0 then (none, w)
  else match Positional.get? content w.back with
    | none => (none, w)
    | some a =>
      (some a,
        { w with
          remaining := w.remaining - 1
          back := if w.remaining = 1 then w.back else Positional.prev content w.back })

/-- The next element in the direction of the walk. -/
def next (w : Walk σ) (content : σ) : Option α × Walk σ :=
  if w.descending then w.takeHigh content else w.takeLow content

/-- The next element from the far end. -/
def nextBack (w : Walk σ) (content : σ) : Option α × Walk σ :=
  if w.descending then w.takeLow content else w.takeHigh content

/-- Takes elements one after the other, at most `steps` of them. -/
def drainWith (step : Walk σ → σ → Option α × Walk σ) (content : σ) :
    (steps : Nat) → Walk σ → List α × Walk σ
  | 0, w => ([], w)
  | steps + 1, w =>
    match step w content with
    | (none, w) => ([], w)
    | (some a, w) =>
      let (taken, w) := drainWith step content steps w
      (a :: taken, w)

/-- All elements left, in the direction of the walk. -/
def rest (w : Walk σ) (content : σ) : List α × Walk σ := drainWith next content w.remaining w

/-- All elements left, from the far end. -/
def restBack (w : Walk σ) (content : σ) : List α × Walk σ :=
  drainWith nextBack content w.remaining w

end Walk

end SnapshotIndex
