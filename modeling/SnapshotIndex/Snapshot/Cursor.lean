import SnapshotIndex.Fault
import SnapshotIndex.Snapshot.Tracked
import SnapshotIndex.Store.Bound
import SnapshotIndex.Store.Position

/-!
# Cursors

A cursor moves over the elements of a snapshot, or over a window of them, in
either direction.  It begins unpositioned, stands on an element after a move,
and is exhausted once a move led past either end of its window; from there
only a move to an end or to an element brings it back.

A cursor refers to its snapshot and does not contain it, so each move is given
the content that the snapshot reads.

A cursor remembers the number of changes its index had when it was made, which
tells whether the index has moved on since.
-/

namespace SnapshotIndex

/-- Where a cursor stands. -/
inductive Standing
  /-- Nowhere yet. -/
  | unpositioned
  /-- On the element at a place. -/
  | on (p : Position)
  /-- Past either end. -/
  | exhausted
deriving DecidableEq

/-- A standing as shown to a programmer. -/
def Standing.describe : Standing → String
  | unpositioned => "Unpositioned"
  | on p => "Positioned(" ++ p.describe ++ ")"
  | exhausted => "Exhausted"

/-- A cursor over a window of a snapshot. -/
structure Cursor (σ : Type) where
  snapshot : Snapshot σ
  /-- The first place of the window. -/
  first : Position
  /-- The last place of the window; it comes before the first place if the
  window is empty. -/
  last : Position
  /-- The number of elements in the window. -/
  size : Nat
  standing : Standing
  /-- The number of changes of the index when the cursor was made. -/
  changes : Nat

namespace Cursor

variable {σ α : Type}

/-- Whether there is nothing to visit. -/
def isEmpty (c : Cursor σ) : Bool := c.size == 0

/-- A cursor as shown to a programmer. -/
def describe (c : Cursor σ) : String :=
  "SnapshotCursor \x7b state: " ++ c.standing.describe ++ ", len: " ++ toString c.size
    ++ ", modification_count: " ++ toString c.changes ++ ", .. \x7d"

/-- An unpositioned cursor over the elements at a span of indexes. -/
def within (t : Tracked σ) (span : Span) : Cursor σ :=
  { snapshot := t.snapshot, first := .nth span.start, last := .ofIndex? span.last?,
    size := span.size, standing := .unpositioned, changes := t.changes }

variable [Positional σ α]

/-- An unpositioned cursor over all elements. -/
def whole (t : Tracked σ) : Cursor σ :=
  { snapshot := t.snapshot, first := Positional.first t.content,
    last := Positional.last t.content, size := Positional.size t.content,
    standing := .unpositioned, changes := t.changes }

/-- Whether a place lies in the window and holds an element. -/
def admits (c : Cursor σ) (content : σ) (p : Position) : Bool :=
  c.first ≤ p && p ≤ c.last && Positional.holds content p

/-- Goes to a place, or becomes exhausted if there is nothing to stand on. -/
def settle (c : Cursor σ) (content : σ) (p : Position) : Cursor σ :=
  { c with standing := if c.admits content p then .on p else .exhausted }

def toFirst (c : Cursor σ) (content : σ) : Cursor σ := c.settle content c.first

def toLast (c : Cursor σ) (content : σ) : Cursor σ := c.settle content c.last

/-- Goes one element on.  An unpositioned cursor goes to the first element,
and an exhausted one stays where it is. -/
def next (c : Cursor σ) (content : σ) : Cursor σ :=
  match c.standing with
  | .on p => c.settle content (Positional.next content p)
  | .unpositioned => c.toFirst content
  | .exhausted => c

/-- Goes one element back.  An unpositioned cursor goes to the last element,
and an exhausted one stays where it is. -/
def prev (c : Cursor σ) (content : σ) : Cursor σ :=
  match c.standing with
  | .on p => c.settle content (Positional.prev content p)
  | .unpositioned => c.toLast content
  | .exhausted => c

/-- Goes to an element, as the store understands it, but not to before the
window. -/
def moveTo (c : Cursor σ) (content : σ) (a : α) : Cursor σ :=
  match Positional.seek content a with
  | .before => { c with standing := .exhausted }
  | p => c.settle content (p.later c.first)

/-- Whether the cursor stands on an element. -/
def isValid (c : Cursor σ) (content : σ) : Bool :=
  match c.standing with
  | .on p => c.admits content p
  | _ => false

/-- The element on which the cursor stands. -/
def get (c : Cursor σ) (content : σ) : Except Fault α :=
  match c.standing with
  | .on p =>
    match Positional.get? content p with
    | some a => .ok a
    | none => .error (.precondition "cursor position holds no element")
  | .unpositioned => .error (.precondition "cursor is not positioned")
  | .exhausted => .error (.precondition "cursor is exhausted")

/-- Reads and moves on while there is an element to stand on, at most `steps`
times. -/
def visitWith (move : Cursor σ → σ → Cursor σ) (content : σ) :
    (steps : Nat) → Cursor σ → List α × Cursor σ
  | 0, c => ([], c)
  | steps + 1, c =>
    if c.isValid content then
      match c.get content with
      | .ok a =>
        let (visited, c) := visitWith move content steps (move c content)
        (a :: visited, c)
      | .error _ => ([], c)
    else ([], c)

/-- Visits the elements from where the cursor stands to the end. -/
def visit (c : Cursor σ) (content : σ) : List α × Cursor σ :=
  visitWith next content (c.size + 1) c

/-- Visits the elements from where the cursor stands back to the start. -/
def visitBack (c : Cursor σ) (content : σ) : List α × Cursor σ :=
  visitWith prev content (c.size + 1) c

end Cursor

end SnapshotIndex
