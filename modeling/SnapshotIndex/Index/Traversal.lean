import SnapshotIndex.Index

/-!
# Traversing an index of either kind

Cursors, walks and snapshots of an index whose kind is not known beforehand.
Each is one of a bag or one of a sorted index and does what that one does.
What one kind of index holds is never read by a cursor or a walk of the other;
where the kinds differ, nothing happens.
-/

namespace SnapshotIndex

/-- What an index of either kind holds. -/
inductive EitherStore (α : Type)
  | bag (t : IdentTable α)
  | sorted (xs : SortedArray α)

/-- A snapshot of an index. -/
inductive EitherSnapshot (α : Type)
  | bag (s : Snapshot (IdentTable α))
  | sorted (s : Snapshot (SortedArray α))

/-- A cursor over a snapshot of an index. -/
inductive EitherCursor (α : Type)
  | bag (c : Cursor (IdentTable α))
  | sorted (c : Cursor (SortedArray α))

/-- A walk over a snapshot of an index. -/
inductive EitherWalk (α : Type)
  | bag (w : Walk (IdentTable α))
  | sorted (w : Walk (SortedArray α))

variable {α ρ : Type}

namespace EitherStore

def toList : EitherStore α → List α
  | bag t => t.toList
  | sorted xs => xs.toList

end EitherStore

namespace EitherSnapshot

instance : DecidableEq (EitherSnapshot α)
  | bag s, bag t => decidable_of_iff (s = t) (by simp)
  | sorted s, sorted t => decidable_of_iff (s = t) (by simp)
  | bag _, sorted _ => .isFalse nofun
  | sorted _, bag _ => .isFalse nofun

/-- Whether two snapshots of one index share their content. -/
def sameContent : EitherSnapshot α → EitherSnapshot α → Bool
  | bag s, bag t => s.sameContent t
  | sorted s, sorted t => s.sameContent t
  | _, _ => false

end EitherSnapshot

namespace EitherCursor

def snapshot : EitherCursor α → EitherSnapshot α
  | bag c => .bag c.snapshot
  | sorted c => .sorted c.snapshot

def standing : EitherCursor α → Standing
  | bag c => c.standing
  | sorted c => c.standing

def size : EitherCursor α → Nat
  | bag c => c.size
  | sorted c => c.size

/-- The number of changes of the index when the cursor was made. -/
def changes : EitherCursor α → Nat
  | bag c => c.changes
  | sorted c => c.changes

/-- The cursor of the one kind or the other, as shown to a programmer. -/
def describeInner : EitherCursor α → String
  | bag c => c.describe
  | sorted c => c.describe

def describe : EitherCursor α → String
  | bag c => "Bag(" ++ c.describe ++ ")"
  | sorted c => "Ordered(" ++ c.describe ++ ")"

variable [Identified α]

/-- Moves a cursor over what its snapshot reads. -/
def delegate (move : {σ : Type} → [Positional σ α] → Cursor σ → σ → Cursor σ) :
    EitherCursor α → EitherStore α → EitherCursor α
  | bag c, .bag t => bag (move c t)
  | sorted c, .sorted xs => sorted (move c xs)
  | c, _ => c

def toFirst : EitherCursor α → EitherStore α → EitherCursor α := delegate Cursor.toFirst

def toLast : EitherCursor α → EitherStore α → EitherCursor α := delegate Cursor.toLast

def next : EitherCursor α → EitherStore α → EitherCursor α := delegate Cursor.next

def prev : EitherCursor α → EitherStore α → EitherCursor α := delegate Cursor.prev

def moveTo (c : EitherCursor α) (content : EitherStore α) (a : α) : EitherCursor α :=
  delegate (fun c content => c.moveTo content a) c content

def isValid : EitherCursor α → EitherStore α → Bool
  | bag c, .bag t => c.isValid t
  | sorted c, .sorted xs => c.isValid xs
  | _, _ => false

def get : EitherCursor α → EitherStore α → Except Fault α
  | bag c, .bag t => c.get t
  | sorted c, .sorted xs => c.get xs
  | _, _ => .error (.precondition "cursor position holds no element")

/-- Visits elements one after the other in the course of a traversal. -/
def tour (visit : {σ : Type} → [Positional σ α] → Cursor σ → σ → List α × Cursor σ) :
    EitherCursor α → EitherStore α → List α × EitherCursor α
  | bag c, .bag t => ((visit c t).1, bag (visit c t).2)
  | sorted c, .sorted xs => ((visit c xs).1, sorted (visit c xs).2)
  | c, _ => ([], c)

def visit : EitherCursor α → EitherStore α → List α × EitherCursor α := tour Cursor.visit

def visitBack : EitherCursor α → EitherStore α → List α × EitherCursor α :=
  tour Cursor.visitBack

end EitherCursor

namespace EitherWalk

def snapshot : EitherWalk α → EitherSnapshot α
  | bag w => .bag w.snapshot
  | sorted w => .sorted w.snapshot

def remaining : EitherWalk α → Nat
  | bag w => w.remaining
  | sorted w => w.remaining

/-- The walk of the one kind or the other, as shown to a programmer. -/
def describeInner : EitherWalk α → String
  | bag w => w.describe
  | sorted w => w.describe

def describe : EitherWalk α → String
  | bag w => "Bag(" ++ w.describe ++ ")"
  | sorted w => "Ordered(" ++ w.describe ++ ")"

def reversed : EitherWalk α → EitherWalk α
  | bag w => bag w.reversed
  | sorted w => sorted w.reversed

variable [Identified α]

/-- Takes something of what a walk has left. -/
def delegate (nothing : ρ)
    (step : {σ : Type} → [Positional σ α] → Walk σ → σ → ρ × Walk σ) :
    EitherWalk α → EitherStore α → ρ × EitherWalk α
  | bag w, .bag t => ((step w t).1, bag (step w t).2)
  | sorted w, .sorted xs => ((step w xs).1, sorted (step w xs).2)
  | w, _ => (nothing, w)

def next : EitherWalk α → EitherStore α → Option α × EitherWalk α := delegate none Walk.next

def nextBack : EitherWalk α → EitherStore α → Option α × EitherWalk α :=
  delegate none Walk.nextBack

def rest : EitherWalk α → EitherStore α → List α × EitherWalk α := delegate [] Walk.rest

def restBack : EitherWalk α → EitherStore α → List α × EitherWalk α :=
  delegate [] Walk.restBack

end EitherWalk

namespace Index

def content : Index α → EitherStore α
  | bag b => .bag b.content
  | sorted s => .sorted s.content

def snapshot : Index α → EitherSnapshot α
  | bag b => .bag b.snapshot
  | sorted s => .sorted s.snapshot

def read? : Index α → EitherSnapshot α → Option (EitherStore α)
  | bag b, .bag s => (b.read? s).map .bag
  | sorted i, .sorted s => (i.read? s).map .sorted
  | _, _ => none

/-- The number of holders of a snapshot. -/
def holders : Index α → EitherSnapshot α → Nat
  | bag b, .bag s => b.holders s
  | sorted i, .sorted s => i.holders s
  | _, _ => 0

def isCurrent : Index α → EitherSnapshot α → Bool
  | bag b, .bag s => b.isCurrent s
  | sorted i, .sorted s => i.isCurrent s
  | _, _ => false

def hold : Index α → EitherSnapshot α → Index α
  | bag b, .bag s => bag (b.hold s)
  | sorted i, .sorted s => sorted (i.hold s)
  | i, _ => i

def release : Index α → EitherSnapshot α → Index α
  | bag b, .bag s => bag (b.release s)
  | sorted i, .sorted s => sorted (i.release s)
  | i, _ => i

variable [Identified α]

/-- An unpositioned cursor over a snapshot of the present content. -/
def cursor : Index α → EitherCursor α
  | bag b => .bag (.whole b)
  | sorted s => .sorted (.whole s)

/-- A cursor on the first element of a snapshot of the present content. -/
def iterator (i : Index α) : EitherCursor α := i.cursor.toFirst i.content

def walk : Index α → EitherWalk α
  | bag b => .bag (.whole b)
  | sorted s => .sorted (.whole s)

end Index

end SnapshotIndex
