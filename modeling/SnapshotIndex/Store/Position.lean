/-!
# Positions

A position is a place in a backing store: a slot of a table, an index of an
array, or the place before the first.  Positions are ordered as a traversal
meets them.  `Positional` is what a store offers to cursors and walks, whatever
its layout.
-/

namespace SnapshotIndex

/-- A place in a store.  A store need not hold an element at every place. -/
inductive Position
  /-- Before the first place of any store. -/
  | before
  /-- The place of the given number, counted from zero. -/
  | nth (i : Nat)
deriving DecidableEq

namespace Position

/-- The number of a place; the place before the start has none. -/
def index? : Position → Option Nat
  | before => none
  | nth i => some i

/-- How far along a traversal a place is. -/
def rank : Position → Nat
  | before => 0
  | nth i => i + 1

/-- Places in the order of a traversal. -/
def order (p q : Position) : Ordering := compare p.rank q.rank

instance : LE Position := ⟨fun p q => p.rank ≤ q.rank⟩

instance (p q : Position) : Decidable (p ≤ q) := inferInstanceAs (Decidable (p.rank ≤ q.rank))

/-- The later of two places. -/
def later (p q : Position) : Position := if p ≤ q then q else p

/-- The place of a number, if there is one, and else the place before the
start. -/
def ofIndex? : Option Nat → Position
  | none => before
  | some i => nth i

/-- The place just before a number. -/
def pred : Nat → Position
  | 0 => before
  | i + 1 => nth i

/-- A place as shown to a programmer. -/
def describe : Position → String
  | before => "Position(INVALID)"
  | nth i => "Position(" ++ toString i ++ ")"

@[simp] theorem index?_ofIndex? (i : Option Nat) : (ofIndex? i).index? = i := by
  cases i <;> rfl

@[simp] theorem rank_pred (i : Nat) : (pred i).rank = i := by
  cases i <;> rfl

end Position

/-- Stores that can be traversed by positions.  Stepping past either end
leads to a place that holds no element. -/
class Positional (σ : Type) (α : outParam Type) where
  /-- The number of elements. -/
  size : σ → Nat
  /-- The place of the first element. -/
  first : σ → Position
  /-- The place of the last element. -/
  last : σ → Position
  /-- The place after a place. -/
  next : σ → Position → Position
  /-- The place before a place. -/
  prev : σ → Position → Position
  /-- The element at a place, if it holds one. -/
  get? : σ → Position → Option α
  /-- Where a cursor that is sent to an element comes to stand. -/
  seek : σ → α → Position

/-- Whether a place holds an element. -/
def Positional.holds {σ α : Type} [Positional σ α] (s : σ) (p : Position) : Bool :=
  (Positional.get? s p).isSome

end SnapshotIndex
