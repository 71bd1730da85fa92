import SnapshotIndex.Element.KeyOrder

/-!
# Bounds and spans

A bound limits a range of elements on one side, and a span is a run of
neighbouring indexes.  Which side a bound limits is not part of it: the same
bound admits other elements as a lower than as an upper one.
-/

namespace SnapshotIndex

/-- One end of a range. -/
inductive Bound (α : Type)
  /-- No limit on this side. -/
  | unbounded
  /-- The range reaches up to this element and takes it in. -/
  | including (a : α)
  /-- The range reaches up to this element and leaves it out. -/
  | excluding (a : α)

namespace Bound

variable {α : Type}

/-- The element that a bound names. -/
def endpoint? : Bound α → Option α
  | unbounded => none
  | including a => some a
  | excluding a => some a

/-- The bound at an element. -/
def atElement (a : α) (inclusive : Bool) : Bound α :=
  if inclusive then including a else excluding a

/-- A bound, or another one in place of none. -/
def orElse : Bound α → Bound α → Bound α
  | unbounded, b => b
  | a, _ => a

/-- The bound at the same element that admits it. -/
def closed : Bound α → Bound α
  | excluding a => including a
  | b => b

variable [Identified α]

/-- Whether a lower bound admits an element. -/
def admitsAbove (order : KeyOrder α) (lo : Bound α) (a : α) : Bool :=
  match lo with
  | unbounded => true
  | including b => (order.compare a b).isGE
  | excluding b => (order.compare a b).isGT

/-- Whether an upper bound admits an element. -/
def admitsBelow (order : KeyOrder α) (hi : Bound α) (a : α) : Bool :=
  match hi with
  | unbounded => true
  | including b => (order.compare a b).isLE
  | excluding b => (order.compare a b).isLT

/-- Whether two bounds both name an element and the lower bound comes after the
upper one. -/
def crossed (order : KeyOrder α) (lo hi : Bound α) : Bool :=
  match lo.endpoint?, hi.endpoint? with
  | some a, some b => (order.compare a b).isGT
  | _, _ => false

@[simp] theorem admitsAbove_unbounded (order : KeyOrder α) (a : α) :
    (unbounded : Bound α).admitsAbove order a = true := rfl

@[simp] theorem admitsBelow_unbounded (order : KeyOrder α) (a : α) :
    (unbounded : Bound α).admitsBelow order a = true := rfl

end Bound

/-- The indexes from `start` up to, but not with, `stop`. -/
structure Span where
  start : Nat
  stop : Nat
deriving DecidableEq

namespace Span

def size (s : Span) : Nat := s.stop - s.start

def isEmpty (s : Span) : Bool := s.stop ≤ s.start

def first? (s : Span) : Option Nat := if s.isEmpty then none else some s.start

def last? (s : Span) : Option Nat := if s.isEmpty then none else some (s.stop - 1)

/-- The greatest index of the span that is not above the given one. -/
def clampDown (s : Span) (found : Option Nat) : Option Nat :=
  if s.stop = 0 then none
  else found.bind fun i =>
    let j := min i (s.stop - 1)
    if s.start ≤ j then some j else none

/-- The least index of the span that is not below the given one. -/
def clampUp (s : Span) (found : Option Nat) : Option Nat :=
  found.bind fun i =>
    let j := max i s.start
    if j < s.stop then some j else none

end Span

end SnapshotIndex
