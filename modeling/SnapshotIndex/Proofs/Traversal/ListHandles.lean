import SnapshotIndex.Fault

/-!
# Cursors and walks over a list

What cursors and walks are meant to be: a list, and a number in it or what is
left of it.  Nothing here can change behind their back, since they refer to
nothing else.
-/

namespace SnapshotIndex

/-- Where a cursor over a list stands. -/
inductive ListStanding
  | unpositioned
  | on (i : Nat)
  | exhausted
deriving DecidableEq

/-- A cursor over a list, and where in it a search for an element leads. -/
structure ListCursor (α : Type) where
  elements : List α
  seek : α → Option Nat
  standing : ListStanding

namespace ListCursor

variable {α : Type}

/-- Goes to a number, or becomes exhausted if the list is too short. -/
def settle (c : ListCursor α) (i : Nat) : ListCursor α :=
  { c with standing := if i < c.elements.length then .on i else .exhausted }

def toFirst (c : ListCursor α) : ListCursor α := c.settle 0

def toLast (c : ListCursor α) : ListCursor α := c.settle (c.elements.length - 1)

def next (c : ListCursor α) : ListCursor α :=
  match c.standing with
  | .on i => c.settle (i + 1)
  | .unpositioned => c.toFirst
  | .exhausted => c

def prev (c : ListCursor α) : ListCursor α :=
  match c.standing with
  | .on 0 => { c with standing := .exhausted }
  | .on (i + 1) => c.settle i
  | .unpositioned => c.toLast
  | .exhausted => c

def moveTo (c : ListCursor α) (a : α) : ListCursor α :=
  match c.seek a with
  | some i => c.settle i
  | none => { c with standing := .exhausted }

def isValid (c : ListCursor α) : Bool :=
  match c.standing with
  | .on _ => true
  | _ => false

def get (c : ListCursor α) : Except Fault α :=
  match c.standing with
  | .on i =>
    match c.elements[i]? with
    | some a => .ok a
    | none => .error (.precondition "cursor position holds no element")
  | .unpositioned => .error (.precondition "cursor is not positioned")
  | .exhausted => .error (.precondition "cursor is exhausted")

/-- The elements from where the cursor stands to the end of the list. -/
def visit (c : ListCursor α) : List α × ListCursor α :=
  match c.standing with
  | .on i => (c.elements.drop i, { c with standing := .exhausted })
  | _ => ([], c)

/-- The elements from where the cursor stands back to the start of the list. -/
def visitBack (c : ListCursor α) : List α × ListCursor α :=
  match c.standing with
  | .on i => ((c.elements.take (i + 1)).reverse, { c with standing := .exhausted })
  | _ => ([], c)

theorem visit_toFirst (xs : List α) (seek : α → Option Nat) (standing : ListStanding) :
    (ListCursor.toFirst ⟨xs, seek, standing⟩).visit.1 = xs ∧
      (ListCursor.toFirst ⟨xs, seek, standing⟩).visit.2.isValid = false := by
  cases xs with
  | nil => exact ⟨rfl, rfl⟩
  | cons a rest => exact ⟨rfl, rfl⟩

theorem visitBack_toLast (xs : List α) (seek : α → Option Nat) (standing : ListStanding) :
    (ListCursor.toLast ⟨xs, seek, standing⟩).visitBack.1 = xs.reverse := by
  unfold toLast settle visitBack
  cases xs with
  | nil => rfl
  | cons a rest => simp

end ListCursor

/-- A walk over what is left of a list. -/
structure ListWalk (α : Type) where
  left : List α
  descending : Bool

namespace ListWalk

variable {α : Type}

def takeLow (w : ListWalk α) : Option α × ListWalk α :=
  (w.left.head?, { w with left := w.left.tail })

def takeHigh (w : ListWalk α) : Option α × ListWalk α :=
  (w.left.getLast?, { w with left := w.left.dropLast })

def next (w : ListWalk α) : Option α × ListWalk α :=
  if w.descending then w.takeHigh else w.takeLow

def nextBack (w : ListWalk α) : Option α × ListWalk α :=
  if w.descending then w.takeLow else w.takeHigh

def reversed (w : ListWalk α) : ListWalk α := { w with descending := !w.descending }

/-- All elements left, in the direction of the walk. -/
def rest (w : ListWalk α) : List α × ListWalk α :=
  (if w.descending then w.left.reverse else w.left, { w with left := [] })

/-- All elements left, from the far end. -/
def restBack (w : ListWalk α) : List α × ListWalk α :=
  (if w.descending then w.left else w.left.reverse, { w with left := [] })

theorem next_eq_head? (w : ListWalk α) : w.next.1 = w.rest.1.head? := by
  obtain ⟨left, descending⟩ := w
  cases descending with
  | true => exact List.head?_reverse.symm
  | false => rfl

theorem rest_next (w : ListWalk α) : w.next.2.rest.1 = w.rest.1.tail := by
  obtain ⟨left, descending⟩ := w
  cases descending with
  | true => exact List.tail_reverse.symm
  | false => rfl

end ListWalk

end SnapshotIndex
