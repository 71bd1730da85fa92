import SnapshotIndex.Snapshot.Cursor
import SnapshotIndex.Snapshot.Walk
import SnapshotIndex.Store.SortedArray

/-!
# Sorted indexes

A sorted index is a set of elements in the order of their keys and then of
their identities.  Distinct elements with equal keys are all kept; an element
with the keys and the identity of one that is there is not taken in, and the
stored handle stays.
-/

namespace SnapshotIndex

open Identified (ident)

abbrev SortedIndex (α : Type) : Type := Tracked (SortedArray α)

namespace SortedIndex

variable {α : Type}

def empty (order : KeyOrder α) : SortedIndex α := .of (.empty order)

/-- The order of the elements. -/
def order (s : SortedIndex α) : KeyOrder α := s.content.order

def size (s : SortedIndex α) : Nat := s.content.size

def isEmpty (s : SortedIndex α) : Bool := s.content.isEmpty

def toList (s : SortedIndex α) : List α := s.content.toList

def first? (s : SortedIndex α) : Option α := s.content.first?

def last? (s : SortedIndex α) : Option α := s.content.last?

/-- The elements in order, after some others. -/
def exportTo (s : SortedIndex α) (out : List α) : List α := out ++ s.toList

/-- The first element with equal keys, which need not be the given one. -/
def find? (s : SortedIndex α) (a : α) : Option α := s.content.find? a

def clear (s : SortedIndex α) : SortedIndex α :=
  if s.isEmpty then s else s.renew SortedArray.clear (.empty s.order)

/-- Removes the element at an index and gives it back. -/
def removeAt (s : SortedIndex α) (i : Nat) : Option α × SortedIndex α :=
  if i < s.size then (s.content.get? i, s.edit fun xs => (xs.removeAt i).2) else (none, s)

/-- Removes the elements of a span.  To remove all of them is to clear the
index. -/
def removeSpan (s : SortedIndex α) (span : Span) : SortedIndex α :=
  if span.isEmpty then s
  else if span.size = s.size then s.clear
  else s.edit fun xs => xs.dropSpan span

/-- Removes the first element and gives it back. -/
def pollFirst (s : SortedIndex α) : Option α × SortedIndex α := s.removeAt 0

/-- Removes the last element and gives it back. -/
def pollLast (s : SortedIndex α) : Option α × SortedIndex α :=
  if s.size = 0 then (none, s) else s.removeAt (s.size - 1)

/-- Keeps the elements that pass a sieve, and counts the others.  The content is
changed, and if need be copied, only when some element is refused.  Up to that
element the sieve is asked beforehand, and not again when the elements are
removed. -/
def retain {σ : Type} (s : SortedIndex α) (sieve : Sieve σ α) (state : σ) :
    (Nat × SortedIndex α) × σ :=
  match sieve.firstRefused s.toList state with
  | (none, state) => ((0, s), state)
  | (some refused, state) =>
    let strained := fun xs : SortedArray α => xs.retain (sieve.resume refused) (0, state)
    let ((removed, _), _, state) := strained s.content
    ((removed, s.edit fun xs => (strained xs).1.2), state)

variable [Identified α]

/-- Whether an element with these keys and this identity is there. -/
def contains (s : SortedIndex α) (a : α) : Bool := s.content.contains a

/-- Whether all the given elements are there. -/
def containsAll (s : SortedIndex α) (as : List α) : Bool := as.all s.contains

/-! ## Neighbours -/

/-- The greatest element that is less. -/
def lower? (s : SortedIndex α) (a : α) : Option α := s.content.lower? a

/-- The greatest element that is not greater. -/
def floor? (s : SortedIndex α) (a : α) : Option α := s.content.floor? a

/-- The least element that is not less. -/
def ceiling? (s : SortedIndex α) (a : α) : Option α := s.content.ceiling? a

/-- The least element that is greater. -/
def higher? (s : SortedIndex α) (a : α) : Option α := s.content.higher? a

/-- The place of the greatest element that is less. -/
def lowerPosition (s : SortedIndex α) (a : α) : Position := .ofIndex? (s.content.lowerIndex? a)

/-- The place of the greatest element that is not greater. -/
def floorPosition (s : SortedIndex α) (a : α) : Position := .ofIndex? (s.content.floorIndex? a)

/-- The place of the least element that is not less. -/
def ceilingPosition (s : SortedIndex α) (a : α) : Position :=
  .ofIndex? (s.content.ceilingIndex? a)

/-- The place of the least element that is greater. -/
def higherPosition (s : SortedIndex α) (a : α) : Position := .ofIndex? (s.content.higherIndex? a)

/-! ## Changes -/

/-- Adds an element unless it is there already, and says whether it did. -/
def add (s : SortedIndex α) (a : α) : Bool × SortedIndex α :=
  match s.content.search a with
  | .found _ => (false, s)
  | .missing i => (true, s.edit fun xs => xs.insertAt i a)

/-- Removes an element, and says whether it was there. -/
def remove (s : SortedIndex α) (a : α) : Bool × SortedIndex α :=
  match s.content.search a with
  | .found i =>
    let (removed, s) := s.removeAt i
    (removed.isSome, s)
  | .missing _ => (false, s)

/-- Does an operation for each element of a list, and counts how often it
says yes. -/
def countEach (op : SortedIndex α → α → Bool × SortedIndex α) :
    List α → SortedIndex α → Nat × SortedIndex α
  | [], s => (0, s)
  | a :: rest, s =>
    let (done, s) := op s a
    let (count, s) := countEach op rest s
    (if done then count + 1 else count, s)

/-- Adds elements one after the other, and counts those that were new. -/
def addAll (s : SortedIndex α) (as : List α) : Nat × SortedIndex α := countEach add as s

/-- Removes elements one after the other, and counts those that were there. -/
def removeAll (s : SortedIndex α) (as : List α) : Nat × SortedIndex α := countEach remove as s

/-- A hash of the identities in the order of the elements: each identity is
joined to the hash bit by bit, and the result multiplied by a prime. -/
def contentHash (s : SortedIndex α) : UInt64 :=
  s.toList.foldl (fun h a => (h ^^^ (ident a).raw) * 1099511628211) 14695981039346656037

end SortedIndex

end SnapshotIndex
