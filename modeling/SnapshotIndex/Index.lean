import SnapshotIndex.Config
import SnapshotIndex.Index.Bag
import SnapshotIndex.Index.RangeView

/-!
# Indexes of either kind

An `Index` is a bag or a sorted index, for callers to whom only membership and
traversal matter.
-/

namespace SnapshotIndex

inductive Kind
  /-- Unordered. -/
  | bag
  /-- Kept in a key order. -/
  | sorted
deriving DecidableEq

namespace Kind

/-- The word for a kind. -/
def word : Kind → String
  | bag => "bag"
  | sorted => "sorted"

/-- A kind as shown to a programmer. -/
def describe : Kind → String
  | bag => "Bag"
  | sorted => "Sorted"

end Kind

inductive Index (α : Type)
  | bag (b : Bag α)
  | sorted (s : SortedIndex α)

namespace Index

variable {α : Type}

def newBag (config : Config) : Index α := bag (Bag.ofConfig config)

def newSorted (order : KeyOrder α) : Index α := sorted (SortedIndex.empty order)

def kind : Index α → Kind
  | bag _ => .bag
  | sorted _ => .sorted

def bag? : Index α → Option (Bag α)
  | bag b => some b
  | sorted _ => none

def sorted? : Index α → Option (SortedIndex α)
  | bag _ => none
  | sorted s => some s

def size : Index α → Nat
  | bag b => b.size
  | sorted s => s.size

def isEmpty (i : Index α) : Bool := i.size == 0

/-- The elements as a traversal meets them. -/
def toList : Index α → List α
  | bag b => b.toList
  | sorted s => s.toList

/-- The elements as a traversal meets them, after some others. -/
def exportTo (i : Index α) (out : List α) : List α :=
  match i with
  | bag b => b.exportTo out
  | sorted s => s.exportTo out

def changes : Index α → Nat
  | bag b => b.changes
  | sorted s => s.changes

/-- How often the content was copied for the sake of a snapshot. -/
def copies : Index α → Nat
  | bag b => b.copies
  | sorted s => s.copies

def clear : Index α → Index α
  | bag b => bag b.clear
  | sorted s => sorted s.clear

variable [Identified α]

/-- Adds an element unless it is there already, and says whether it did. -/
def insert (i : Index α) (a : α) : Bool × Index α :=
  match i with
  | bag b =>
    let (added, b) := b.insert a
    (added, bag b)
  | sorted s =>
    let (added, s) := s.add a
    (added, sorted s)

/-- Removes an element, and says whether it was there. -/
def remove (i : Index α) (a : α) : Bool × Index α :=
  match i with
  | bag b =>
    let (removed, b) := b.remove a
    (removed, bag b)
  | sorted s =>
    let (removed, s) := s.remove a
    (removed, sorted s)

def contains (i : Index α) (a : α) : Bool :=
  match i with
  | bag b => b.contains a
  | sorted s => s.contains a

/-- The stored element that matches: by identity in a bag, by keys in a sorted
index. -/
def find? (i : Index α) (a : α) : Option α :=
  match i with
  | bag b => b.find? a
  | sorted s => s.find? a

/-- A hash of the content of a sorted index; a bag has none. -/
def contentHash : Index α → Except Fault UInt64
  | bag b => b.contentHash
  | sorted s => .ok s.contentHash

end Index

end SnapshotIndex
