import SnapshotIndex.Config
import SnapshotIndex.Snapshot.Cursor
import SnapshotIndex.Snapshot.Walk
import SnapshotIndex.Store.IdentTable

/-!
# Bags

A bag is an unordered index: a set of elements told apart by identity.  A
second element of the same identity is not taken in, and the stored handle
stays.

Places in the live table are handed out as `Mark`s, which carry the generation
of the table.  When elements have moved to other slots a mark means nothing
any more: it reads nothing and leads nowhere.
-/

namespace SnapshotIndex

open Identified (ident)

abbrev Bag (α : Type) : Type := Tracked (IdentTable α)

/-- A place in the live table of a bag, and the generation it belongs to. -/
structure Mark where
  slot : Position
  generation : Nat
deriving DecidableEq

namespace Mark

/-- A mark that never stands on an element. -/
def invalid : Mark := ⟨.before, 0⟩

/-- A mark as shown to a programmer. -/
def describe (m : Mark) : String :=
  "BagPosition \x7b slot: " ++ m.slot.describe ++ ", generation: " ++ toString m.generation
    ++ " \x7d"

end Mark

namespace Bag

variable {α : Type}

/-- An empty bag for `capacity` elements at a load share. -/
def withLoad (capacity load : Nat) : Bag α := .of (.withLoad capacity load)

/-- An empty bag of a configured size. -/
def ofConfig (config : Config) : Bag α := withLoad config.bagCapacity config.loadPercent

def size (b : Bag α) : Nat := b.content.count

def isEmpty (b : Bag α) : Bool := b.content.isEmpty

/-- The elements, slot by slot. -/
def toList (b : Bag α) : List α := b.content.toList

/-- The elements, slot by slot, after some others. -/
def exportTo (b : Bag α) (out : List α) : List α := out ++ b.toList

def clear (b : Bag α) : Bag α :=
  if b.isEmpty then b else b.renew IdentTable.clear b.content.emptyLike

/-- A bag has no hash of its content. -/
def contentHash (_ : Bag α) : Except Fault UInt64 :=
  .error (.unsupported "structural hashing of a bag index")

/-- A place of the live table, marked with its generation. -/
def mark (b : Bag α) (p : Position) : Mark := ⟨p, b.content.generation⟩

/-- The place of a mark, unless elements may have moved since. -/
def place? (b : Bag α) (m : Mark) : Option Position :=
  if m.generation = b.content.generation then some m.slot else none

variable [Identified α]

/-- Whether an element of the same identity is there. -/
def contains (b : Bag α) (a : α) : Bool := b.content.contains a

/-- The stored element of the same identity. -/
def find? (b : Bag α) (a : α) : Option α := b.content.get? (ident a)

/-- Adds an element unless its identity is there already, and says whether the
table took it. -/
def insert (b : Bag α) (a : α) : Bool × Bag α :=
  if b.contains a then (false, b) else b.attempt fun t => t.insert a

/-- Removes the element of the same identity, and says whether the table had
one. -/
def remove (b : Bag α) (a : α) : Bool × Bag α :=
  if b.contains a then b.attempt fun t => t.remove a else (false, b)

/-- Elements as a bag orders them: by identity, whatever they contain. -/
def compare (a b : α) : Ordering := (ident a).order (ident b)

/-! ## Live positions -/

/-- The first element of the live table. -/
def first (b : Bag α) : Mark := b.mark (Positional.first b.content)

/-- The last element of the live table. -/
def last (b : Bag α) : Mark := b.mark (Positional.last b.content)

/-- The element after a mark. -/
def next (b : Bag α) (m : Mark) : Mark :=
  match b.place? m with
  | some p => b.mark (Positional.next b.content p)
  | none => .invalid

/-- The element before a mark. -/
def prev (b : Bag α) (m : Mark) : Mark :=
  match b.place? m with
  | some p => b.mark (Positional.prev b.content p)
  | none => .invalid

/-- The element at a mark. -/
def get? (b : Bag α) (m : Mark) : Option α := (b.place? m).bind (Positional.get? b.content)

/-- Whether a mark stands on an element. -/
def isValid (b : Bag α) (m : Mark) : Bool := (b.get? m).isSome

end Bag

end SnapshotIndex
