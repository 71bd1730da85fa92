import SnapshotIndex.Element.Identified
import SnapshotIndex.Store.Position

/-!
# Tables of elements by identity

An `IdentTable` is a hash table with open addressing.  Identities are handed
out in sequence, so they serve as their own hash: the home of an element is
its identity modulo the number of slots, and an element that finds its home
taken goes to the next free slot, wrapping around at the end.

* **Removal** leaves a marker, so that the path from a home to an element
  never meets an empty slot.  An insertion uses the first marker on its path
  again.
* **Rebuilding.**  Elements and markers together fill at most the load share
  of the slots.  An insertion that would fill more first moves all elements to
  a new table without markers, twice as large if the elements alone would fill
  more than half the share, and otherwise of the same size.
* **Generations.**  Whenever elements may have moved to other slots the
  generation goes up by one, so that whoever keeps a slot number can tell that
  it has lost its meaning.
-/

namespace SnapshotIndex

open Identified (ident)

/-- One slot of a table. -/
inductive Slot (α : Type)
  /-- Never used since the table was built. -/
  | empty
  /-- Held an element that was removed. -/
  | removed
  /-- Holds an element. -/
  | occupied (a : α)

namespace Slot

variable {α : Type}

def element? : Slot α → Option α
  | occupied a => some a
  | _ => none

def isMarker : Slot α → Bool
  | removed => true
  | _ => false

@[simp] theorem element?_empty : (empty : Slot α).element? = none := rfl

@[simp] theorem element?_removed : (removed : Slot α).element? = none := rfl

@[simp] theorem element?_occupied (a : α) : (occupied a).element? = some a := rfl

@[simp] theorem isMarker_empty : (empty : Slot α).isMarker = false := rfl

@[simp] theorem isMarker_removed : (removed : Slot α).isMarker = true := rfl

@[simp] theorem isMarker_occupied (a : α) : (occupied a).isMarker = false := rfl

end Slot

/-- A set of elements, no two with the same identity. -/
structure IdentTable (α : Type) where
  slots : Array (Slot α)
  /-- The number of elements. -/
  count : Nat
  /-- The number of removal markers. -/
  markers : Nat
  /-- The number of slots after clearing. -/
  initialSize : Nat
  /-- The share of the slots, in percent, that may be filled. -/
  load : Nat
  /-- How often elements may have moved to other slots. -/
  generation : Nat

/-- Where the search for an identity ends. -/
inductive Probe
  /-- At the slot that holds the element. -/
  | found (slot : Nat)
  /-- At an empty slot; an insertion should use the slot given here. -/
  | vacant (slot : Nat)
  /-- Nowhere: no slot is empty and the identity is in none of them. -/
  | endless
deriving DecidableEq

namespace IdentTable

variable {α : Type}

/-! ## Sizes -/

/-- No table has fewer slots. -/
def minSize : Nat := 16

/-- A load share, brought into the range from 10 to 90 percent. -/
def clampLoad (load : Nat) : Nat := max 10 (min load 90)

/-- The number of slots for `capacity` elements at a load share: the least
power of two, but at least `minSize`, of which the share exceeds the
capacity.  The product with 100 is exact here.  In numbers of 64 bits it saturates
at the largest of them, which makes a difference only to capacities for which no
table can be allocated. -/
def sizeFor (capacity load : Nat) : Nat :=
  max minSize (Nat.pow 2 ((capacity * 100 / load).log2 + 1))

/-- A run of empty slots. -/
def emptySlots (n : Nat) : Array (Slot α) := Array.replicate n .empty

/-- An empty table for `capacity` elements at a load share. -/
def withLoad (capacity load : Nat) : IdentTable α :=
  let size := sizeFor capacity (clampLoad load)
  { slots := emptySlots size, count := 0, markers := 0, initialSize := size,
    load := clampLoad load, generation := 0 }

/-- An empty table for `capacity` elements at the usual load share. -/
def withCapacity (capacity : Nat) : IdentTable α := withLoad capacity 50

def new : IdentTable α := withCapacity 0

def size (t : IdentTable α) : Nat := t.slots.size

def isEmpty (t : IdentTable α) : Bool := t.count == 0

/-! ## Probing -/

def element? (t : IdentTable α) (slot : Nat) : Option α :=
  t.slots[slot]?.bind Slot.element?

def isOccupied (t : IdentTable α) (slot : Nat) : Bool := (t.element? slot).isSome

def isMarker (t : IdentTable α) (slot : Nat) : Bool := t.slots[slot]?.any Slot.isMarker

/-- The slot where the search for an identity begins. -/
def home (t : IdentTable α) (id : Ident) : Nat := id.raw.toNat % t.size

/-- The slot after a slot, on a circle. -/
def after (t : IdentTable α) (slot : Nat) : Nat := (slot + 1) % t.size

/-- The elements, slot by slot. -/
def toList (t : IdentTable α) : List α := t.slots.toList.filterMap Slot.element?

/-- One hundred times the number of slots that may be filled. -/
def limit (t : IdentTable α) : Nat := t.size * t.load

section Identity

variable [Identified α]

/-- Follows the path of an identity from `slot` on, for at most `steps` slots.
`marker` is the first removal marker met so far. -/
def probeFrom (t : IdentTable α) (id : Ident) : (steps slot : Nat) → (marker : Option Nat) → Probe
  | 0, _, _ => .endless
  | steps + 1, slot, marker =>
    match t.slots[slot]? with
    | none => .endless
    | some .empty => .vacant (marker.getD slot)
    | some .removed => t.probeFrom id steps (t.after slot) (marker.or (some slot))
    | some (.occupied a) =>
      if ident a = id then .found slot else t.probeFrom id steps (t.after slot) marker

/-- Looks for an identity along its path, which visits every slot once. -/
def probe (t : IdentTable α) (id : Ident) : Probe := t.probeFrom id t.size (t.home id) none

def get? (t : IdentTable α) (id : Ident) : Option α :=
  match t.probe id with
  | .found slot => t.element? slot
  | _ => none

/-- Whether an identity is in the table. -/
def hasIdent (t : IdentTable α) (id : Ident) : Bool :=
  match t.probe id with
  | .found _ => true
  | _ => false

/-- Whether an element of the same identity is in the table. -/
def contains (t : IdentTable α) (a : α) : Bool := t.hasIdent (ident a)

/-! ## Rebuilding -/

/-- The first empty slot from `slot` on, on a circle, among `steps` slots. -/
def vacancyFrom (t : IdentTable α) : (steps slot : Nat) → Option Nat
  | 0, _ => none
  | steps + 1, slot =>
    match t.slots[slot]? with
    | some .empty => some slot
    | _ => t.vacancyFrom steps (t.after slot)

/-- Moves an element into the first empty slot of its path.  It is not
compared with the elements that it passes. -/
def settle (t : IdentTable α) (a : α) : IdentTable α :=
  match t.vacancyFrom t.size (t.home (ident a)) with
  | some slot => { t with slots := t.slots.setIfInBounds slot (.occupied a) }
  | none => t

/-- The empty slots to which the elements of a table are moved. -/
def blank (t : IdentTable α) (newSize : Nat) : IdentTable α :=
  { t with slots := emptySlots newSize, markers := 0, generation := t.generation + 1 }

/-- Moves all elements, slot by slot, to other slots without markers. -/
def rebuild (t : IdentTable α) (newSize : Nat) : IdentTable α :=
  t.toList.foldl settle (t.blank newSize)

/-! ## Insertion -/

/-- Puts an element into the slot where its search ends, and says whether it
did: an element that is in the table stays as it is. -/
def put (t : IdentTable α) (a : α) : Bool × IdentTable α :=
  match t.probe (ident a) with
  | .vacant slot =>
    (true,
      { t with
        slots := t.slots.setIfInBounds slot (.occupied a)
        count := t.count + 1
        markers := if t.isMarker slot then t.markers - 1 else t.markers })
  | _ => (false, t)

/-- Makes room for one more element. -/
def reserve (t : IdentTable α) : IdentTable α :=
  if (t.count + t.markers + 1) * 100 ≤ t.limit then t
  else if t.limit < (t.count + 1) * 200 then t.rebuild (2 * t.size)
  else t.rebuild t.size

/-- Adds an element unless its identity is in the table already, and says
whether it did. -/
def insert (t : IdentTable α) (a : α) : Bool × IdentTable α :=
  if t.contains a then (false, t) else t.reserve.put a

/-! ## Removal -/

/-- Removes the element of an identity and gives it back. -/
def take (t : IdentTable α) (id : Ident) : Option α × IdentTable α :=
  match t.probe id with
  | .found slot =>
    (t.element? slot,
      { t with
        slots := t.slots.setIfInBounds slot .removed
        count := t.count - 1
        markers := t.markers + 1 })
  | _ => (none, t)

/-- Removes the element of the same identity, and says whether there was one. -/
def remove (t : IdentTable α) (a : α) : Bool × IdentTable α :=
  let (taken, rest) := t.take (ident a)
  (taken.isSome, rest)

end Identity

/-- Removes all elements.  A table that has grown goes back to its initial
size, which counts as moving its elements. -/
def clear (t : IdentTable α) : IdentTable α :=
  { t with
    slots := emptySlots (if t.initialSize < t.size then t.initialSize else t.size)
    count := 0
    markers := 0
    generation := if t.initialSize < t.size then t.generation + 1 else t.generation }

/-- An empty table of the same initial size and load share, to be used instead
of this one.  It counts as moving the elements. -/
def emptyLike (t : IdentTable α) : IdentTable α :=
  { t with
    slots := emptySlots t.initialSize
    count := 0
    markers := 0
    generation := t.generation + 1 }

/-! ## Traversal -/

/-- The first occupied slot among the `steps` slots from `slot` on. -/
def firstOccupied (t : IdentTable α) : (steps slot : Nat) → Option Nat
  | 0, _ => none
  | steps + 1, slot => if t.isOccupied slot then some slot else t.firstOccupied steps (slot + 1)

/-- The last occupied slot before a slot. -/
def lastOccupied (t : IdentTable α) : (slot : Nat) → Option Nat
  | 0 => none
  | slot + 1 => if t.isOccupied slot then some slot else t.lastOccupied slot

/-- The place of the first element at or after a slot, or else the place past
the end. -/
def placeFrom (t : IdentTable α) (slot : Nat) : Position :=
  .nth ((t.firstOccupied (t.size - slot) slot).getD t.size)

/-- The place of the last element before a slot, or else the place before the
start. -/
def placeBelow (t : IdentTable α) (slot : Nat) : Position := .ofIndex? (t.lastOccupied slot)

/-- The place after a place. -/
def next (t : IdentTable α) : Position → Position
  | .before => t.placeFrom 0
  | .nth slot => t.placeFrom (slot + 1)

/-- The place before a place. -/
def prev (t : IdentTable α) : Position → Position
  | .before => .before
  | .nth slot => t.placeBelow (min slot t.size)

/-- A table is traversed slot by slot, and a cursor that is sent to an element
goes to that element itself or nowhere. -/
instance [Identified α] : Positional (IdentTable α) α where
  size t := t.count
  first t := t.placeFrom 0
  last t := t.placeBelow t.size
  next := next
  prev := prev
  get? t p := p.index?.bind t.element?
  seek t a :=
    match t.probe (ident a) with
    | .found slot => .nth slot
    | _ => .before

end IdentTable

end SnapshotIndex
