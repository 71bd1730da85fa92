/-!
# Identities and tags

An identity is a 64-bit number that names one element for as long as the
element can be reached, and a tag is a 32-bit number that says which kind of
element it is.  The greatest number of either width is kept back as "no such
thing".  An `Allocator` hands out identities one after the other.
-/

namespace SnapshotIndex

/-- The identity of an element.  Two handles with the same identity stand for
the same element. -/
structure Ident where
  raw : UInt64
deriving DecidableEq

namespace Ident

/-- The identity of nothing: the greatest 64-bit number. -/
def invalid : Ident := ⟨18446744073709551615⟩

def zero : Ident := ⟨0⟩

/-- Every identity but the greatest names an element. -/
def isValid (i : Ident) : Bool := i != invalid

def order (i j : Ident) : Ordering := compare i.raw.toNat j.raw.toNat

def digits (i : Ident) : String := toString i.raw.toNat

/-- An identity as shown to a programmer. -/
def describe (i : Ident) : String :=
  if i.isValid then "FsId(" ++ i.digits ++ ")" else "FsId(INVALID)"

end Ident

/-- The tag of an element, by which a catalog chooses the indexes for it. -/
structure Tag where
  raw : UInt32
deriving DecidableEq

namespace Tag

/-- The tag of nothing: the greatest 32-bit number. -/
def invalid : Tag := ⟨4294967295⟩

def zero : Tag := ⟨0⟩

/-- Every tag but the greatest is the tag of some kind of element. -/
def isValid (t : Tag) : Bool := t != invalid

def order (t u : Tag) : Ordering := compare t.raw.toNat u.raw.toNat

def digits (t : Tag) : String := toString t.raw.toNat

/-- A tag as shown to a programmer. -/
def describe (t : Tag) : String :=
  if t.isValid then "TypeCode(" ++ t.digits ++ ")" else "TypeCode(INVALID)"

end Tag

/-- A source of identities, each one more than the last.  After the greatest
64-bit number it goes on from zero. -/
structure Allocator where
  upcoming : Ident

namespace Allocator

/-- A source that starts at the given identity. -/
def startingAt (first : Ident) : Allocator := ⟨first⟩

def fresh : Allocator := startingAt ⟨1⟩

/-- The identity that `next` will hand out. -/
def peek (a : Allocator) : Ident := a.upcoming

/-- Hands out an identity. -/
def next (a : Allocator) : Ident × Allocator := (a.upcoming, ⟨⟨a.upcoming.raw + 1⟩⟩)

@[simp] theorem next_fst (a : Allocator) : a.next.1 = a.peek := rfl

@[simp] theorem peek_next (a : Allocator) : a.next.2.peek.raw = a.peek.raw + 1 := rfl

end Allocator

end SnapshotIndex
