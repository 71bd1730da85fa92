import SnapshotIndex.Element.Ident

/-!
# What an index asks of its elements

An index looks at an element's identity and, to choose where it belongs, at
its tag; all else is left to the key order that the caller supplies.
`Handle` is the smallest element, and `Carrier` shows that a holder around an
element can stand for it.
-/

namespace SnapshotIndex

/-- Elements that have an identity and a tag. -/
class Identified (α : Type) where
  /-- The identity of an element. -/
  ident : α → Ident
  /-- The tag of an element. -/
  tag : α → Tag

open Identified (ident)

/-- An element that consists of its identity and its tag alone. -/
structure Handle where
  id : Ident
  tag : Tag
deriving DecidableEq

instance : Identified Handle where
  ident h := h.id
  tag h := h.tag

/-- A holder of an element.  It has the identity and the tag of what it
holds, so it can be indexed in its place, and holders can be nested. -/
structure Carrier (α : Type) where
  inner : α

instance {α : Type} [Identified α] : Identified (Carrier α) where
  ident c := ident c.inner
  tag c := Identified.tag c.inner

@[simp] theorem ident_carrier {α : Type} [Identified α] (a : α) :
    ident (Carrier.mk a) = ident a := rfl

@[simp] theorem tag_carrier {α : Type} [Identified α] (a : α) :
    Identified.tag (Carrier.mk a) = Identified.tag a := rfl

end SnapshotIndex
