import SnapshotIndex.Element.Identified

/-!
# Key orders

A sorted index is kept in an order that its caller supplies as a comparison of
keys.  Different elements may have equal keys; `KeyOrder.compare` then puts the
smaller identity first, so under it two elements are equal only if they have
equal keys and the same identity.
-/

namespace SnapshotIndex

open Identified (ident)

/-- A comparison of elements by their keys.  It is meant to be a total
preorder. -/
structure KeyOrder (α : Type) where
  /-- Compares keys only. -/
  keys : α → α → Ordering

namespace KeyOrder

variable {α κ : Type}

/-- The order without keys: all keys are equal. -/
def byIdent : KeyOrder α := ⟨fun _ _ => .eq⟩

/-- Orders by a key that each element has. -/
def on [Ord κ] (key : α → κ) : KeyOrder α := ⟨fun a b => Ord.compare (key a) (key b)⟩

/-- The order in which a sorted index keeps its elements: by keys, then by
identity. -/
def compare [Identified α] (o : KeyOrder α) (a b : α) : Ordering :=
  (o.keys a b).then ((ident a).order (ident b))

/-- A key order as shown to a programmer; the comparison itself cannot be
shown. -/
def describe (_ : KeyOrder α) : String := "FsComparator \x7b .. \x7d"

@[simp] theorem keys_byIdent (a b : α) : (byIdent : KeyOrder α).keys a b = .eq := rfl

@[simp] theorem keys_on [Ord κ] (key : α → κ) (a b : α) :
    (on key).keys a b = Ord.compare (key a) (key b) := rfl

end KeyOrder

end SnapshotIndex
