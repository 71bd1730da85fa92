import SnapshotIndex.Element.KeyOrder

/-!
# Lists in increasing order

A key comparison is meant to be a total preorder, that is, `Std.TransCmp`
holds of it.  Joined with the identities it is then a total order up to
sameness (`compare_eq_eq_iff`): two elements are `same` if they have equal
keys and one identity.  A list is `Increasing` if each of its elements is less
than all that come later; so no two of them are the same.
-/

namespace SnapshotIndex

open Identified (ident)

instance : Std.TransCmp Ident.order :=
  inferInstanceAs (Std.TransCmp (compareOn fun i : Ident => i.raw.toNat))

theorem Ident.order_eq_eq_iff {i j : Ident} : i.order j = .eq ↔ i = j := by
  unfold order
  rw [Std.LawfulEqOrd.compare_eq_iff_eq, UInt64.toNat_inj]
  constructor
  · intro h
    cases i
    cases j
    exact congrArg Ident.mk h
  · rintro rfl
    rfl

namespace KeyOrder

variable {α : Type} [Identified α]

instance (order : KeyOrder α) [Std.TransCmp order.keys] : Std.TransCmp order.compare :=
  inferInstanceAs (Std.TransCmp
    (compareLex order.keys fun a b => compareOn (fun c => (ident c).raw.toNat) a b))

/-- Whether two elements have equal keys and the same identity. -/
def same (order : KeyOrder α) (a b : α) : Bool :=
  decide (order.keys a b = .eq ∧ ident a = ident b)

theorem compare_eq_eq_iff (order : KeyOrder α) {a b : α} :
    order.compare a b = .eq ↔ order.same a b = true := by
  unfold compare same
  rw [Ordering.then_eq_eq, Ident.order_eq_eq_iff, decide_eq_true_iff]

theorem compare_self (order : KeyOrder α) [Std.TransCmp order.keys] (a : α) :
    order.compare a a = .eq := Std.ReflCmp.compare_self

theorem compare_swap (order : KeyOrder α) [Std.TransCmp order.keys] (a b : α) :
    order.compare a b = (order.compare b a).swap := Std.OrientedCmp.eq_swap

/-- Every element is less than all that come after it. -/
def Increasing (order : KeyOrder α) (xs : List α) : Prop :=
  xs.Pairwise fun a b => order.compare a b = .lt

namespace Increasing

variable {order : KeyOrder α} {xs : List α}

theorem lt_of_lt (h : order.Increasing xs) {i j : Nat} {a b : α} (hij : i < j)
    (ha : xs[i]? = some a) (hb : xs[j]? = some b) : order.compare a b = .lt := by
  obtain ⟨hi, rfl⟩ := List.getElem?_eq_some_iff.mp ha
  obtain ⟨hj, rfl⟩ := List.getElem?_eq_some_iff.mp hb
  exact List.pairwise_iff_getElem.mp h i j hi hj hij

/-- Along the list the keys do not get smaller. -/
theorem keys_isLE (h : order.Increasing xs) {i j : Nat} {a b : α} (hij : i < j)
    (ha : xs[i]? = some a) (hb : xs[j]? = some b) : (order.keys a b).isLE = true := by
  have hlt := h.lt_of_lt hij ha hb
  unfold compare at hlt
  cases hkeys : order.keys a b <;> simp [hkeys] at hlt ⊢

/-- Among those with the same keys the identities grow. -/
theorem ident_lt (h : order.Increasing xs) {i j : Nat} {a b : α} (hij : i < j)
    (ha : xs[i]? = some a) (hb : xs[j]? = some b) (hkeys : order.keys a b = .eq) :
    (ident a).order (ident b) = .lt := by
  have hlt := h.lt_of_lt hij ha hb
  rwa [compare, hkeys] at hlt

theorem sublist {ys : List α} (h : order.Increasing xs) (hsub : ys.Sublist xs) :
    order.Increasing ys :=
  List.Pairwise.sublist hsub h

/-- An increasing list has no two elements with equal keys and one identity. -/
theorem pairwise_not_same (h : order.Increasing xs) :
    xs.Pairwise fun a b => order.same a b = false := by
  refine List.Pairwise.imp ?_ h
  intro a b hlt
  cases hsame : order.same a b with
  | false => rfl
  | true =>
    rw [order.compare_eq_eq_iff.mpr hsame] at hlt
    exact absurd hlt (by decide)

variable [Std.TransCmp order.keys]

/-- The elements that are the same as one in the list are that one. -/
theorem same_iff (h : order.Increasing xs) {i j : Nat} {a b : α}
    (ha : xs[i]? = some a) (hb : xs[j]? = some b) : order.same a b = true ↔ i = j := by
  rw [← order.compare_eq_eq_iff]
  constructor
  · intro heq
    have hij : ¬ i < j := fun hij => by
      rw [h.lt_of_lt hij ha hb] at heq
      exact absurd heq (by decide)
    have hji : ¬ j < i := fun hji => by
      rw [order.compare_swap, h.lt_of_lt hji hb ha] at heq
      exact absurd heq (by decide)
    omega
  · rintro rfl
    obtain rfl : a = b := Option.some.inj (ha.symm.trans hb)
    exact order.compare_self a

/-- No other element is the same as `a` if one in the list is. -/
theorem same_iff_of_same (h : order.Increasing xs) {a b c : α} {i j : Nat}
    (hb : xs[i]? = some b) (hsame : order.same b a = true) (hc : xs[j]? = some c) :
    order.same c a = true ↔ j = i := by
  rw [← h.same_iff hc hb, ← order.compare_eq_eq_iff, ← order.compare_eq_eq_iff,
    Std.TransCmp.congr_right (order.compare_eq_eq_iff.mpr hsame)]

end Increasing

end KeyOrder

end SnapshotIndex
