import SnapshotIndex.Proofs.Sorted.Refinement

/-!
# The order that identities complete

A caller compares elements by their keys, and different elements may have equal keys.
A sorted index goes by `KeyOrder.compare`, which looks at the identities where the keys
are equal.

* Completed in this way, a total preorder is a total preorder again.  Keys that are
  strictly ordered decide alone (`compare_of_keys_ne`), and an element that is not
  greater has no greater keys (`keys_isLE`): the order of the keys is the coarser one.
* So both "not greater than `a`" and "smaller keys than `a`" are tests that no element
  passes after one that fails, in whatever list the completed order sorts, be it with
  repetitions.  What passes such a test is a beginning of the list (`filter_isPrefix`),
  and bisection looks for the end of this beginning.
-/

namespace SnapshotIndex

open Identified (ident)

/-- If each element passes a test that a later one passes, those that pass it come
first. -/
theorem filter_isPrefix {α : Type} {p : α → Bool} {xs : List α}
    (h : xs.Pairwise fun a b => p b = true → p a = true) : xs.filter p <+: xs := by
  induction xs with
  | nil => exact List.prefix_rfl
  | cons x rest ih =>
    obtain ⟨hfirst, hrest⟩ := List.pairwise_cons.mp h
    by_cases hx : p x = true
    · rw [List.filter_cons_of_pos hx, List.prefix_cons_inj]
      exact ih hrest
    · have hnone : rest.filter p = [] := by
        rw [List.filter_eq_nil_iff]
        exact fun b hb hpass => hx (hfirst b hb hpass)
      rw [List.filter_cons_of_neg hx, hnone]
      exact List.nil_prefix

namespace KeyOrder

variable {α : Type} [Identified α] {order : KeyOrder α} {a b : α} {xs : List α}

/-- Keys that are strictly ordered decide. -/
theorem compare_of_keys_ne (h : order.keys a b ≠ .eq) : order.compare a b = order.keys a b := by
  unfold compare
  cases hkeys : order.keys a b with
  | lt => rfl
  | eq => exact absurd hkeys h
  | gt => rfl

/-- What is not greater has no greater keys. -/
theorem keys_isLE (h : (order.compare a b).isLE = true) : (order.keys a b).isLE = true :=
  Ordering.isLE_left_of_isLE_then h

variable [Std.TransCmp order.keys]

/-- In a list that is sorted by keys and then by identities, the elements that are not
greater than a given one come first. -/
theorem notGreater_isPrefix (h : xs.Pairwise fun a b => (order.compare a b).isLE = true) (a : α) :
    (xs.filter fun b => (order.compare b a).isLE) <+: xs := by
  refine filter_isPrefix (h.imp ?_)
  intro b c hbc hca
  exact Std.TransCmp.isLE_trans hbc hca

/-- And so do the elements with smaller keys, whatever the identities. -/
theorem smallerKeys_isPrefix (h : xs.Pairwise fun a b => (order.compare a b).isLE = true) (a : α) :
    (xs.filter fun b => (order.keys b a).isLT) <+: xs := by
  refine filter_isPrefix (h.imp ?_)
  intro b c hbc hca
  rw [Ordering.isLT_iff_eq_lt] at hca ⊢
  exact Std.TransCmp.lt_of_isLE_of_lt (keys_isLE hbc) hca

end KeyOrder

/-- Whatever total preorder the keys are in, the order by keys and then by identities is
one again.  It decides as the keys do where these are strictly ordered, and finds two
elements equal only if their keys are equal and their identities the same.  So in every
list that is sorted by it, the elements that are not greater than a given one come
first, and likewise those with smaller keys. -/
theorem identities_complete_order {α : Type} [Identified α] (order : KeyOrder α)
    [Std.TransCmp order.keys] :
    (∀ a b, order.compare a b = (order.compare b a).swap) ∧
      (∀ a b c, (order.compare a b).isLE = true → (order.compare b c).isLE = true →
        (order.compare a c).isLE = true) ∧
      (∀ a b, order.keys a b ≠ .eq → order.compare a b = order.keys a b) ∧
      (∀ a b, order.compare a b = .eq ↔ order.keys a b = .eq ∧ ident a = ident b) ∧
      ∀ xs : List α, (xs.Pairwise fun a b => (order.compare a b).isLE = true) → ∀ a,
        (xs.filter fun b => (order.compare b a).isLE) <+: xs ∧
          (xs.filter fun b => (order.keys b a).isLT) <+: xs := by
  refine ⟨order.compare_swap, ?_, ?_, ?_, ?_⟩
  · intro a b c hab hbc
    exact Std.TransCmp.isLE_trans hab hbc
  · intro a b hkeys
    exact KeyOrder.compare_of_keys_ne hkeys
  · intro a b
    rw [order.compare_eq_eq_iff, KeyOrder.same, decide_eq_true_iff]
  · intro xs hsorted a
    exact ⟨KeyOrder.notGreater_isPrefix hsorted a, KeyOrder.smallerKeys_isPrefix hsorted a⟩

/-- Records in order, two of them the same and three with equal tens of their keys,
beside one that stands among these. -/
theorem identities_complete_order_bucket :
    let order := RecordOrder.bucket.keyOrder
    let xs : List Record :=
      [⟨⟨9⟩, 3, ⟨1⟩, ""⟩, ⟨⟨2⟩, 19, ⟨1⟩, ""⟩, ⟨⟨2⟩, 11, ⟨1⟩, ""⟩, ⟨⟨7⟩, 14, ⟨1⟩, ""⟩]
    let probe : Record := ⟨⟨5⟩, 17, ⟨1⟩, ""⟩
    Std.TransCmp order.keys ∧ (xs.Pairwise fun a b => (order.compare a b).isLE = true) ∧
      (xs.filter fun b => (order.compare b probe).isLE) <+: xs ∧
      (xs.filter fun b => (order.compare b probe).isLE).length = 3 ∧
      (xs.filter fun b => (order.keys b probe).isLT) <+: xs ∧
      (xs.filter fun b => (order.keys b probe).isLT).length = 1 := by
  intro order xs probe
  have hsorted : xs.Pairwise fun a b => (order.compare a b).isLE = true := by decide
  obtain ⟨-, -, -, -, hfirst⟩ := identities_complete_order RecordOrder.bucket.keyOrder
  obtain ⟨hnotGreater, hsmaller⟩ := hfirst xs hsorted probe
  exact ⟨inferInstance, hsorted, hnotGreater, rfl, hsmaller, rfl⟩

end SnapshotIndex
