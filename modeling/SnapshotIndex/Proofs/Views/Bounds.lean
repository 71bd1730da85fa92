import SnapshotIndex.Proofs.Snapshot.Reached
import SnapshotIndex.Proofs.Sorted.Reachable
import SnapshotIndex.Proofs.Sorted.Refinement
import SnapshotIndex.Proofs.Views.Narrowing

/-!
# From bounds to spans

A pair of bounds becomes a span of indexes by two searches, one for each bound.  A search
stops at the element that the bound names, or where this element would stand, and it
depends on the bound whether the span begins or ends there or one further.  Views read,
walk and delete by their span, so that a mistake by one shows, or removes, an element
that is none of theirs.

Which indexes lie in the span is settled element by element (`Shows.inRange_iff`).
What is left to say is that nothing lies in it when one bound shuts out what the other
lets in.

* `Bound.Shut`: the bounds cross, or they meet at one element, up to the handle, and
  at least one of them leaves this element out.
* `Bound.not_admits_of_shut`: then nothing is within both bounds.  For what is within
  one of them is on the right side of its endpoint, and so is what lies further inside.
* `bounds_give_span`: the span of any two bounds, in every array that can be reached.
-/

namespace SnapshotIndex

variable {α : Type} [Identified α]

namespace Bound

/-- Two bounds are shut if they cross, or meet at an element that one of them leaves out. -/
def Shut (order : KeyOrder α) (lo hi : Bound α) : Prop :=
  ∃ a b, lo.endpoint? = some a ∧ hi.endpoint? = some b ∧
    (order.compare a b = .gt ∨ order.compare a b = .eq ∧ (lo = excluding a ∨ hi = excluding b))

variable {order : KeyOrder α} {lo hi : Bound α} {a b c : α}

/-- What is within an upper bound is not greater than its endpoint. -/
theorem isLE_of_admitsBelow (hb : hi.endpoint? = some b) (hc : hi.admitsBelow order c = true) :
    (order.compare c b).isLE = true := by
  cases hi with
  | unbounded => exact absurd hb.symm (Option.some_ne_none b)
  | including d =>
    obtain rfl := Option.some.inj hb
    exact hc
  | excluding d =>
    obtain rfl := Option.some.inj hb
    exact Ordering.isLE_of_eq_lt (Ordering.isLT_iff_eq_lt.mp hc)

variable [Std.TransCmp order.keys]

/-- What is within a lower bound is not less than its endpoint. -/
theorem isLE_of_admitsAbove (ha : lo.endpoint? = some a) (hc : lo.admitsAbove order c = true) :
    (order.compare a c).isLE = true := by
  apply Std.OrientedCmp.isLE_of_isGE
  cases lo with
  | unbounded => exact absurd ha.symm (Option.some_ne_none a)
  | including d =>
    obtain rfl := Option.some.inj ha
    exact hc
  | excluding d =>
    obtain rfl := Option.some.inj ha
    exact Ordering.isGE_of_eq_gt (Ordering.isGT_iff_eq_gt.mp hc)

/-- Nothing is within both of two bounds that are shut. -/
theorem not_admits_of_shut (h : Shut order lo hi) (c : α) :
    ¬ (lo.admitsAbove order c = true ∧ hi.admitsBelow order c = true) := by
  rintro ⟨hlo, hhi⟩
  obtain ⟨a, b, ha, hb, hshut⟩ := h
  have hac := isLE_of_admitsAbove ha hlo
  have hcb := isLE_of_admitsBelow hb hhi
  rcases hshut with hgt | ⟨heq, rfl | rfl⟩
  · have hab : (order.compare a b).isLE = true := Std.TransCmp.isLE_trans hac hcb
    rw [hgt] at hab
    exact absurd hab (by decide)
  · -- the other endpoint lies further inside, and would be greater
    have hba : (excluding a).admitsAbove order b = true :=
      admitsAbove_of_isGE hlo (Std.OrientedCmp.isGE_of_isLE hcb)
    rw [admitsAbove, Std.OrientedCmp.eq_symm heq] at hba
    exact absurd hba (by decide)
  · have hab : (excluding b).admitsBelow order a = true := admitsBelow_of_isLE hhi hac
    rw [admitsBelow, heq] at hab
    exact absurd hab (by decide)

end Bound

/-- The span of two bounds runs forwards and lies within the array.  An index is in it
exactly if there is an element which is within both bounds, and none is if the bounds
are shut. -/
structure SortedArray.Spans (c : SortedArray α) (order : KeyOrder α) (lo hi : Bound α) : Prop where
  forwards : (c.boundSpan lo hi).start ≤ (c.boundSpan lo hi).stop
  within : (c.boundSpan lo hi).stop ≤ c.size
  mem_iff : ∀ i, (c.boundSpan lo hi).start ≤ i ∧ i < (c.boundSpan lo hi).stop ↔
    ∃ a, c.get? i = some a ∧ lo.admitsAbove order a = true ∧ hi.admitsBelow order a = true
  empty : lo.Shut order hi → (c.boundSpan lo hi).start = (c.boundSpan lo hi).stop

theorem Shows.spans {order : KeyOrder α} [Std.TransCmp order.keys] {c : SortedArray α}
    {xs : List α} (h : Shows order c xs) (lo hi : Bound α) : c.Spans order lo hi := by
  let v : RangeView α := ⟨lo, hi, false⟩
  obtain ⟨hforwards, hwithin⟩ : (v.span c).start ≤ (v.span c).stop ∧ (v.span c).stop ≤ c.size :=
    c.span_le v
  have hmem : ∀ i, (v.span c).start ≤ i ∧ i < (v.span c).stop ↔
      ∃ a, c.get? i = some a ∧ lo.admitsAbove order a = true ∧ hi.admitsBelow order a = true := by
    intro i
    rw [h.get?_eq]
    constructor
    · intro hi
      obtain ⟨a, ha⟩ : ∃ a, xs[i]? = some a := by
        rw [← h.toList_eq]
        exact SortedArray.exists_getElem? (Nat.lt_of_lt_of_le hi.2 hwithin)
      exact ⟨a, ha, Bool.and_eq_true_iff.mp ((h.inRange_iff v i a ha).mpr hi)⟩
    · rintro ⟨a, ha, hboth⟩
      exact (h.inRange_iff v i a ha).mp (Bool.and_eq_true_iff.mpr hboth)
  refine ⟨hforwards, hwithin, hmem, ?_⟩
  intro hshut
  refine Nat.le_antisymm hforwards (Nat.le_of_not_lt fun hlt => ?_)
  -- otherwise the element at the start is within both bounds
  obtain ⟨a, -, hboth⟩ := (hmem _).mp ⟨Nat.le_refl _, hlt⟩
  exact Bound.not_admits_of_shut hshut a hboth

/-- Two bounds give the indexes of just the elements within both.  This holds of every
index and every array that can be reached, in any order that is a total preorder, and
of all bounds, whether or not their endpoints are there and whichever comes first. -/
theorem bounds_give_span (order : KeyOrder α) [Std.TransCmp order.keys] (lo hi : Bound α) :
    (∀ ops : List (Interleaved (SortedArray α) (SortedOp α)),
      (SortedIndex.reached order ops).content.Spans order lo hi) ∧
    ∀ ops : List (ArrayOp α),
      (runAll SortedArray.perform (SortedArray.empty order) ops).2.Spans order lo hi := by
  constructor
  · intro ops
    exact (shows_reached order ops).spans lo hi
  · intro ops
    exact (Index.shows_arrayRun ops).spans lo hi

/-- Records with equal tens of their keys, between one that is not there and one that is;
and from the latter to itself without it. -/
theorem bounds_give_span_bucket :
    let order := RecordOrder.bucket.keyOrder
    let lo : Bound Record := .excluding ⟨⟨5⟩, 17, ⟨1⟩, ""⟩
    let hi : Bound Record := .including ⟨⟨7⟩, 11, ⟨1⟩, ""⟩
    let c := (runAll SortedArray.perform (SortedArray.empty order)
      [.add ⟨⟨7⟩, 14, ⟨1⟩, ""⟩, .add ⟨⟨6⟩, 19, ⟨1⟩, ""⟩, .add ⟨⟨2⟩, 10, ⟨1⟩, ""⟩]).2
    Std.TransCmp order.keys ∧ c.Spans order lo hi ∧ c.boundSpan lo hi = ⟨1, 3⟩ ∧
      c.Spans order (.excluding ⟨⟨7⟩, 11, ⟨1⟩, ""⟩) hi ∧
      c.boundSpan (.excluding ⟨⟨7⟩, 11, ⟨1⟩, ""⟩) hi = ⟨3, 3⟩ :=
  ⟨inferInstance, (bounds_give_span RecordOrder.bucket.keyOrder _ _).2 _, by decide,
    (bounds_give_span RecordOrder.bucket.keyOrder _ _).2 _, by decide⟩

end SnapshotIndex
