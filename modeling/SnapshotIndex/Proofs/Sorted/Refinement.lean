import SnapshotIndex.Element.Record
import SnapshotIndex.Proofs.Snapshot.Interleaving
import SnapshotIndex.Proofs.Sorted.Performing

/-!
# Sorted indexes are sorted sets

`Agrees` and `IndexAgrees` say that all one can read of an array or of an index
is what a list says, and `Shows.agrees` that this is so if the array shows the
list.

* `run_eq_set`: over every run, with captures anywhere in it, the answers and
  everything that can be read are those of the set.
-/

namespace SnapshotIndex

open Identified (ident)

variable {α : Type} [Identified α] {order : KeyOrder α}

/-! ## Reading -/

/-- Everything that can be read of an array is what a list of elements says,
and the list is increasing, without two elements of equal keys and one
identity. -/
structure Agrees (order : KeyOrder α) (c : SortedArray α) (xs : List α) : Prop where
  increasing : order.Increasing xs
  distinct : xs.Pairwise fun a b => ¬ (order.keys a b = .eq ∧ ident a = ident b)
  toList_eq : c.toList = xs
  size_eq : c.size = xs.length
  isEmpty_eq : c.isEmpty = xs.isEmpty
  contains_iff : ∀ a, c.contains a = true ↔
    ∃ b ∈ xs, order.keys b a = .eq ∧ ident b = ident a
  first_eq : c.first? = xs.head?
  last_eq : c.last? = xs.getLast?
  /-- An element is only inserted where the one before it is less. -/
  insertion : ∀ a i, c.search a = .missing i → c.mayInsertAt i a = true ∧ i ≤ c.size

theorem Shows.agrees {c : SortedArray α} {xs : List α} [Std.TransCmp order.keys]
    (h : Shows order c xs) : Agrees order c xs := by
  have hlength := h.length_eq
  refine ⟨h.increasing, ?_, h.toList_eq, hlength.symm, ?_, fun a => ?_, ?_, ?_, fun a i hi => ?_⟩
  · refine List.Pairwise.imp ?_ h.increasing.pairwise_not_same
    intro a b hnot
    simpa [KeyOrder.same] using hnot
  · rw [SortedArray.isEmpty, ← hlength]
    cases xs <;> rfl
  · rw [h.contains_iff]
    simp only [KeyOrder.same, decide_eq_true_eq]
  · rw [SortedArray.first?, SortedArray.get?_eq, h.toList_eq, List.head?_eq_getElem?]
  · rw [← h.toList_eq, SortedArray.toList, Array.getLast?_toList]
    rfl
  · obtain ⟨rfl, rfl, hinc⟩ := h
    have hle := c.index_le_size a
    rw [hi] at hle
    refine ⟨?_, hle⟩
    cases i with
    | zero => rfl
    | succ i =>
      obtain ⟨b, hb⟩ := SortedArray.exists_getElem? (show i < c.size from hle)
      have hless := SortedArray.Sorted.lt_index_iff hinc (a := a) hb
      rw [hi] at hless
      have hlt : c.order.compare b a = .lt := hless.mp (Nat.lt_succ_self i)
      simp [SortedArray.mayInsertAt, SortedArray.get?_eq, hb, hlt]

/-- The same for what can be read of an index. -/
structure IndexAgrees (order : KeyOrder α) (s : SortedIndex α) (xs : List α) : Prop where
  content : Agrees order s.content xs
  toList_eq : s.toList = xs
  exportTo_eq : ∀ out, s.exportTo out = out ++ xs
  size_eq : s.size = xs.length
  isEmpty_eq : s.isEmpty = xs.isEmpty
  contains_iff : ∀ a, s.contains a = true ↔ ∃ b ∈ xs, order.keys b a = .eq ∧ ident b = ident a
  first_eq : s.first? = xs.head?
  last_eq : s.last? = xs.getLast?

theorem Agrees.index {s : SortedIndex α} {xs : List α} (h : Agrees order s.content xs) :
    IndexAgrees order s xs :=
  ⟨h, h.toList_eq, fun out => congrArg (out ++ ·) h.toList_eq, h.size_eq, h.isEmpty_eq,
    h.contains_iff, h.first_eq, h.last_eq⟩

/-- For every key order that is a total preorder, sorted indexes and sorted
arrays are sorted sets.  Over every run of an index, with changes through any
views and captures anywhere in between, all answers are those of the set, and
in the end everything that can be read agrees with it; and so it is over every
run of an array. -/
theorem run_eq_set (order : KeyOrder α) [Std.TransCmp order.keys] :
    (∀ ops : List (Interleaved (SortedArray α) (SortedOp α)),
      let run := runAll (Tracked.interleave SortedIndex.perform) (SortedIndex.empty order) ops
      let spec := runAll (uninterleaved (setPerform order)) [] ops
      run.1 = spec.1 ∧ IndexAgrees order run.2 spec.2) ∧
      ∀ ops : List (ArrayOp α),
        let run := runAll SortedArray.perform (SortedArray.empty order) ops
        let spec := runAll (setPerformArray order) [] ops
        run.1 = spec.1 ∧ Agrees order run.2 spec.2 := by
  constructor
  · intro ops run spec
    have hstart : Shows order (SortedIndex.empty order).content ([] : List α) := shows_empty
    obtain ⟨hanswers, hend⟩ :=
      runAll_simulates (interleave_simulates (@shows_perform _ _ order _)) hstart ops
    exact ⟨hanswers, (Shows.agrees hend).index⟩
  · intro ops run spec
    obtain ⟨hanswers, hend⟩ := runAll_simulates (@shows_performArray _ _ order _) shows_empty ops
    exact ⟨hanswers, hend.agrees⟩

/-- Every key order on records is a total preorder. -/
instance (o : RecordOrder) : Std.TransCmp o.keyOrder.keys := by
  cases o with
  | ident => exact inferInstanceAs (Std.TransCmp (compareOn fun _ : Record => 0))
  | key => exact inferInstanceAs (Std.TransCmp (compareOn Record.key))
  | keyDescending =>
    exact inferInstanceAs (Std.TransCmp fun a b : Record => compareOn Record.key b a)
  | bucket => exact inferInstanceAs (Std.TransCmp (compareOn fun r : Record => r.key / 10))
  | tag => exact inferInstanceAs (Std.TransCmp (compareOn fun r : Record => r.tag.raw.toNat))
  | text => exact inferInstanceAs (Std.TransCmp (compareOn Record.text))
  | span =>
    exact inferInstanceAs (Std.TransCmp (compareLex (compareOn Record.key)
      fun a b => compareOn (fun r : Record => r.text.utf8ByteSize) b a))

/-- Records with equal tens of their keys stand in the order of their identities. -/
theorem run_eq_set_bucket :
    Std.TransCmp RecordOrder.bucket.keyOrder.keys ∧
      IndexAgrees RecordOrder.bucket.keyOrder
        (runAll (Tracked.interleave SortedIndex.perform)
          (SortedIndex.empty RecordOrder.bucket.keyOrder)
          [.act (.add ⟨⟨2⟩, 11, ⟨1⟩, ""⟩), .hold ⟨0⟩, .act (.add ⟨⟨1⟩, 14, ⟨1⟩, ""⟩),
            .act (.add ⟨⟨2⟩, 19, ⟨1⟩, ""⟩)]).2
        [⟨⟨1⟩, 14, ⟨1⟩, ""⟩, ⟨⟨2⟩, 11, ⟨1⟩, ""⟩] :=
  ⟨inferInstance, ((run_eq_set RecordOrder.bucket.keyOrder).1 _).2⟩

end SnapshotIndex
