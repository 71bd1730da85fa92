import SnapshotIndex.Element.Record
import SnapshotIndex.Proofs.Snapshot.Idle
import SnapshotIndex.Proofs.Snapshot.Reached

/-!
# Changes are counted exactly

The count of changes goes up with every edit, and an edit is never made without
a difference.  A call is therefore counted as often as it edits, and what it
answers is this number or whether it is positive.  The one thing to make sure of
is that the edits of a call are visible in the elements that it leaves: they all
go in one direction, so the number of elements tells
(`Index.Edited.toList_eq_iff`).

`Index.CountsExactly` states this without edits, by a comparison of the elements
before a call and after it.

* `countsExactly_of_sound`: every call on an index that is sound.
* `reached_countsExactly`: every call on an index that can be reached.
-/

namespace SnapshotIndex

variable {α : Type} [Identified α]

namespace Index

variable {i j : Index α}

/-- Edits show in the elements, and nothing else does. -/
theorem Edited.toList_eq_iff {n : Nat} (h : i.Edited n j) (hsound : i.Sound) :
    j.toList = i.toList ↔ n = 0 := by
  constructor
  · intro hsame
    by_contra hn
    have hlength := congrArg List.length hsame
    rw [length_toList (h.follows hsound).sound, length_toList hsound] at hlength
    exact h.size_ne hn hlength
  · rintro rfl
    rw [h.eq_of_zero]

/-- What a call changes, by the elements that it finds and those that it
leaves.  Elements are compared with their handles and in their order. -/
structure CountsExactly (i : Index α) (op : IndexOp α) : Prop where
  /-- A call that leaves the elements as they are leaves the whole index as it
  is: the count of changes and the count of copies, the version of the store and
  those who hold it, and the table of a bag with its slots and its
  generation. -/
  idle : (i.perform op).toList = i.toList → i.perform op = i
  /-- Any other call is counted once, or as often as it says if it does an
  operation for each element of a list. -/
  counted : (i.perform op).toList ≠ i.toList →
    (i.perform op).changes = i.changes + (i.answer op).worth
  /-- An answer that reports a change, or that there was none, is right. -/
  reported : ∀ yes, (i.answer op).reports? = some yes →
    (yes = true ↔ (i.perform op).toList ≠ i.toList)

theorem countsExactly_of_sound (h : i.Sound) (op : IndexOp α) : i.CountsExactly op := by
  obtain ⟨n, htells, hedited⟩ := edited_perform h op
  have hsame := hedited.toList_eq_iff h
  refine ⟨fun hlist => ?_, fun hlist => ?_, fun yes hyes => ?_⟩
  · obtain rfl := hsame.mp hlist
    exact hedited.eq_of_zero
  · have hn : n ≠ 0 := fun hn => hlist (hsame.mpr hn)
    rw [hedited.changes_eq, ← htells.worth_eq hn]
  · rw [htells.reports_iff yes hyes]
    exact not_congr hsame.symm

end Index

/-- Changes are counted exactly.  However a bag or a sorted index has come
about, and whatever a session on it has done, captured and dropped, the next
call is counted for what it changes, and says so. -/
theorem reached_countsExactly :
    (∀ (capacity load : Nat) (ops : List (TableOp α)) (actions : List (Action α))
        (op : IndexOp α),
      ((Index.bagOver capacity load ops).after actions).CountsExactly op) ∧
      ∀ (order : KeyOrder α) (ops : List (ArrayOp α)) (actions : List (Action α))
        (op : IndexOp α),
        ((Index.sortedOver order ops).after actions).CountsExactly op := by
  refine ⟨fun capacity load ops actions op => ?_, fun order ops actions op => ?_⟩
  · have hstart := Index.sound_bagOver capacity load ops
    exact Index.countsExactly_of_sound (Index.sound_after hstart actions) op
  · have hstart := Index.sound_sortedOver order ops
    exact Index.countsExactly_of_sound (Index.sound_after hstart actions) op

/-- A list is counted element by element, and to drop it all counts once. -/
example :
    let s := (SortedIndex.empty RecordOrder.key.keyOrder).addAll
      [⟨⟨1⟩, 5, ⟨1⟩, ""⟩, ⟨⟨2⟩, 3, ⟨1⟩, ""⟩, ⟨⟨1⟩, 5, ⟨2⟩, ""⟩]
    s.1 = 2 ∧ s.2.changes = 2 ∧ s.2.clear.changes = 3 := by
  decide

end SnapshotIndex
