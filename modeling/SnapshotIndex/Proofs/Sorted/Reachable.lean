import SnapshotIndex.Proofs.Snapshot.Interleaving
import SnapshotIndex.Proofs.Sorted.Performing

/-!
# Sorted indexes that can be reached

A sorted index starts out empty and from then on changes by its own operations
and by those of its views, while snapshots of it are held and let go at any
time.  Whatever the run, its array shows its elements in increasing order
(`shows_reached`), which is all that its views rely on.
-/

namespace SnapshotIndex

variable {α : Type} [Identified α]

/-- The index to which a run leads. -/
def SortedIndex.reached (order : KeyOrder α)
    (ops : List (Interleaved (SortedArray α) (SortedOp α))) : SortedIndex α :=
  (runAll (Tracked.interleave SortedIndex.perform) (SortedIndex.empty order) ops).2

/-- One operation, or one change in who holds a snapshot, keeps the elements in
order. -/
theorem shows_interleave {order : KeyOrder α} [Std.TransCmp order.keys] {s : SortedIndex α}
    (h : Shows order s.content s.content.toList)
    (op : Interleaved (SortedArray α) (SortedOp α)) :
    Shows order (s.interleave SortedIndex.perform op).2.content
      (s.interleave SortedIndex.perform op).2.content.toList :=
  (interleave_simulates (@shows_perform _ _ order _) s s.content.toList op h).2.self

theorem shows_reached (order : KeyOrder α) [Std.TransCmp order.keys]
    (ops : List (Interleaved (SortedArray α) (SortedOp α))) :
    Shows order (SortedIndex.reached order ops).content (SortedIndex.reached order ops).toList := by
  let Inv (s : SortedIndex α) : Prop := Shows order s.content s.toList
  have hstep : ∀ s op, Inv s → Inv (s.interleave SortedIndex.perform op).2 :=
    fun _ op hs => shows_interleave hs op
  have hstart : Inv (SortedIndex.empty order) := shows_empty
  exact runAll_invariant hstep hstart ops

/-- The elements are those to which the run leads a set. -/
theorem toList_reached (order : KeyOrder α) [Std.TransCmp order.keys]
    (ops : List (Interleaved (SortedArray α) (SortedOp α))) :
    (SortedIndex.reached order ops).toList =
      (runAll (uninterleaved (setPerform order)) [] ops).2 :=
  (runAll_simulates (interleave_simulates (@shows_perform _ _ order _))
    (s := SortedIndex.empty order) shows_empty ops).2.toList_eq

end SnapshotIndex
