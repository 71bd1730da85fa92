import Mathlib.Data.List.ReduceOption
import SnapshotIndex.Element.Record
import SnapshotIndex.Proofs.Run
import SnapshotIndex.Proofs.Snapshot.Alike
import SnapshotIndex.Proofs.Snapshot.Ledger

/-!
# Snapshots are transparent

Whoever changes an index does not notice that others take snapshots of it.  A
session with captures, copies, uses and drops anywhere between its changes is
compared with an index that goes through the same changes and is never
captured.

A capture or a drop only tells the index who holds what, and so leaves it
alike (`alike_of_capture`).  The changes leave alike indexes alike whatever
paths they take, and the two runs go side by side (`watch_simulates`).

* `run_transparent`: over every run on a bag or on a sorted index.
-/

namespace SnapshotIndex

variable {α : Type} [Identified α]

/-- Captures, uses and drops leave an index alike. -/
theorem alike_of_capture {s : Session (Index α) α} {j : Index α} (h : s.host.Alike j)
    {action : Action α} (hcapture : action.op? = none) : (s.act action).2.host.Alike j :=
  (s.recounted_act hcapture).keeps (P := (·.Alike j)) (fun _ x hi => Index.Alike.hold hi x)
    (fun _ x hi => Index.Alike.release hi x) h

/-! ## Runs -/

/-- One operation of an index that nobody captures, with its answer and with
what can be seen afterwards. -/
def Index.watch (i : Index α) (op : IndexOp α) : (SortedAnswer α × Sight α) × Index α :=
  ((i.answer op, (i.perform op).sight), i.perform op)

/-- One action of a session; of a change, the answer and what can be seen
afterwards. -/
def Session.watch (s : Session (Index α) α) (action : Action α) :
    Option (SortedAnswer α × Sight α) × Session (Index α) α :=
  (action.op?.map fun op => (s.host.answer op, (s.act action).2.host.sight), (s.act action).2)

/-- A session and an index without captures that begin alike go on alike, and
at every change they answer and look the same. -/
theorem watch_simulates {s : Session (Index α) α} {j : Index α} (h : s.host.Alike j)
    (actions : List (Action α)) :
    (runAll Session.watch s actions).1.reduceOption =
        (runAll Index.watch j (actions.filterMap Action.op?)).1 ∧
      (runAll Session.watch s actions).2.host.Alike
        (runAll Index.watch j (actions.filterMap Action.op?)).2 := by
  induction actions generalizing s j with
  | nil => exact ⟨rfl, h⟩
  | cons action rest ih =>
    cases hop : action.op? with
    | none =>
      -- only the session takes a step
      obtain ⟨hseen, hend⟩ := ih (alike_of_capture h hop)
      have hsilent : (s.watch action).1 = none := by rw [Session.watch, hop, Option.map_none]
      simp only [List.filterMap_cons_none hop, runAll_cons, hsilent,
        List.reduceOption_cons_of_none]
      exact ⟨hseen, hend⟩
    | some op =>
      obtain rfl := action.eq_change_of_op? hop
      obtain ⟨hanswer, hafter⟩ := h.perform op
      have hstep : (s.act (.change op)).2.host = s.host.perform op := rfl
      obtain ⟨hseen, hend⟩ := ih (s := (s.act (.change op)).2) (hstep ▸ hafter)
      have hshown : (s.watch (.change op)).1 = some (j.watch op).1 := by
        rw [Session.watch, hop, Option.map_some, hstep, hanswer, hafter.sight_eq, Index.watch]
      simp only [List.filterMap_cons_some hop, runAll_cons, hshown,
        List.reduceOption_cons_of_some]
      exact ⟨congrArg _ hseen, hend⟩

/-- What an index shows to those who change it does not depend on captures: run
with captures and drops anywhere in between, and run with none, it gives the
same answer to every operation, looks the same after each of them, and looks
the same in the end. -/
def Index.Transparent (start : Index α) : Prop :=
  ∀ actions : List (Action α),
    let run := runAll Session.watch { host := start } actions
    let plain := runAll Index.watch start (actions.filterMap Action.op?)
    run.1.reduceOption = plain.1 ∧ run.2.host.sight = plain.2.sight

theorem Index.Alike.transparent {start : Index α} (h : start.Alike start) :
    start.Transparent := by
  intro actions run plain
  obtain ⟨hseen, hend⟩ := watch_simulates (s := { host := start }) h actions
  exact ⟨hseen, hend.sight_eq⟩

/-- Snapshots are transparent, on bags of any size and load share and on sorted
indexes of any key order. -/
theorem run_transparent :
    (∀ capacity load : Nat, Index.Transparent (.bag (.withLoad capacity load) : Index α)) ∧
      ∀ order : KeyOrder α, Index.Transparent (.sorted (.empty order) : Index α) := by
  constructor
  · intro capacity load
    have hwell : (IdentTable.withLoad capacity load : IdentTable α).WellFormed :=
      (IdentTable.wellFormed_withLoad capacity load).1
    exact Index.Alike.transparent (.bag ⟨⟨_, hwell, ⟨0, rfl⟩, 0, rfl⟩, rfl⟩)
  · intro order
    exact Index.Alike.transparent (.sorted ⟨rfl, rfl⟩)

-- The generation of a table is not part of what is seen, since it tells whether a
-- bag was captured when it was cleared.
example :
    let b : Bag Record := ((Bag.withLoad 0 70).insert ⟨⟨1⟩, 0, ⟨1⟩, ""⟩).2
    (Bag.clear b).content.generation = 0 ∧
      (Bag.clear (Tracked.hold b b.snapshot)).content.generation = 1 := by
  decide

end SnapshotIndex
