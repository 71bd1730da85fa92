import SnapshotIndex.Proofs.Snapshot.Ledger
import SnapshotIndex.Proofs.Sorted.Performing
import SnapshotIndex.Proofs.Table.Operations

/-!
# Indexes that can be reached

An index is made over a table or over an array, and from then on a session
works on it: it changes the index, through views as well, and captures,
copies, uses and drops what it likes in between.  `Index.after` is the index
after a list of such actions.

An action is a change or it does no more than take snapshots and let them go,
so that whatever these keep holds of every index that can be reached
(`kept_after`).  A bag stays one over a well-formed table (`bag_after`), and a
sorted index one over an array in order (`sorted_after`).
-/

namespace SnapshotIndex

variable {α : Type} [Identified α]

/-- A session on an index after some actions. -/
def Session.after (start : Index α) (actions : List (Action α)) : Session (Index α) α :=
  (runAll Session.act { host := start } actions).2

namespace Index

/-- An index after some actions of a session on it. -/
def after (start : Index α) (actions : List (Action α)) : Index α :=
  (Session.after start actions).host

/-- A bag over a table to which the operations of tables lead. -/
def bagOver (capacity load : Nat) (ops : List (TableOp α)) : Index α :=
  .bag (.of (runAll IdentTable.perform (.withLoad capacity load) ops).2)

/-- A sorted index over an array to which the operations of arrays lead. -/
def sortedOver (order : KeyOrder α) (ops : List (ArrayOp α)) : Index α :=
  .sorted (.of (runAll SortedArray.perform (.empty order) ops).2)

/-! ## What is kept -/

section Kept

variable {P : Index α → Prop} (hhold : ∀ i x, P i → P (i.hold x))
  (hrelease : ∀ i x, P i → P (i.release x))

include hhold hrelease

/-- What changes, captures and drops keep holds of every index that is reached. -/
theorem kept_after (hperform : ∀ i op, P i → P (i.perform op)) {start : Index α} (h : P start)
    (actions : List (Action α)) : P (start.after actions) := by
  let Inv (s : Session (Index α) α) : Prop := P s.host
  have hstep : ∀ s action, Inv s → Inv (s.act action).2 := by
    intro s action hs
    cases hop : action.op? with
    | none => exact (s.recounted_act hop).keeps hhold hrelease hs
    | some op =>
      obtain rfl := action.eq_change_of_op? hop
      exact hperform s.host op hs
  exact runAll_invariant (s := { host := start }) hstep h actions

end Kept

theorem sound_hold {i : Index α} (x : EitherSnapshot α) (h : i.Sound) : (i.hold x).Sound := by
  cases i with
  | bag b =>
    cases x with
    | bag x => exact ⟨Backing.ordered_hold h.1 x, (Tracked.content_hold b x).symm ▸ h.2⟩
    | sorted x => exact h
  | sorted s =>
    cases x with
    | bag x => exact h
    | sorted x => exact Backing.ordered_hold h x

theorem sound_release {i : Index α} (x : EitherSnapshot α) (h : i.Sound) :
    (i.release x).Sound := by
  cases i with
  | bag b =>
    cases x with
    | bag x => exact ⟨Backing.ordered_release h.1 x, (Tracked.content_release b x).symm ▸ h.2⟩
    | sorted x => exact h
  | sorted s =>
    cases x with
    | bag x => exact h
    | sorted x => exact Backing.ordered_release h x

theorem sound_after {start : Index α} (h : start.Sound) (actions : List (Action α)) :
    (start.after actions).Sound :=
  kept_after (fun _ x hi => sound_hold x hi) (fun _ x hi => sound_release x hi)
    (fun _ op hi => (follows_perform hi op).sound) h actions

omit [Identified α] in
@[simp] theorem kind_hold (i : Index α) (x : EitherSnapshot α) : (i.hold x).kind = i.kind := by
  cases i <;> cases x <;> rfl

omit [Identified α] in
@[simp] theorem kind_release (i : Index α) (x : EitherSnapshot α) :
    (i.release x).kind = i.kind := by
  cases i <;> cases x <;> rfl

@[simp] theorem kind_perform (i : Index α) (op : IndexOp α) : (i.perform op).kind = i.kind := by
  cases i <;> cases op <;> rfl

theorem kind_after (start : Index α) (actions : List (Action α)) :
    (start.after actions).kind = start.kind :=
  kept_after (fun i x hi => (i.kind_hold x).trans hi) (fun i x hi => (i.kind_release x).trans hi)
    (fun i op hi => (i.kind_perform op).trans hi) rfl actions

/-! ## Bags -/

theorem sound_bagOver (capacity load : Nat) (ops : List (TableOp α)) :
    (bagOver capacity load ops).Sound :=
  ⟨Backing.ordered_of _, (IdentTable.wellFormed_of_run capacity load ops).1⟩

/-- A bag stays a bag, with a well-formed table. -/
theorem bag_after (capacity load : Nat) (ops : List (TableOp α)) (actions : List (Action α)) :
    ∃ b, (bagOver capacity load ops).after actions = .bag b ∧ b.content.WellFormed := by
  have hsound := sound_after (sound_bagOver capacity load ops) actions
  have hkind := kind_after (bagOver capacity load ops) actions
  cases hi : (bagOver capacity load ops).after actions with
  | bag b =>
    rw [hi] at hsound
    exact ⟨b, rfl, hsound.2⟩
  | sorted s =>
    rw [hi] at hkind
    exact absurd (show Kind.sorted = Kind.bag from hkind) (by decide)

/-! ## Sorted indexes -/

theorem sound_sortedOver (order : KeyOrder α) (ops : List (ArrayOp α)) :
    (sortedOver order ops).Sound :=
  Backing.ordered_of _

/-- A sorted index stays one, whatever its order. -/
theorem exists_sorted_after (order : KeyOrder α) (ops : List (ArrayOp α))
    (actions : List (Action α)) : ∃ s, (sortedOver order ops).after actions = .sorted s := by
  have hkind := kind_after (sortedOver order ops) actions
  cases hi : (sortedOver order ops).after actions with
  | bag b =>
    rw [hi] at hkind
    exact absurd (show Kind.bag = Kind.sorted from hkind) (by decide)
  | sorted s => exact ⟨s, rfl⟩

section Sorted

variable {order : KeyOrder α} [Std.TransCmp order.keys]

/-- A change keeps the elements in order. -/
theorem shows_change {s : SortedIndex α} (h : Shows order s.content s.toList) (op : IndexOp α) :
    ∃ t, (Index.sorted s).perform op = .sorted t ∧ Shows order t.content t.toList := by
  cases op with
  | insert a => exact ⟨_, rfl, (shows_add h a).2.self⟩
  | remove a => exact ⟨_, rfl, (shows_remove h a).2.self⟩
  | clear => exact ⟨_, rfl, (shows_clear h).self⟩
  | sorted op => exact ⟨_, rfl, (shows_perform s _ op h).2.self⟩

theorem shows_arrayRun (ops : List (ArrayOp α)) :
    let c := (runAll SortedArray.perform (SortedArray.empty order) ops).2
    Shows order c c.toList := by
  let Inv (c : SortedArray α) : Prop := Shows order c c.toList
  have hstep : ∀ c op, Inv c → Inv (c.perform op).2 :=
    fun c op h => (shows_performArray c c.toList op h).2.self
  have hstart : Inv (SortedArray.empty order) := shows_empty
  exact runAll_invariant hstep hstart ops

/-- A sorted index stays one, with its elements in order. -/
theorem sorted_after (order : KeyOrder α) [Std.TransCmp order.keys] (ops : List (ArrayOp α))
    (actions : List (Action α)) :
    ∃ s, (sortedOver order ops).after actions = .sorted s ∧ Shows order s.content s.toList := by
  apply kept_after (P := fun i => ∃ s, i = .sorted s ∧ Shows order s.content s.toList)
  · rintro _ x ⟨s, rfl, h⟩
    cases x with
    | bag x => exact ⟨s, rfl, h⟩
    | sorted x =>
      refine ⟨s.hold x, rfl, ?_⟩
      rw [SortedIndex.toList, Tracked.content_hold]
      exact h
  · rintro _ x ⟨s, rfl, h⟩
    cases x with
    | bag x => exact ⟨s, rfl, h⟩
    | sorted x =>
      refine ⟨s.release x, rfl, ?_⟩
      rw [SortedIndex.toList, Tracked.content_release]
      exact h
  · rintro _ op ⟨s, rfl, h⟩
    exact shows_change h op
  · exact ⟨_, rfl, shows_arrayRun ops⟩

/-- What a view shows of an index that is reached is what lies between its bounds. -/
theorem elements?_view (order : KeyOrder α) [Std.TransCmp order.keys] (ops : List (ArrayOp α))
    (actions : List (Action α)) (v : RangeView α) :
    let i := (sortedOver order ops).after actions
    i.elements? (.view v) = some (i.toList.filter (v.inRange order)) := by
  intro i
  obtain ⟨s, hs, hshows⟩ := sorted_after order ops actions
  have hi : i = .sorted s := hs
  rw [hi]
  exact congrArg some (hshows.slice_span v)

end Sorted

end Index

end SnapshotIndex
