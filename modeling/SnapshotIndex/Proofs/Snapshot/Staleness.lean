import SnapshotIndex.Proofs.Snapshot.Idle
import SnapshotIndex.Proofs.Snapshot.Isolation

/-!
# Staleness is detected exactly

Whether a snapshot is current is decided by the version of the store that it
refers to, and a cursor tells whether the index has moved on by the count of
changes that it remembers.  The two are kept by different parts of the index,
and both are meant to say the same: that no call since the capture has changed
the elements.

A `Diary` writes down what there is to compare: the elements before and after
every call, and for everything captured its `Date`, that is the count of
changes and the number of calls at the moment of capture.  `Index.Dates` is
what a date says of a snapshot.  A capture is made out on the present date
(`dates_today`), a call keeps the dates of all that is held (`Dates.perform`),
and nothing else that happens touches them.

* `dated_act`: one action, by cases.
* `run_dated`: over every run on a bag or on a sorted index.
-/

namespace SnapshotIndex

variable {α : Type}

/-! ## Diaries -/

/-- The elements of an index before and after a call that may change them. -/
structure Call (α : Type) where
  before : List α
  after : List α

/-- A moment in the life of an index. -/
structure Date where
  /-- The number of changes that the index has counted. -/
  changes : Nat
  /-- The number of calls that were made. -/
  calls : Nat

/-- All calls in order, and the dates of what was captured.  A copy has the
date of what it is a copy of. -/
structure Diary (α : Type) where
  calls : List (Call α) := []
  cursors : Assoc String Date := .empty
  snapshots : Assoc String Date := .empty

namespace Diary

def today (d : Diary α) (live : Index α) : Date := ⟨live.changes, d.calls.length⟩

variable [Identified α]

/-- The diary after an action, when the live index is as given. -/
def note (live : Index α) (d : Diary α) : Action α → Diary α
  | .change op => { d with calls := d.calls ++ [⟨live.toList, (live.perform op).toList⟩] }
  | .cursor name r =>
    match live.cursor? r with
    | none => d
    | some _ => { d with cursors := d.cursors.insert name (d.today live) }
  | .iterator name => { d with cursors := d.cursors.insert name (d.today live) }
  | .snapshot name => { d with snapshots := d.snapshots.insert name (d.today live) }
  | .copyCursor source name =>
    match d.cursors.get? source with
    | none => d
    | some date => { d with cursors := d.cursors.insert name date }
  | .copySnapshot source name =>
    match d.snapshots.get? source with
    | none => d
    | some date => { d with snapshots := d.snapshots.insert name date }
  | .snapshotOf source name =>
    match d.cursors.get? source with
    | none => d
    | some date => { d with snapshots := d.snapshots.insert name date }
  | .dropCursor name => { d with cursors := d.cursors.erase name }
  | .dropSnapshot name => { d with snapshots := d.snapshots.erase name }
  | .walk _ _ | .useCursor _ _ | .useWalk _ _ | .readSnapshot _ | .dropWalk _ => d

end Diary

/-- No call since a date has changed the elements. -/
def QuietSince (calls : List (Call α)) (date : Date) : Prop :=
  ∀ c ∈ calls.drop date.calls, c.before = c.after

/-- What its date says of a snapshot. -/
structure Index.Dates (i : Index α) (calls : List (Call α)) (x : EitherSnapshot α) (date : Date) :
    Prop where
  current_iff_changes : i.isCurrent x = true ↔ i.changes = date.changes
  current_iff_quiet : i.isCurrent x = true ↔ QuietSince calls date
  changes_le : date.changes ≤ i.changes
  calls_le : date.calls ≤ calls.length

/-! ## What happens to a date -/

namespace Index

variable {i j : Index α} {calls : List (Call α)} {x : EitherSnapshot α} {date : Date}

theorem isCurrent_snapshot (i : Index α) : i.isCurrent i.snapshot = true := by
  cases i <;> exact beq_self_eq_true _

theorem dates_today (i : Index α) (d : Diary α) : i.Dates d.calls i.snapshot (d.today i) where
  current_iff_changes := iff_of_true i.isCurrent_snapshot rfl
  current_iff_quiet := by
    refine iff_of_true i.isCurrent_snapshot fun c hc => ?_
    rw [Diary.today, List.drop_length] at hc
    exact absurd hc List.not_mem_nil
  changes_le := Nat.le_refl _
  calls_le := Nat.le_refl _

theorem stamp_hold (i : Index α) (x : EitherSnapshot α) :
    (i.hold x).changes = i.changes ∧ ∀ y, (i.hold x).isCurrent y = i.isCurrent y := by
  cases i with
  | bag b =>
    cases x with
    | bag x =>
      refine ⟨rfl, fun y => ?_⟩
      cases y with
      | bag y => exact congrArg (y.version == ·) (b.store.version_hold x)
      | sorted y => rfl
    | sorted x => exact ⟨rfl, fun _ => rfl⟩
  | sorted s =>
    cases x with
    | bag x => exact ⟨rfl, fun _ => rfl⟩
    | sorted x =>
      refine ⟨rfl, fun y => ?_⟩
      cases y with
      | bag y => rfl
      | sorted y => exact congrArg (y.version == ·) (s.store.version_hold x)

theorem stamp_release (i : Index α) (x : EitherSnapshot α) :
    (i.release x).changes = i.changes ∧ ∀ y, (i.release x).isCurrent y = i.isCurrent y := by
  cases i with
  | bag b =>
    cases x with
    | bag x =>
      refine ⟨rfl, fun y => ?_⟩
      cases y with
      | bag y => exact congrArg (y.version == ·) (b.store.version_release x)
      | sorted y => rfl
    | sorted x => exact ⟨rfl, fun _ => rfl⟩
  | sorted s =>
    cases x with
    | bag x => exact ⟨rfl, fun _ => rfl⟩
    | sorted x =>
      refine ⟨rfl, fun y => ?_⟩
      cases y with
      | bag y => rfl
      | sorted y => exact congrArg (y.version == ·) (s.store.version_release x)

/-- To take a snapshot or to let one go makes no other snapshot stale, and is
no change. -/
theorem Recounted.stamp_eq (h : i.Recounted j) :
    j.changes = i.changes ∧ ∀ y, j.isCurrent y = i.isCurrent y := by
  let Same (j : Index α) : Prop := j.changes = i.changes ∧ ∀ y, j.isCurrent y = i.isCurrent y
  have hhold : ∀ j x, Same j → Same (j.hold x) := by
    rintro j x ⟨hchanges, hcurrent⟩
    obtain ⟨hchanges', hcurrent'⟩ := j.stamp_hold x
    exact ⟨hchanges'.trans hchanges, fun y => (hcurrent' y).trans (hcurrent y)⟩
  have hrelease : ∀ j x, Same j → Same (j.release x) := by
    rintro j x ⟨hchanges, hcurrent⟩
    obtain ⟨hchanges', hcurrent'⟩ := j.stamp_release x
    exact ⟨hchanges'.trans hchanges, fun y => (hcurrent' y).trans (hcurrent y)⟩
  exact h.keeps hhold hrelease ⟨rfl, fun _ => rfl⟩

theorem Dates.of_recounted (h : i.Dates calls x date) (hij : i.Recounted j) :
    j.Dates calls x date := by
  obtain ⟨hchanges, hcurrent⟩ := hij.stamp_eq
  refine ⟨?_, ?_, ?_, h.calls_le⟩
  · rw [hcurrent, hchanges]
    exact h.current_iff_changes
  · rw [hcurrent]
    exact h.current_iff_quiet
  · rw [hchanges]
    exact h.changes_le

variable [Identified α]

/-- A call keeps the date of a snapshot that is held: it changes nothing, or the
snapshot is stale from then on, by the count of changes as well. -/
theorem Dates.perform (h : i.Dates calls x date) (hsound : i.Sound) (hheld : 0 < i.holders x)
    (op : IndexOp α) :
    (i.perform op).Dates (calls ++ [⟨i.toList, (i.perform op).toList⟩]) x date := by
  have hdrop : ∀ c : Call α, (calls ++ [c]).drop date.calls = calls.drop date.calls ++ [c] :=
    fun c => List.drop_append_of_le_length h.calls_le
  have hcalls : date.calls ≤ (calls ++ [(⟨i.toList, (i.perform op).toList⟩ : Call α)]).length := by
    rw [List.length_append]
    exact Nat.le_add_right_of_le h.calls_le
  rcases eq_or_moved hsound op with hidle | hmoved
  · rw [hidle] at hcalls ⊢
    refine ⟨h.current_iff_changes, ?_, h.changes_le, hcalls⟩
    rw [h.current_iff_quiet]
    unfold QuietSince
    rw [hdrop]
    simp only [List.mem_append, List.mem_singleton]
    constructor
    · rintro hquiet c (hc | rfl)
      · exact hquiet c hc
      · rfl
    · exact fun hquiet c hc => hquiet c (.inl hc)
  · have hstale := hmoved.stale x hheld
    have hlater := Nat.lt_of_le_of_lt h.changes_le hmoved.changes_lt
    refine ⟨?_, ?_, Nat.le_of_lt hlater, hcalls⟩
    · rw [hstale]
      exact iff_of_false Bool.false_ne_true (Nat.ne_of_gt hlater)
    · rw [hstale]
      refine iff_of_false Bool.false_ne_true fun hquiet => hmoved.size_ne ?_
      have hsame := hquiet ⟨i.toList, (i.perform op).toList⟩ (by rw [hdrop]; simp)
      rw [← length_toList hsound, ← length_toList (follows_perform hsound op).sound]
      exact congrArg List.length hsame.symm

end Index

/-! ## Sessions -/

/-- What is kept is what its date says, and a cursor remembers the count of
changes at its capture. -/
structure Dated (s : Session (Index α) α) (d : Diary α) : Prop where
  cursors : s.cursors.Related (fun held date =>
    s.host.Dates d.calls held.item.snapshot date ∧ held.item.changes = date.changes) d.cursors
  snapshots : s.snapshots.Related (fun held date => s.host.Dates d.calls held.item date)
    d.snapshots

namespace Dated

variable {s s' : Session (Index α) α} {d d' : Diary α} {date : Date}

/-- Dates stay what they are while snapshots are only taken and let go. -/
theorem of_recounted (hhost : s.host.Recounted s'.host) (hcalls : d'.calls = d.calls)
    (hcursors : s'.cursors.Related (fun held date =>
      s.host.Dates d.calls held.item.snapshot date ∧ held.item.changes = date.changes) d'.cursors)
    (hsnapshots : s'.snapshots.Related (fun held date => s.host.Dates d.calls held.item date)
      d'.snapshots) : Dated s' d' := by
  constructor
  · rw [hcalls]
    refine hcursors.mono ?_
    rintro - held date - ⟨hdates, hchanges⟩
    exact ⟨hdates.of_recounted hhost, hchanges⟩
  · rw [hcalls]
    exact hsnapshots.mono fun _ _ _ _ hdates => hdates.of_recounted hhost

theorem keepCursor (h : Dated s d) (name : String) {held : Held (EitherCursor α)}
    (hdates : s.host.Dates d.calls held.item.snapshot date)
    (hchanges : held.item.changes = date.changes) :
    Dated (s.keepCursor name held) { d with cursors := d.cursors.insert name date } := by
  apply of_recounted (s.recounted_keepCursor name held) rfl
  · rw [Session.keepCursor, Session.cursors_releaseHeld]
    exact h.cursors.insert name ⟨hdates, hchanges⟩
  · rw [Session.keepCursor, Session.snapshots_releaseHeld]
    exact h.snapshots

theorem keepWalk (h : Dated s d) (name : String) (held : Held (EitherWalk α)) :
    Dated (s.keepWalk name held) d := by
  apply of_recounted (s.recounted_keepWalk name held) rfl
  · rw [Session.keepWalk, Session.cursors_releaseHeld]
    exact h.cursors
  · rw [Session.keepWalk, Session.snapshots_releaseHeld]
    exact h.snapshots

theorem keepSnapshot (h : Dated s d) (name : String) {held : Held (EitherSnapshot α)}
    (hdates : s.host.Dates d.calls held.item date) :
    Dated (s.keepSnapshot name held) { d with snapshots := d.snapshots.insert name date } := by
  apply of_recounted (s.recounted_keepSnapshot name held) rfl
  · rw [Session.keepSnapshot, Session.cursors_releaseHeld]
    exact h.cursors
  · rw [Session.keepSnapshot, Session.snapshots_releaseHeld]
    exact h.snapshots.insert name hdates

theorem dropCursor (h : Dated s d) (name : String) :
    Dated (s.dropCursor name) { d with cursors := d.cursors.erase name } := by
  apply of_recounted (Session.recounted_releaseHeld .refl _ _) rfl
  · rw [Session.cursors_releaseHeld]
    exact h.cursors.erase name
  · rw [Session.snapshots_releaseHeld]
    exact h.snapshots

theorem dropWalk (h : Dated s d) (name : String) : Dated (s.dropWalk name) d := by
  apply of_recounted (Session.recounted_releaseHeld .refl _ _) rfl
  · rw [Session.cursors_releaseHeld]
    exact h.cursors
  · rw [Session.snapshots_releaseHeld]
    exact h.snapshots

theorem dropSnapshot (h : Dated s d) (name : String) :
    Dated (s.dropSnapshot name) { d with snapshots := d.snapshots.erase name } := by
  apply of_recounted (Session.recounted_releaseHeld .refl _ _) rfl
  · rw [Session.cursors_releaseHeld]
    exact h.cursors
  · rw [Session.snapshots_releaseHeld]
    exact h.snapshots.erase name

variable [Identified α]

theorem useCursor (h : Dated s d) (name : String) (use : CursorUse α) :
    Dated (s.useCursor name (EitherCursor.report use)).2 d := by
  obtain ⟨hhost, -, hsnapshots⟩ := s.useCursor_others name (EitherCursor.report use)
  constructor
  · rw [hhost]
    refine Session.related_useCursor h.cursors ?_ name use
    rintro held c date hsnapshot hsame ⟨hdates, hchanges⟩
    refine ⟨?_, hsame.trans hchanges⟩
    rw [hsnapshot]
    exact hdates
  · rw [hhost, hsnapshots]
    exact h.snapshots

theorem useWalk (h : Dated s d) (name : String) (use : WalkUse) :
    Dated (s.useWalk name (EitherWalk.report use)).2 d := by
  obtain ⟨hhost, hcursors, hsnapshots⟩ := s.useWalk_others name (EitherWalk.report use)
  constructor
  · rw [hhost, hcursors]
    exact h.cursors
  · rw [hhost, hsnapshots]
    exact h.snapshots

/-- A call keeps the date of everything that is held. -/
theorem change (h : Dated s d) {l : Ledger α} (hfaithful : Faithful s l) (op : IndexOp α) :
    Dated (s.change 0 fun i => ((), i.perform op)).2
      { d with calls := d.calls ++ [⟨s.host.toList, (s.host.perform op).toList⟩] } := by
  constructor
  · refine h.cursors.mono ?_
    rintro name held date hget ⟨hdates, hchanges⟩
    have hheld := hfaithful.holders_pos s.tally_cursors_le name _ (congrArg (Option.map _) hget)
    exact ⟨hdates.perform hfaithful.sound hheld op, hchanges⟩
  · refine h.snapshots.mono ?_
    intro name held date hget hdates
    have hheld := hfaithful.holders_pos s.tally_snapshots_le name _ (congrArg (Option.map _) hget)
    exact hdates.perform hfaithful.sound hheld op

end Dated

variable [Identified α]

/-- A cursor refers to the present content and remembers the present count. -/
theorem Index.stamp_cursor? {i : Index α} {r : Range α} {c : EitherCursor α}
    (h : i.cursor? r = some c) : c.snapshot = i.snapshot ∧ c.changes = i.changes := by
  cases i with
  | bag b =>
    cases r with
    | whole =>
      obtain rfl := Option.some.inj h
      exact ⟨rfl, rfl⟩
    | view v => exact absurd h (Option.some_ne_none c).symm
  | sorted s =>
    cases r <;> obtain rfl := Option.some.inj h <;> exact ⟨rfl, rfl⟩

theorem Index.stamp_iterator (i : Index α) :
    i.iterator.snapshot = i.snapshot ∧ i.iterator.changes = i.changes := by
  cases i <;> exact ⟨rfl, rfl⟩

/-- One action: the diary goes on to say when what is kept was captured. -/
theorem dated_act {s : Session (Index α) α} {d : Diary α} {l : Ledger α} (h : Dated s d)
    (hfaithful : Faithful s l) (action : Action α) :
    Dated (s.act action).2 (d.note s.host action) := by
  cases action with
  | change op => exact h.change hfaithful op
  | cursor name r =>
    simp only [Session.act, Diary.note]
    cases hcursor : s.host.cursor? r with
    | none => exact h
    | some c =>
      obtain ⟨hsnapshot, hchanges⟩ := Index.stamp_cursor? hcursor
      apply h.keepCursor name _ hchanges
      rw [hsnapshot]
      exact s.host.dates_today d
  | iterator name =>
    obtain ⟨hsnapshot, hchanges⟩ := s.host.stamp_iterator
    apply h.keepCursor name _ hchanges
    rw [hsnapshot]
    exact s.host.dates_today d
  | walk name r =>
    simp only [Session.act, Diary.note]
    split
    · exact h
    · exact h.keepWalk name _
  | snapshot name => exact h.keepSnapshot name (s.host.dates_today d)
  | copyCursor source name =>
    simp only [Session.act, Diary.note]
    cases hget : s.cursors.get? source with
    | none =>
      rw [h.cursors.eq_none hget]
      exact h
    | some held =>
      obtain ⟨date, hdate, hdates, hchanges⟩ := h.cursors.exists_right hget
      rw [hdate]
      exact h.keepCursor name hdates hchanges
  | copySnapshot source name =>
    simp only [Session.act, Diary.note]
    cases hget : s.snapshots.get? source with
    | none =>
      rw [h.snapshots.eq_none hget]
      exact h
    | some held =>
      obtain ⟨date, hdate, hdates⟩ := h.snapshots.exists_right hget
      rw [hdate]
      exact h.keepSnapshot name hdates
  | snapshotOf source name =>
    simp only [Session.act, Diary.note]
    cases hget : s.cursors.get? source with
    | none =>
      rw [h.cursors.eq_none hget]
      exact h
    | some held =>
      obtain ⟨date, hdate, hdates, -⟩ := h.cursors.exists_right hget
      rw [hdate]
      exact h.keepSnapshot name hdates
  | useCursor name use => exact h.useCursor name use
  | useWalk name use => exact h.useWalk name use
  | readSnapshot name => exact h
  | dropCursor name => exact h.dropCursor name
  | dropWalk name => exact h.dropWalk name
  | dropSnapshot name => exact h.dropSnapshot name

/-! ## Runs -/

/-- One action of a session, and what the diary notes of it. -/
def actNoted (x : Session (Index α) α × Diary α) (action : Action α) :
    Option (Report α) × Session (Index α) α × Diary α :=
  ((x.1.act action).1, (x.1.act action).2, x.2.note x.1.host action)

/-- Whatever is held is current exactly if the count of changes is what it was
at the capture, and exactly if no call has changed the elements since; of a
cursor it is enough to ask for the count that it remembers.  Operations that
find nothing to do leave the index, and so whatever is current, as it is. -/
structure Session.DetectsStaleness (s : Session (Index α) α) (d : Diary α) : Prop where
  snapshots : s.snapshots.Related (fun held date =>
    (s.isCurrent 0 held = true ↔ s.host.changes = date.changes) ∧
      (s.isCurrent 0 held = true ↔ QuietSince d.calls date)) d.snapshots
  cursors : s.cursors.Related (fun held date =>
    (s.host.isCurrent held.item.snapshot = true ↔ s.host.changes = date.changes) ∧
      (s.host.isCurrent held.item.snapshot = true ↔ QuietSince d.calls date) ∧
      (held.item.changes = s.host.changes ↔ s.host.isCurrent held.item.snapshot = true)) d.cursors
  idle : ∀ op, s.host.Idle op → s.host.perform op = s.host

theorem Dated.detectsStaleness {s : Session (Index α) α} {d : Diary α} {l : Ledger α}
    (h : Dated s d) (hfaithful : Faithful s l) : s.DetectsStaleness d where
  snapshots := by
    refine h.snapshots.mono ?_
    intro name held date hget hdates
    have howner := Faithful.owner_eq hfaithful.snapshots hget
    have hcurrent : s.isCurrent 0 held = s.host.isCurrent held.item := by
      unfold Session.isCurrent
      rw [howner]
      rfl
    rw [hcurrent]
    exact ⟨hdates.current_iff_changes, hdates.current_iff_quiet⟩
  cursors := by
    refine h.cursors.mono ?_
    rintro name held date - ⟨hdates, hchanges⟩
    refine ⟨hdates.current_iff_changes, hdates.current_iff_quiet, ?_⟩
    rw [hchanges, hdates.current_iff_changes]
    exact eq_comm
  idle _ hidle := Index.perform_of_idle hidle

theorem detectsStaleness_run {start : Index α} (h : Faithful { host := start } ({} : Ledger α))
    (actions : List (Action α)) :
    let x := (runAll actNoted ({ host := start }, {}) actions).2
    x.1.DetectsStaleness x.2 := by
  let Inv (x : Session (Index α) α × Diary α) : Prop := Dated x.1 x.2 ∧ ∃ l, Faithful x.1 l
  have hstep : ∀ x action, Inv x → Inv (actNoted x action).2 := by
    rintro x action ⟨hdated, l, hfaithful⟩
    exact ⟨dated_act hdated hfaithful action, _, (faithful_act hfaithful action).2⟩
  have hstart : Inv ({ host := start }, {}) := ⟨⟨.empty, .empty⟩, {}, h⟩
  obtain ⟨hdated, l, hfaithful⟩ := runAll_invariant hstep hstart actions
  exact hdated.detectsStaleness hfaithful

/-- Staleness is detected exactly.  Over every run on a bag or on a sorted
index, with changes through views and captures, uses, copies and drops in any
order, this holds of everything that is still held in the end. -/
theorem run_dated :
    (∀ (capacity load : Nat) (actions : List (Action α)),
      let start : Session (Index α) α := { host := .bag (.withLoad capacity load) }
      let x := (runAll actNoted (start, {}) actions).2
      x.1.DetectsStaleness x.2) ∧
      ∀ (order : KeyOrder α) (actions : List (Action α)),
        let start : Session (Index α) α := { host := .sorted (.empty order) }
        let x := (runAll actNoted (start, {}) actions).2
        x.1.DetectsStaleness x.2 :=
  ⟨fun capacity load actions => detectsStaleness_run (faithful_bag capacity load) actions,
    fun order actions => detectsStaleness_run (faithful_sorted order) actions⟩

end SnapshotIndex
