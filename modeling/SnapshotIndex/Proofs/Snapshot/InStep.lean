import SnapshotIndex.Proofs.Snapshot.Isolation

/-!
# Indexes of two kinds in step

What an index counts, that is changes, copies, versions and holders, depends
on what its callers do and not on what it stores.  So a bag and a sorted index
can go in step: `Backing.InStep` and `Tracked.InStep` compare all counts of two
stores, whose contents are only related by some `R`.  An edit on both sides
keeps them in step, since one of them is shared exactly if the other one is,
and so does holding or releasing snapshots of one version.

`Session.InStep` lifts this to sessions: under each name both keep something,
of versions of one number, or neither does (`inStep_of_capture`).
-/

namespace SnapshotIndex

/-! ## Stores -/

namespace Backing

variable {σ τ : Type} {b : Backing σ} {c : Backing τ} {x : Snapshot σ} {y : Snapshot τ}

/-- Two stores that count alike. -/
structure InStep (b : Backing σ) (c : Backing τ) : Prop where
  version_eq : b.version = c.version
  outstanding_eq : b.outstanding = c.outstanding
  copies_eq : b.copies = c.copies
  past : b.past.Related (fun left right => left.holders = right.holders) c.past

namespace InStep

theorem isShared_eq (h : b.InStep c) : b.isShared = c.isShared := by
  unfold isShared
  rw [h.outstanding_eq]

theorem isCurrent_eq (h : b.InStep c) (hxy : x.version = y.version) :
    b.isCurrent x = c.isCurrent y := by
  unfold isCurrent
  rw [hxy, h.version_eq]

theorem holders_eq (h : b.InStep c) (hxy : x.version = y.version) :
    b.holders x = c.holders y := by
  unfold holders
  rw [h.isCurrent_eq hxy, h.outstanding_eq, hxy, h.past.map_eq y.version]

theorem hold (h : b.InStep c) (hxy : x.version = y.version) : (b.hold x).InStep (c.hold y) := by
  unfold Backing.hold
  rw [h.isCurrent_eq hxy, hxy]
  split
  · exact ⟨h.version_eq, congrArg (· + 1) h.outstanding_eq, h.copies_eq, h.past⟩
  · refine ⟨h.version_eq, h.outstanding_eq, h.copies_eq, h.past.modify_all y.version ?_⟩
    intro left right hsame
    exact congrArg (· + 1) hsame

theorem release (h : b.InStep c) (hxy : x.version = y.version) :
    (b.release x).InStep (c.release y) := by
  unfold Backing.release
  rw [h.isCurrent_eq hxy, h.holders_eq hxy, hxy]
  split
  · exact ⟨h.version_eq, congrArg (· - 1) h.outstanding_eq, h.copies_eq, h.past⟩
  · split
    · exact ⟨h.version_eq, h.outstanding_eq, h.copies_eq, h.past.erase y.version⟩
    · refine ⟨h.version_eq, h.outstanding_eq, h.copies_eq, h.past.modify_all y.version ?_⟩
      intro left right hsame
      exact congrArg (· - 1) hsame

theorem leave (h : b.InStep c) (content : σ) (content' : τ) :
    (b.leave content).InStep (c.leave content') where
  version_eq := congrArg (· + 1) h.version_eq
  outstanding_eq := rfl
  copies_eq := h.copies_eq
  past := by
    unfold Backing.leave
    rw [h.version_eq]
    exact h.past.insert c.version h.outstanding_eq

theorem write (h : b.InStep c) (f : σ → σ) (g : τ → τ) : (b.write f).InStep (c.write g) := by
  unfold Backing.write
  rw [h.isShared_eq]
  split
  · obtain ⟨hversion, houtstanding, hcopies, hpast⟩ := h.leave (f b.content) (g c.content)
    exact ⟨hversion, houtstanding, congrArg (· + 1) hcopies, hpast⟩
  · exact ⟨h.version_eq, h.outstanding_eq, h.copies_eq, h.past⟩

theorem replace (h : b.InStep c) (content : σ) (content' : τ) :
    (b.replace content).InStep (c.replace content') := by
  unfold Backing.replace
  rw [h.isShared_eq]
  split
  · exact h.leave content content'
  · exact ⟨h.version_eq, h.outstanding_eq, h.copies_eq, h.past⟩

end InStep

end Backing

namespace Tracked

variable {σ τ : Type} {R : σ → τ → Prop} {t : Tracked σ} {u : Tracked τ} {x : Snapshot σ}
  {y : Snapshot τ}

/-- Two tracked stores that count alike and whose contents are related. -/
structure InStep (R : σ → τ → Prop) (t : Tracked σ) (u : Tracked τ) : Prop where
  store : t.store.InStep u.store
  changes_eq : t.changes = u.changes
  content : R t.content u.content

theorem InStep.of {content : σ} {content' : τ} (h : R content content') :
    (Tracked.of content).InStep R (Tracked.of content') :=
  ⟨⟨rfl, rfl, rfl, .empty⟩, rfl, h⟩

namespace InStep

theorem hold (h : t.InStep R u) (hxy : x.version = y.version) :
    (t.hold x).InStep R (u.hold y) where
  store := h.store.hold hxy
  changes_eq := h.changes_eq
  content := by
    rw [content_hold, content_hold]
    exact h.content

theorem release (h : t.InStep R u) (hxy : x.version = y.version) :
    (t.release x).InStep R (u.release y) where
  store := h.store.release hxy
  changes_eq := h.changes_eq
  content := by
    rw [content_release, content_release]
    exact h.content

/-- An edit on both sides. -/
theorem edit (h : t.InStep R u) {f : σ → σ} {g : τ → τ} (hfg : R (f t.content) (g u.content)) :
    (t.edit f).InStep R (u.edit g) where
  store := h.store.write f g
  changes_eq := congrArg (· + 1) h.changes_eq
  content := by
    rw [content_edit, content_edit]
    exact hfg

/-- Both sides are emptied in place, or both go on with something fresh. -/
theorem renew (h : t.InStep R u) {f : σ → σ} {g : τ → τ} {fresh : σ} {fresh' : τ}
    (hfg : R (f t.content) (g u.content)) (hfresh : R fresh fresh') :
    (t.renew f fresh).InStep R (u.renew g fresh') where
  store := by
    unfold Tracked.renew
    rw [h.store.isShared_eq]
    dsimp only
    split
    · exact h.store.replace fresh fresh'
    · exact h.store.write f g
  changes_eq := congrArg (· + 1) h.changes_eq
  content := by
    rw [content_renew, content_renew, h.store.isShared_eq]
    split
    · exact hfresh
    · exact hfg

end InStep

end Tracked

/-! ## Indexes -/

variable {α κ : Type} {R : IdentTable α → SortedArray α → Prop}

/-- A snapshot of a bag and one of a sorted index that refer to versions of one
number. -/
inductive EitherSnapshot.Twins : EitherSnapshot α → EitherSnapshot α → Prop
  | of {x : Snapshot (IdentTable α)} {y : Snapshot (SortedArray α)}
    (h : x.version = y.version) : Twins (.bag x) (.sorted y)

/-- A bag and a sorted index that count alike and whose contents are related. -/
inductive Index.InStep (R : IdentTable α → SortedArray α → Prop) : Index α → Index α → Prop
  | of {b : Bag α} {s : SortedIndex α} (h : b.InStep R s) : InStep R (.bag b) (.sorted s)

namespace Index.InStep

variable {i j : Index α} {x y : EitherSnapshot α}

theorem hold (h : i.InStep R j) (hxy : x.Twins y) : (i.hold x).InStep R (j.hold y) := by
  cases h with
  | of h =>
    cases hxy with
    | of hversion => exact .of (h.hold hversion)

theorem release (h : i.InStep R j) (hxy : x.Twins y) : (i.release x).InStep R (j.release y) := by
  cases h with
  | of h =>
    cases hxy with
    | of hversion => exact .of (h.release hversion)

theorem snapshot (h : i.InStep R j) : i.snapshot.Twins j.snapshot := by
  cases h with
  | of h => exact .of h.store.version_eq

variable [Identified α]

theorem cursor (h : i.InStep R j) : i.cursor.snapshot.Twins j.cursor.snapshot := by
  cases h with
  | of h => exact .of h.store.version_eq

theorem iterator (h : i.InStep R j) : i.iterator.snapshot.Twins j.iterator.snapshot := by
  cases h with
  | of h => exact .of h.store.version_eq

theorem walk (h : i.InStep R j) : i.walk.snapshot.Twins j.walk.snapshot := by
  cases h with
  | of h => exact .of h.store.version_eq

end Index.InStep

/-! ## Sessions -/

/-- Two things kept under one name, one of each kind of index. -/
def Held.Twins (snapshotOf : κ → EitherSnapshot α) (held held' : Held κ) : Prop :=
  held.owner = 0 ∧ held'.owner = 0 ∧ (snapshotOf held.item).Twins (snapshotOf held'.item)

namespace Held.Twins

variable {snapshotOf : κ → EitherSnapshot α} {held held' : Held κ}

/-- What moves over the same snapshot stays a twin. -/
theorem move_left (h : held.Twins snapshotOf held') {item : κ}
    (hsame : snapshotOf item = snapshotOf held.item) :
    Twins snapshotOf { held with item := item } held' := by
  obtain ⟨howner, howner', htwins⟩ := h
  refine ⟨howner, howner', ?_⟩
  rw [hsame]
  exact htwins

theorem move_right (h : held.Twins snapshotOf held') {item : κ}
    (hsame : snapshotOf item = snapshotOf held'.item) :
    held.Twins snapshotOf { held' with item := item } := by
  obtain ⟨howner, howner', htwins⟩ := h
  refine ⟨howner, howner', ?_⟩
  rw [hsame]
  exact htwins

end Held.Twins

namespace Session

/-- A session on a bag and one on a sorted index that keep the same. -/
structure InStep (R : IdentTable α → SortedArray α → Prop) (s t : Session (Index α) α) : Prop where
  host : s.host.InStep R t.host
  cursors : s.cursors.Related (Held.Twins EitherCursor.snapshot) t.cursors
  walks : s.walks.Related (Held.Twins EitherWalk.snapshot) t.walks
  snapshots : s.snapshots.Related (Held.Twins id) t.snapshots

namespace InStep

variable {s t : Session (Index α) α}

theorem fresh {i j : Index α} (h : i.InStep R j) : InStep R { host := i } { host := j } :=
  ⟨h, .empty, .empty, .empty⟩

theorem hold (h : s.InStep R t) {x y : EitherSnapshot α} (hxy : x.Twins y) :
    (s.hold 0 x).InStep R (t.hold 0 y) :=
  ⟨h.host.hold hxy, h.cursors, h.walks, h.snapshots⟩

/-- What both sides let go of under one name are twins, or it is nothing. -/
theorem releaseHeld (h : s.InStep R t) {snapshotOf : κ → EitherSnapshot α}
    {old old' : Option (Held κ)} (hold : Option.Rel (Held.Twins snapshotOf) old old') :
    (s.releaseHeld snapshotOf old).InStep R (t.releaseHeld snapshotOf old') := by
  cases hold with
  | none => exact h
  | @some held held' hheld =>
    obtain ⟨howner, howner', htwins⟩ := hheld
    unfold Session.releaseHeld Session.release
    dsimp only
    rw [howner, howner']
    exact ⟨h.host.release htwins, h.cursors, h.walks, h.snapshots⟩

theorem keepCursor (h : s.InStep R t) (name : String) {held held' : Held (EitherCursor α)}
    (hheld : held.Twins EitherCursor.snapshot held') :
    (s.keepCursor name held).InStep R (t.keepCursor name held') := by
  obtain ⟨howner, howner', htwins⟩ := hheld
  unfold Session.keepCursor
  rw [howner, howner']
  apply releaseHeld _ (h.cursors name)
  have hhold := h.hold htwins
  exact ⟨hhold.host, h.cursors.insert name ⟨howner, howner', htwins⟩, h.walks, h.snapshots⟩

theorem keepWalk (h : s.InStep R t) (name : String) {held held' : Held (EitherWalk α)}
    (hheld : held.Twins EitherWalk.snapshot held') :
    (s.keepWalk name held).InStep R (t.keepWalk name held') := by
  obtain ⟨howner, howner', htwins⟩ := hheld
  unfold Session.keepWalk
  rw [howner, howner']
  apply releaseHeld _ (h.walks name)
  have hhold := h.hold htwins
  exact ⟨hhold.host, h.cursors, h.walks.insert name ⟨howner, howner', htwins⟩, h.snapshots⟩

theorem keepSnapshot (h : s.InStep R t) (name : String) {held held' : Held (EitherSnapshot α)}
    (hheld : held.Twins id held') :
    (s.keepSnapshot name held).InStep R (t.keepSnapshot name held') := by
  obtain ⟨howner, howner', htwins⟩ := hheld
  unfold Session.keepSnapshot
  rw [howner, howner']
  apply releaseHeld _ (h.snapshots name)
  have hhold := h.hold htwins
  exact ⟨hhold.host, h.cursors, h.walks, h.snapshots.insert name ⟨howner, howner', htwins⟩⟩

theorem dropCursor (h : s.InStep R t) (name : String) :
    (s.dropCursor name).InStep R (t.dropCursor name) := by
  apply releaseHeld _ (h.cursors name)
  exact ⟨h.host, h.cursors.erase name, h.walks, h.snapshots⟩

theorem dropWalk (h : s.InStep R t) (name : String) :
    (s.dropWalk name).InStep R (t.dropWalk name) := by
  apply releaseHeld _ (h.walks name)
  exact ⟨h.host, h.cursors, h.walks.erase name, h.snapshots⟩

theorem dropSnapshot (h : s.InStep R t) (name : String) :
    (s.dropSnapshot name).InStep R (t.dropSnapshot name) := by
  apply releaseHeld _ (h.snapshots name)
  exact ⟨h.host, h.cursors, h.walks, h.snapshots.erase name⟩

variable [Identified α]

/-- Where a cursor stands is of no concern to those who count. -/
theorem useCursor (h : s.InStep R t) (name : String) (use : CursorUse α) :
    (s.useCursor name (EitherCursor.report use)).2.InStep R
      (t.useCursor name (EitherCursor.report use)).2 := by
  obtain ⟨hhost, hwalks, hsnapshots⟩ := s.useCursor_others name (EitherCursor.report use)
  obtain ⟨hhost', hwalks', hsnapshots'⟩ := t.useCursor_others name (EitherCursor.report use)
  refine ⟨?_, ?_, ?_, ?_⟩
  · rw [hhost, hhost']
    exact h.host
  · have hleft := related_useCursor h.cursors
      (fun _ _ _ hsame _ hheld => hheld.move_left hsame) name use
    have hboth := related_useCursor hleft.symm
      (fun _ _ _ hsame _ hheld => hheld.move_right hsame) name use
    exact hboth.symm
  · rw [hwalks, hwalks']
    exact h.walks
  · rw [hsnapshots, hsnapshots']
    exact h.snapshots

theorem useWalk (h : s.InStep R t) (name : String) (use : WalkUse) :
    (s.useWalk name (EitherWalk.report use)).2.InStep R
      (t.useWalk name (EitherWalk.report use)).2 := by
  obtain ⟨hhost, hcursors, hsnapshots⟩ := s.useWalk_others name (EitherWalk.report use)
  obtain ⟨hhost', hcursors', hsnapshots'⟩ := t.useWalk_others name (EitherWalk.report use)
  refine ⟨?_, ?_, ?_, ?_⟩
  · rw [hhost, hhost']
    exact h.host
  · rw [hcursors, hcursors']
    exact h.cursors
  · have hleft := related_useWalk h.walks (fun _ _ _ hsame hheld => hheld.move_left hsame) name use
    have hboth := related_useWalk hleft.symm
      (fun _ _ _ hsame hheld => hheld.move_right hsame) name use
    exact hboth.symm
  · rw [hsnapshots, hsnapshots']
    exact h.snapshots

end InStep

end Session

/-! ## Captures -/

variable [Identified α] {s t : Session (Index α) α}

/-- Whether an action captures no part of an index, which only a sorted one has. -/
def Action.IsWhole : Action α → Prop
  | .cursor _ r => r = .whole
  | .walk _ r => r = .whole
  | _ => True

/-- Captures, copies, uses and drops on both sides keep two sessions in step. -/
theorem inStep_of_capture (h : s.InStep R t) {action : Action α} (hcapture : action.op? = none)
    (hwhole : action.IsWhole) : (s.act action).2.InStep R (t.act action).2 := by
  cases action with
  | change op => exact absurd hcapture (Option.some_ne_none op)
  | cursor name r =>
    obtain rfl : r = .whole := hwhole
    exact h.keepCursor name ⟨rfl, rfl, h.host.cursor⟩
  | iterator name => exact h.keepCursor name ⟨rfl, rfl, h.host.iterator⟩
  | walk name r =>
    obtain rfl : r = .whole := hwhole
    exact h.keepWalk name ⟨rfl, rfl, h.host.walk⟩
  | snapshot name => exact h.keepSnapshot name ⟨rfl, rfl, h.host.snapshot⟩
  | copyCursor source name =>
    simp only [Session.act]
    cases hget : s.cursors.get? source with
    | none =>
      rw [h.cursors.eq_none hget]
      exact h
    | some held =>
      obtain ⟨held', hget', hheld⟩ := h.cursors.exists_right hget
      rw [hget']
      exact h.keepCursor name hheld
  | copySnapshot source name =>
    simp only [Session.act]
    cases hget : s.snapshots.get? source with
    | none =>
      rw [h.snapshots.eq_none hget]
      exact h
    | some held =>
      obtain ⟨held', hget', hheld⟩ := h.snapshots.exists_right hget
      rw [hget']
      exact h.keepSnapshot name hheld
  | snapshotOf source name =>
    simp only [Session.act]
    cases hget : s.cursors.get? source with
    | none =>
      rw [h.cursors.eq_none hget]
      exact h
    | some held =>
      obtain ⟨held', hget', hheld⟩ := h.cursors.exists_right hget
      rw [hget']
      exact h.keepSnapshot name hheld
  | useCursor name use => exact h.useCursor name use
  | useWalk name use => exact h.useWalk name use
  | readSnapshot name => exact h
  | dropCursor name => exact h.dropCursor name
  | dropWalk name => exact h.dropWalk name
  | dropSnapshot name => exact h.dropSnapshot name

end SnapshotIndex
