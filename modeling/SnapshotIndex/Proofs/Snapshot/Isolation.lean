import SnapshotIndex.Element.Record
import SnapshotIndex.Proofs.Run
import SnapshotIndex.Proofs.Snapshot.Reached
import SnapshotIndex.Proofs.Snapshot.Shelves

/-!
# Snapshots are isolated

A session and a ledger report the same of everything that was captured,
whatever happens in between.

`Faithful` is the invariant of the two.  An index counts as many holders of a
snapshot as there are things kept that refer to it (`holders_eq`); so none of
them refers to what the index has let go or is about to change, and each reads
what the ledger wrote down at its capture.

* `Faithful.of_follows`: what is left after a change, a capture or a drop still
  reads the same, provided that the count of holders was kept.
* `faithful_act`: one action, by cases.
* `run_isolated`: over every run on a bag or on a sorted index.
* `views_isolated`: what was captured of a view, said by its bounds.
-/

namespace SnapshotIndex

variable {α κ β : Type}

/-! ## What a session keeps of an index -/

/-- Something kept that refers to a readable snapshot, whose content and the
entry of the ledger belong together. -/
def Index.Keeps (i : Index α) (snapshotOf : κ → EitherSnapshot α)
    (Matches : κ → EitherStore α → β → Prop) (held : Held κ) (entry : β) : Prop :=
  held.owner = 0 ∧
    ∃ content, i.read? (snapshotOf held.item) = some content ∧ Matches held.item content entry

/-- A kept cursor is the one of the ledger. -/
def EitherCursor.Matches [Identified α] (c : EitherCursor α) (content : EitherStore α)
    (entry : Captured α) : Prop :=
  content = entry.content ∧ c.Shows content entry.list

/-- A kept snapshot reads what the ledger wrote down. -/
def EitherSnapshot.Matches (_ : EitherSnapshot α) (content entry : EitherStore α) : Prop :=
  content = entry

/-- The number of things a session keeps that refer to a snapshot. -/
def Session.tally (s : Session (Index α) α) (x : EitherSnapshot α) : Nat :=
  s.cursors.tally (fun h => h.item.snapshot) x + s.walks.tally (fun h => h.item.snapshot) x +
    s.snapshots.tally (fun h => h.item) x

namespace Session

variable (s : Session (Index α) α) (x : EitherSnapshot α)

theorem tally_cursors_le : s.cursors.tally (fun h => h.item.snapshot) x ≤ s.tally x := by
  unfold tally
  omega

theorem tally_walks_le : s.walks.tally (fun h => h.item.snapshot) x ≤ s.tally x := by
  unfold tally
  omega

theorem tally_snapshots_le : s.snapshots.tally (fun h => h.item) x ≤ s.tally x := by
  unfold tally
  omega

end Session

variable [Identified α]

/-- A session keeps what the ledger says. -/
structure Faithful (s : Session (Index α) α) (l : Ledger α) : Prop where
  sound : s.host.Sound
  holders_eq : ∀ x, s.host.holders x = s.tally x
  cursors : s.cursors.Related (s.host.Keeps EitherCursor.snapshot EitherCursor.Matches) l.cursors
  walks : s.walks.Related (s.host.Keeps EitherWalk.snapshot EitherWalk.Shows) l.walks
  snapshots : s.snapshots.Related (s.host.Keeps id EitherSnapshot.Matches) l.snapshots

theorem faithful_fresh {i : Index α} (hsound : i.Sound) (hfree : ∀ x, i.holders x = 0) :
    Faithful { host := i } {} where
  sound := hsound
  holders_eq x := hfree x
  cursors := .empty
  walks := .empty
  snapshots := .empty

namespace Index.Keeps

variable {i j : Index α} {snapshotOf : κ → EitherSnapshot α}
  {Matches : κ → EitherStore α → β → Prop} {held : Held κ} {entry : β}

omit [Identified α] in
theorem mono (h : i.Keeps snapshotOf Matches held entry)
    (hread : j.read? (snapshotOf held.item) = i.read? (snapshotOf held.item)) :
    j.Keeps snapshotOf Matches held entry := by
  obtain ⟨howner, content, hcontent, hmatches⟩ := h
  exact ⟨howner, content, hread.trans hcontent, hmatches⟩

omit [Identified α] in
/-- What is kept can be used, on content that matches the entry. -/
theorem exists_open? {s : Session (Index α) α} (h : s.host.Keeps snapshotOf Matches held entry) :
    ∃ content, s.open? snapshotOf held = some (held.item, content) ∧
      s.host.read? (snapshotOf held.item) = some content ∧ Matches held.item content entry := by
  obtain ⟨howner, content, hread, hmatches⟩ := h
  refine ⟨content, ?_, hread, hmatches⟩
  unfold Session.open? Session.read? Session.index?
  rw [howner]
  change (s.host.read? (snapshotOf held.item)).map _ = _
  rw [hread]
  rfl

end Index.Keeps

/-! ## Changes in what is kept -/

namespace Faithful

variable {s s' : Session (Index α) α} {l l' : Ledger α}

/-- What is left after a change, a capture or a drop reads what it read before,
provided that the index has kept count. -/
theorem of_follows {lost gained : Option (EitherSnapshot α)}
    (hholders : ∀ x, s.host.holders x = s.tally x) (hhost : s.host.Follows lost gained s'.host)
    (htally : ∀ x, s'.tally x + (if lost = some x then 1 else 0) =
      s.tally x + if gained = some x then 1 else 0)
    (hcursors : s'.cursors.Related (s.host.Keeps EitherCursor.snapshot EitherCursor.Matches)
      l'.cursors)
    (hwalks : s'.walks.Related (s.host.Keeps EitherWalk.snapshot EitherWalk.Shows) l'.walks)
    (hsnapshots : s'.snapshots.Related (s.host.Keeps id EitherSnapshot.Matches) l'.snapshots) :
    Faithful s' l' := by
  have hcount : ∀ x, s'.host.holders x = s'.tally x := by
    intro x
    have hadd := hhost.holders_add x
    rw [hholders x, ← htally x] at hadd
    exact Nat.add_right_cancel hadd
  -- whatever is kept is counted, and so it has not been let go
  have hread : ∀ x, 0 < s'.tally x → s'.host.read? x = s.host.read? x := by
    intro x hx
    apply hhost.read?_eq
    rwa [hcount x]
  refine ⟨hhost.sound, hcount, hcursors.mono ?_, hwalks.mono ?_, hsnapshots.mono ?_⟩
  · intro key held entry hget hkeeps
    have hpos := Assoc.tally_pos (f := fun h : Held (EitherCursor α) => h.item.snapshot) hget
    exact hkeeps.mono (hread _ (Nat.lt_of_lt_of_le hpos (s'.tally_cursors_le _)))
  · intro key held entry hget hkeeps
    have hpos := Assoc.tally_pos (f := fun h : Held (EitherWalk α) => h.item.snapshot) hget
    exact hkeeps.mono (hread _ (Nat.lt_of_lt_of_le hpos (s'.tally_walks_le _)))
  · intro key held entry hget hkeeps
    have hpos := Assoc.tally_pos (f := fun h : Held (EitherSnapshot α) => h.item) hget
    exact hkeeps.mono (hread _ (Nat.lt_of_lt_of_le hpos (s'.tally_snapshots_le _)))

end Faithful

/-! ## Reports -/

section Reports

variable {content : EitherStore α}

theorem EitherCursor.Shows.report {c : EitherCursor α} {l : ListCursor α}
    (h : c.Shows content l) (use : CursorUse α) :
    (c.report use content).1 = (l.report use).1 ∧
      (c.report use content).2.Shows content (l.report use).2 ∧
      (c.report use content).2.snapshot = c.snapshot := by
  obtain ⟨hvisited, hafter, hsame⟩ := h.use use
  refine ⟨?_, hafter, hsame⟩
  unfold EitherCursor.report ListCursor.report
  dsimp only
  rw [hvisited, hafter.isValid_eq, hafter.get_eq, hafter.size_eq]

theorem EitherWalk.Shows.report {w : EitherWalk α} {l : ListWalk α} (h : w.Shows content l)
    (use : WalkUse) :
    (w.report use content).1 = (l.report use).1 ∧
      (w.report use content).2.Shows content (l.report use).2 ∧
      (w.report use content).2.snapshot = w.snapshot := by
  obtain ⟨htaken, hafter, hsame⟩ := h.use use
  refine ⟨?_, hafter, hsame⟩
  unfold EitherWalk.report ListWalk.report
  dsimp only
  rw [htaken, hafter.remaining_eq]

end Reports

/-! ## Keeping and dropping -/

omit [Identified α] in
theorem hold_eq (s : Session (Index α) α) (x : EitherSnapshot α) :
    s.hold 0 x = { s with host := s.host.hold x } := rfl

omit [Identified α] in
theorem releaseHeld_eq (s : Session (Index α) α) {snapshotOf : κ → EitherSnapshot α}
    {old : Option (Held κ)} (hold : ∀ h, old = some h → h.owner = 0) :
    s.releaseHeld snapshotOf old =
      { s with host := s.host.letGo (old.map fun h => snapshotOf h.item) } := by
  cases old with
  | none => rfl
  | some held =>
    change s.release held.owner (snapshotOf held.item) = _
    rw [hold held rfl]
    rfl

namespace Faithful

variable {s : Session (Index α) α} {l : Ledger α} {name : String}

omit [Identified α] in
theorem owner_eq {i : Index α} {snapshotOf : κ → EitherSnapshot α}
    {Matches : κ → EitherStore α → β → Prop} {m : Assoc String (Held κ)} {n : Assoc String β}
    (h : m.Related (i.Keeps snapshotOf Matches) n) {held : Held κ}
    (hget : m.get? name = some held) : held.owner = 0 := by
  obtain ⟨entry, -, hkeeps⟩ := h.exists_right hget
  exact hkeeps.1

/-- What is replaced or dropped is counted as a holder before. -/
theorem holders_pos (h : Faithful s l) {m : Assoc String (Held κ)} {f : Held κ → EitherSnapshot α}
    (hpart : ∀ x, m.tally f x ≤ s.tally x) (name : String) (x : EitherSnapshot α)
    (hx : (m.get? name).map f = some x) : 0 < s.host.holders x := by
  rw [h.holders_eq x]
  exact Nat.lt_of_lt_of_le (Assoc.tally_pos_of_map hx) (hpart x)

theorem keepCursor (h : Faithful s l) (name : String) {held : Held (EitherCursor α)}
    {entry : Captured α}
    (hkeeps : s.host.Keeps EitherCursor.snapshot EitherCursor.Matches held entry) :
    Faithful (s.keepCursor name held) { l with cursors := l.cursors.insert name entry } := by
  have hrelated := h.cursors.insert name hkeeps
  obtain ⟨howner, content, hread, -⟩ := hkeeps
  -- the cursor is counted before the one whose name it takes is let go
  unfold Session.keepCursor
  rw [howner, hold_eq, releaseHeld_eq _ fun old hold => owner_eq h.cursors hold]
  have hhost := Index.follows_exchange h.sound hread
    (h.holders_pos s.tally_cursors_le name)
  refine .of_follows h.holders_eq hhost (fun x => ?_) hrelated h.walks h.snapshots
  have := s.cursors.tally_insert (f := fun h => h.item.snapshot) name held x
  simp only [Session.tally, Option.some.injEq]
  omega

theorem keepWalk (h : Faithful s l) (name : String) {held : Held (EitherWalk α)}
    {entry : ListWalk α} (hkeeps : s.host.Keeps EitherWalk.snapshot EitherWalk.Shows held entry) :
    Faithful (s.keepWalk name held) { l with walks := l.walks.insert name entry } := by
  have hrelated := h.walks.insert name hkeeps
  obtain ⟨howner, content, hread, -⟩ := hkeeps
  unfold Session.keepWalk
  rw [howner, hold_eq, releaseHeld_eq _ fun old hold => owner_eq h.walks hold]
  have hhost := Index.follows_exchange h.sound hread
    (h.holders_pos s.tally_walks_le name)
  refine .of_follows h.holders_eq hhost (fun x => ?_) h.cursors hrelated h.snapshots
  have := s.walks.tally_insert (f := fun h => h.item.snapshot) name held x
  simp only [Session.tally, Option.some.injEq]
  omega

theorem keepSnapshot (h : Faithful s l) (name : String) {held : Held (EitherSnapshot α)}
    {entry : EitherStore α} (hkeeps : s.host.Keeps id EitherSnapshot.Matches held entry) :
    Faithful (s.keepSnapshot name held) { l with snapshots := l.snapshots.insert name entry } := by
  have hrelated := h.snapshots.insert name hkeeps
  obtain ⟨howner, content, hread, -⟩ := hkeeps
  unfold Session.keepSnapshot
  rw [howner, hold_eq, releaseHeld_eq _ fun old hold => owner_eq h.snapshots hold]
  have hhost := Index.follows_exchange h.sound hread
    (h.holders_pos s.tally_snapshots_le name)
  refine .of_follows h.holders_eq hhost (fun x => ?_) h.cursors h.walks hrelated
  have := s.snapshots.tally_insert (f := fun h => h.item) name held x
  simp only [Session.tally, Option.some.injEq, id]
  omega

theorem dropCursor (h : Faithful s l) (name : String) :
    Faithful (s.dropCursor name) { l with cursors := l.cursors.erase name } := by
  unfold Session.dropCursor
  rw [releaseHeld_eq _ fun old hold => owner_eq h.cursors hold]
  have hhost := Index.follows_letGo h.sound (h.holders_pos s.tally_cursors_le name)
  refine .of_follows h.holders_eq hhost (fun x => ?_) (h.cursors.erase name) h.walks h.snapshots
  have := s.cursors.tally_erase (f := fun h => h.item.snapshot) name x
  simp only [Session.tally, reduceCtorEq, if_false]
  omega

theorem dropWalk (h : Faithful s l) (name : String) :
    Faithful (s.dropWalk name) { l with walks := l.walks.erase name } := by
  unfold Session.dropWalk
  rw [releaseHeld_eq _ fun old hold => owner_eq h.walks hold]
  have hhost := Index.follows_letGo h.sound (h.holders_pos s.tally_walks_le name)
  refine .of_follows h.holders_eq hhost (fun x => ?_) h.cursors (h.walks.erase name) h.snapshots
  have := s.walks.tally_erase (f := fun h => h.item.snapshot) name x
  simp only [Session.tally, reduceCtorEq, if_false]
  omega

theorem dropSnapshot (h : Faithful s l) (name : String) :
    Faithful (s.dropSnapshot name) { l with snapshots := l.snapshots.erase name } := by
  unfold Session.dropSnapshot
  rw [releaseHeld_eq _ fun old hold => owner_eq h.snapshots hold]
  have hhost := Index.follows_letGo h.sound (h.holders_pos s.tally_snapshots_le name)
  refine .of_follows h.holders_eq hhost (fun x => ?_) h.cursors h.walks (h.snapshots.erase name)
  have := s.snapshots.tally_erase (f := fun h => h.item) name x
  simp only [Session.tally, reduceCtorEq, if_false]
  omega

/-! ## Capturing -/

theorem captureCursor (h : Faithful s l) (name : String) {c : EitherCursor α} {entry : ListCursor α}
    (hsame : c.snapshot = s.host.snapshot) (hshows : c.Shows s.host.content entry) :
    Faithful (s.keepCursor name ⟨0, c, true⟩)
      { l with cursors := l.cursors.insert name ⟨entry, s.host.content⟩ } := by
  apply h.keepCursor
  refine ⟨rfl, s.host.content, ?_, rfl, hshows⟩
  rw [hsame, Index.read?_snapshot]

theorem captureWalk (h : Faithful s l) (name : String) {w : EitherWalk α} {entry : ListWalk α}
    (hsame : w.snapshot = s.host.snapshot) (hshows : w.Shows s.host.content entry) :
    Faithful (s.keepWalk name ⟨0, w, true⟩) { l with walks := l.walks.insert name entry } := by
  apply h.keepWalk
  refine ⟨rfl, s.host.content, ?_, hshows⟩
  rw [hsame, Index.read?_snapshot]

theorem captureSnapshot (h : Faithful s l) (name : String) :
    Faithful (s.keepSnapshot name ⟨0, s.host.snapshot, true⟩)
      { l with snapshots := l.snapshots.insert name s.host.content } := by
  apply h.keepSnapshot
  exact ⟨rfl, s.host.content, s.host.read?_snapshot, rfl⟩

/-! ## Changing and using -/

theorem change (h : Faithful s l) (op : IndexOp α) :
    Faithful (s.change 0 fun i => ((), i.perform op)).2 l :=
  .of_follows h.holders_eq (Index.follows_perform h.sound op) (fun _ => rfl) h.cursors h.walks
    h.snapshots

theorem useCursor (h : Faithful s l) (name : String) (use : CursorUse α) :
    (s.useCursor name (EitherCursor.report use)).1 = (l.useCursor name use).1 ∧
      Faithful (s.useCursor name (EitherCursor.report use)).2 (l.useCursor name use).2 := by
  unfold Session.useCursor Ledger.useCursor Session.cursor?
  cases hget : s.cursors.get? name with
  | none =>
    rw [h.cursors.eq_none hget]
    exact ⟨rfl, h⟩
  | some held =>
    obtain ⟨entry, hentry, hkeeps⟩ := h.cursors.exists_right hget
    obtain ⟨content, hopen, hread, rfl, hshows⟩ := hkeeps.exists_open?
    obtain ⟨hreport, hafter, hsame⟩ := hshows.report use
    rw [hentry, Option.bind_some, hopen]
    -- the index does not notice, because the cursor refers to the same snapshot as before
    refine ⟨congrArg some hreport, .of_follows h.holders_eq (.refl h.sound) (fun x => ?_) ?_
      h.walks h.snapshots⟩
    · unfold Session.tally
      rw [Assoc.tally_modify hget hsame]
    · apply h.cursors.modify hget hentry
      exact ⟨hkeeps.1, entry.content, hsame ▸ hread, rfl, hafter⟩

theorem useWalk (h : Faithful s l) (name : String) (use : WalkUse) :
    (s.useWalk name (EitherWalk.report use)).1 = (l.useWalk name use).1 ∧
      Faithful (s.useWalk name (EitherWalk.report use)).2 (l.useWalk name use).2 := by
  unfold Session.useWalk Ledger.useWalk Session.walk?
  cases hget : s.walks.get? name with
  | none =>
    rw [h.walks.eq_none hget]
    exact ⟨rfl, h⟩
  | some held =>
    obtain ⟨entry, hentry, hkeeps⟩ := h.walks.exists_right hget
    obtain ⟨content, hopen, hread, hshows⟩ := hkeeps.exists_open?
    obtain ⟨hreport, hafter, hsame⟩ := hshows.report use
    rw [hentry, Option.bind_some, hopen]
    refine ⟨congrArg some hreport, .of_follows h.holders_eq (.refl h.sound) (fun x => ?_)
      h.cursors ?_ h.snapshots⟩
    · unfold Session.tally
      rw [Assoc.tally_modify hget hsame]
    · apply h.walks.modify hget hentry
      exact ⟨hkeeps.1, content, hsame ▸ hread, hafter⟩

theorem snapshot?_eq (h : Faithful s l) (name : String) :
    s.snapshot? name = l.snapshots.get? name := by
  unfold Session.snapshot?
  cases hget : s.snapshots.get? name with
  | none =>
    rw [h.snapshots.eq_none hget]
    rfl
  | some held =>
    obtain ⟨entry, hentry, hkeeps⟩ := h.snapshots.exists_right hget
    obtain ⟨content, hopen, -, rfl⟩ := hkeeps.exists_open?
    rw [hentry, Option.bind_some, hopen]
    rfl

end Faithful

/-! ## Runs -/

/-- One action: the session and the ledger report the same, and the session
keeps what the ledger says. -/
theorem faithful_act {s : Session (Index α) α} {l : Ledger α} (h : Faithful s l)
    (action : Action α) :
    (s.act action).1 = (l.act s.host action).1 ∧
      Faithful (s.act action).2 (l.act s.host action).2 := by
  cases action with
  | change op => exact ⟨rfl, h.change op⟩
  | cursor name r =>
    have hcapture := Index.shows_cursor? h.sound r
    simp only [Session.act, Ledger.act]
    generalize s.host.cursor? r = c, s.host.listCursor? r = entry at hcapture ⊢
    cases hcapture with
    | none => exact ⟨rfl, h⟩
    | some hcursor =>
      obtain ⟨hsame, hshows⟩ := hcursor
      exact ⟨rfl, h.captureCursor name hsame hshows⟩
  | iterator name =>
    obtain ⟨hsame, hshows⟩ := Index.shows_iterator h.sound
    exact ⟨rfl, h.captureCursor name hsame hshows⟩
  | walk name r =>
    have hcapture := Index.shows_walk? h.sound r
    simp only [Session.act, Ledger.act]
    generalize s.host.walk? r = w, s.host.listWalk? r = entry at hcapture ⊢
    cases hcapture with
    | none => exact ⟨rfl, h⟩
    | some hwalk =>
      obtain ⟨hsame, hshows⟩ := hwalk
      exact ⟨rfl, h.captureWalk name hsame hshows⟩
  | snapshot name => exact ⟨rfl, h.captureSnapshot name⟩
  | copyCursor source name =>
    simp only [Session.act, Ledger.act]
    cases hget : s.cursors.get? source with
    | none =>
      rw [h.cursors.eq_none hget]
      exact ⟨rfl, h⟩
    | some held =>
      obtain ⟨entry, hentry, hkeeps⟩ := h.cursors.exists_right hget
      rw [hentry]
      exact ⟨rfl, h.keepCursor name hkeeps⟩
  | copySnapshot source name =>
    simp only [Session.act, Ledger.act]
    cases hget : s.snapshots.get? source with
    | none =>
      rw [h.snapshots.eq_none hget]
      exact ⟨rfl, h⟩
    | some held =>
      obtain ⟨entry, hentry, hkeeps⟩ := h.snapshots.exists_right hget
      rw [hentry]
      exact ⟨rfl, h.keepSnapshot name hkeeps⟩
  | snapshotOf source name =>
    simp only [Session.act, Ledger.act]
    cases hget : s.cursors.get? source with
    | none =>
      rw [h.cursors.eq_none hget]
      exact ⟨rfl, h⟩
    | some held =>
      obtain ⟨entry, hentry, howner, content, hread, rfl, -⟩ := h.cursors.exists_right hget
      rw [hentry]
      exact ⟨rfl, h.keepSnapshot name ⟨howner, entry.content, hread, rfl⟩⟩
  | useCursor name use => exact h.useCursor name use
  | useWalk name use => exact h.useWalk name use
  | readSnapshot name => exact ⟨congrArg (Option.map Report.content) (h.snapshot?_eq name), h⟩
  | dropCursor name => exact ⟨rfl, h.dropCursor name⟩
  | dropWalk name => exact ⟨rfl, h.dropWalk name⟩
  | dropSnapshot name => exact ⟨rfl, h.dropSnapshot name⟩

/-- After every run a session keeps what some ledger says. -/
theorem Faithful.run {s : Session (Index α) α} {l : Ledger α} (h : Faithful s l)
    (actions : List (Action α)) : ∃ l', Faithful (runAll Session.act s actions).2 l' := by
  let Inv (s : Session (Index α) α) : Prop := ∃ l, Faithful s l
  have hstep : ∀ s action, Inv s → Inv (s.act action).2 :=
    fun s action ⟨l, h⟩ => ⟨_, (faithful_act h action).2⟩
  exact runAll_invariant hstep ⟨l, h⟩ actions

theorem faithful_bag (capacity load : Nat) :
    Faithful { host := .bag (.withLoad capacity load) } ({} : Ledger α) :=
  faithful_fresh ⟨Backing.ordered_of _, (IdentTable.wellFormed_withLoad capacity load).1⟩
    fun x => by
      cases x with
      | bag x => exact Backing.holders_of _ x
      | sorted x => rfl

theorem faithful_sorted (order : KeyOrder α) :
    Faithful { host := .sorted (.empty order) } ({} : Ledger α) :=
  faithful_fresh (Backing.ordered_of _) fun x => by
    cases x with
    | bag x => rfl
    | sorted x => exact Backing.holders_of _ x

theorem reports_eq {s : Session (Index α) α} {l : Ledger α} (h : Faithful s l)
    (actions : List (Action α)) :
    ∀ reports ∈ (runAll actBeside (s, l) actions).1, reports.1 = reports.2 := by
  have hrun := @runAll_answers _ _ _ actBeside (fun x => Faithful x.1 x.2)
    (fun reports : Option (Report α) × Option (Report α) => reports.1 = reports.2)
    (fun _ action hx => faithful_act hx action) (s, l)
  exact hrun h actions

/-- Snapshots are isolated.  Over every run on a bag or on a sorted index, with
changes, captures, uses, copies and drops in any order, what is reported of
everything captured is what the ledger says, which has seen nothing of the
index since the capture. -/
theorem run_isolated :
    (∀ (capacity load : Nat) (actions : List (Action α)),
      let start : Session (Index α) α := { host := .bag (.withLoad capacity load) }
      ∀ reports ∈ (runAll actBeside (start, {}) actions).1, reports.1 = reports.2) ∧
      ∀ (order : KeyOrder α) (actions : List (Action α)),
        let start : Session (Index α) α := { host := .sorted (.empty order) }
        ∀ reports ∈ (runAll actBeside (start, {}) actions).1, reports.1 = reports.2 :=
  ⟨fun capacity load actions => reports_eq (faithful_bag capacity load) actions,
    fun order actions => reports_eq (faithful_sorted order) actions⟩

/-- A walk goes on with what was left of its range, although the index has been
cleared since. -/
example :
    (runAll Session.act { host := .sorted (.empty RecordOrder.key.keyOrder) }
      [.change (.insert ⟨⟨1⟩, 5, ⟨1⟩, ""⟩), .change (.insert ⟨⟨2⟩, 3, ⟨1⟩, ""⟩), .walk "w" .whole,
        .useWalk "w" .next, .change .clear, .useWalk "w" .rest]).1.getLast? =
      some (some (.walk [(⟨⟨1⟩, 5, ⟨1⟩, ""⟩ : Record)] 0)) := by
  rfl

/-! ## Views

A ledger writes down what a view shows at the indexes to which its bounds lead.  If
the order is lawful this can be said without indexes: it is what lies between the
bounds at that moment. -/

/-- Whether an action neither uses nor replaces nor drops the cursor or the walk of a
name. -/
def Action.Spares (name : String) : Action α → Prop
  | .cursor other _ | .iterator other | .walk other _ | .copyCursor _ other => other ≠ name
  | .useCursor other _ | .useWalk other _ | .dropCursor other | .dropWalk other => other ≠ name
  | _ => True

namespace Ledger

variable {live : Index α} {r : Range α}

theorem get?_cursors_of_capture (l : Ledger α) (name : String) {c : ListCursor α}
    (h : live.listCursor? r = some c) :
    (l.act live (.cursor name r)).2.cursors.get? name = some ⟨c, live.content⟩ := by
  simp only [act, h, Assoc.get?_insert, if_true]

theorem get?_walks_of_capture (l : Ledger α) (name : String) {w : ListWalk α}
    (h : live.listWalk? r = some w) :
    (l.act live (.walk name r)).2.walks.get? name = some w := by
  simp only [act, h, Assoc.get?_insert, if_true]

/-- An action on other names leaves the cursor and the walk of a name as they are. -/
theorem get?_act {action : Action α} {name : String} (h : action.Spares name)
    (live : Index α) (l : Ledger α) :
    (l.act live action).2.cursors.get? name = l.cursors.get? name ∧
      (l.act live action).2.walks.get? name = l.walks.get? name := by
  cases action with
  | cursor other r =>
    simp only [act]
    split
    · exact ⟨rfl, rfl⟩
    · exact ⟨(Assoc.get?_insert ..).trans (if_neg h), rfl⟩
  | iterator other => exact ⟨(Assoc.get?_insert ..).trans (if_neg h), rfl⟩
  | walk other r =>
    simp only [act]
    split
    · exact ⟨rfl, rfl⟩
    · exact ⟨rfl, (Assoc.get?_insert ..).trans (if_neg h)⟩
  | copyCursor source other =>
    simp only [act]
    split
    · exact ⟨rfl, rfl⟩
    · exact ⟨(Assoc.get?_insert ..).trans (if_neg h), rfl⟩
  | copySnapshot source other =>
    simp only [act]
    split <;> exact ⟨rfl, rfl⟩
  | snapshotOf source other =>
    simp only [act]
    split <;> exact ⟨rfl, rfl⟩
  | useCursor other use =>
    simp only [act, Ledger.useCursor]
    split
    · exact ⟨rfl, rfl⟩
    · exact ⟨(Assoc.get?_modify ..).trans (if_neg h), rfl⟩
  | useWalk other use =>
    simp only [act, Ledger.useWalk]
    split
    · exact ⟨rfl, rfl⟩
    · exact ⟨rfl, (Assoc.get?_modify ..).trans (if_neg h)⟩
  | dropCursor other => exact ⟨(Assoc.get?_erase ..).trans (if_neg h), rfl⟩
  | dropWalk other => exact ⟨rfl, (Assoc.get?_erase ..).trans (if_neg h)⟩
  | _ => exact ⟨rfl, rfl⟩

end Ledger

/-- After actions on other names a session still keeps the cursor and the walk that a
ledger has under a name. -/
theorem Faithful.run_sparing {s : Session (Index α) α} {l : Ledger α} (h : Faithful s l)
    {name : String} {actions : List (Action α)}
    (hspared : ∀ action ∈ actions, action.Spares name) :
    ∃ l' : Ledger α, Faithful (runAll Session.act s actions).2 l' ∧
      l'.cursors.get? name = l.cursors.get? name ∧ l'.walks.get? name = l.walks.get? name := by
  induction actions generalizing s l with
  | nil => exact ⟨l, h, rfl, rfl⟩
  | cons action actions ih =>
    obtain ⟨hhere, hlater⟩ := List.forall_mem_cons.mp hspared
    obtain ⟨-, hnext⟩ := faithful_act h action
    obtain ⟨hcursor, hwalk⟩ := Ledger.get?_act hhere s.host l
    obtain ⟨l', hl', hcursor', hwalk'⟩ := ih hnext hlater
    exact ⟨l', hl', hcursor'.trans hcursor, hwalk'.trans hwalk⟩

/-- What a ledger writes down at a capture it still has after actions on other names. -/
theorem exists_ledger_after {start : Index α} (h : Faithful { host := start } ({} : Ledger α))
    (before : List (Action α)) (capture : Action α) {name : String} {later : List (Action α)}
    (hspared : ∀ action ∈ later, action.Spares name) :
    ∃ l l' : Ledger α, Faithful (Session.after start (before ++ capture :: later)) l' ∧
      l'.cursors.get? name = (l.act (start.after before) capture).2.cursors.get? name ∧
      l'.walks.get? name = (l.act (start.after before) capture).2.walks.get? name := by
  obtain ⟨l, hl⟩ := h.run before
  obtain ⟨-, hcaptured⟩ := faithful_act hl capture
  obtain ⟨l', hl', hcursor, hwalk⟩ := hcaptured.run_sparing hspared
  refine ⟨l, l', ?_, hcursor, hwalk⟩
  rw [Session.after, runAll_append_snd]
  exact hl'

/-- In a lawful order, a walk or a cursor that was captured of a view goes through the
elements that lay between the bounds at its capture, whatever has been done since to
the index and to other captures. -/
theorem views_isolated (order : KeyOrder α) [Std.TransCmp order.keys]
    (before later : List (Action α)) (v : RangeView α) (name : String)
    (hspared : ∀ action ∈ later, action.Spares name) :
    let start : Index α := .sorted (.empty order)
    let live := start.after before
    let between := live.toList.filter (v.inRange order)
    (∀ use,
      ((Session.after start (before ++ .walk name (.view v) :: later)).act (.useWalk name use)).1 =
        some (ListWalk.report ⟨between, v.descending⟩ use).1) ∧
      ∀ use,
        ((Session.after start (before ++ .cursor name (.view v) :: later)).act
            (.useCursor name use)).1 =
          some (ListCursor.report ⟨between, live.numberIn (.view v), .unpositioned⟩ use).1 := by
  intro start live between
  have hfresh : Faithful { host := start } ({} : Ledger α) := faithful_sorted order
  have hshown : live.elements? (.view v) = some between := Index.elements?_view order [] before v
  constructor
  · intro use
    have hwalk : live.listWalk? (.view v) = some ⟨between, v.descending⟩ :=
      congrArg (Option.map _) hshown
    obtain ⟨l, l', hl', -, hkept⟩ :=
      exists_ledger_after hfresh before (.walk name (.view v)) hspared
    have hwritten : l'.walks.get? name = some ⟨between, v.descending⟩ :=
      hkept.trans (l.get?_walks_of_capture name hwalk)
    obtain ⟨hreport, -⟩ := hl'.useWalk name use
    rw [Ledger.useWalk, hwritten] at hreport
    exact hreport
  · intro use
    have hcursor : live.listCursor? (.view v) =
        some ⟨between, live.numberIn (.view v), .unpositioned⟩ :=
      congrArg (Option.map _) hshown
    obtain ⟨l, l', hl', hkept, -⟩ :=
      exists_ledger_after hfresh before (.cursor name (.view v)) hspared
    have hwritten : l'.cursors.get? name =
        some ⟨⟨between, live.numberIn (.view v), .unpositioned⟩, live.content⟩ :=
      hkept.trans (l.get?_cursors_of_capture name hcursor)
    obtain ⟨hreport, -⟩ := hl'.useCursor name use
    rw [Ledger.useCursor, hwritten] at hreport
    exact hreport

end SnapshotIndex
