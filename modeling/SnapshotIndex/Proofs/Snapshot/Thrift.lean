import SnapshotIndex.Proofs.Snapshot.Copies
import SnapshotIndex.Proofs.Snapshot.Staleness

/-!
# Copies are made when they are needed

To copy the content is needed when it changes while somebody holds a snapshot of
it.  That the index knows whether anybody does is the matter of `Faithful`: its
count of holders is what is kept of it, whether used up or not, and copies of
cursors and of snapshots count as well (`Faithful.isShared_iff`).

Over a run the copies are paid for by captures.  The potential is the count of
copies, and one more if the content is shared: a copy takes from it what it adds
to it, and only a capture raises it (`Faithful.spent_act`).  A copy of something
kept does not, since what it refers to is held before.

* `Faithful.spent_run`: there are at most as many copies as captures, one more if
  something was shared at the beginning.
* `copies_when_needed`: over every run on a bag or on a sorted index.
-/

namespace SnapshotIndex

variable {α : Type}

/-! ## What is held -/

namespace Session

/-- Whether a cursor, a walk or a snapshot that is kept refers to a snapshot. -/
def Holds (s : Session (Index α) α) (x : EitherSnapshot α) : Prop :=
  s.cursors.Has (fun h => h.item.snapshot) x ∨ s.walks.Has (fun h => h.item.snapshot) x ∨
    s.snapshots.Has (fun h => h.item) x

/-- Whether anything that is kept shows the present content. -/
def HoldsCurrent (s : Session (Index α) α) : Prop :=
  ∃ x, s.Holds x ∧ s.host.isCurrent x = true

theorem tally_pos_iff (s : Session (Index α) α) (x : EitherSnapshot α) :
    0 < s.tally x ↔ s.Holds x := by
  unfold Holds tally
  rw [← Assoc.tally_pos_iff, ← Assoc.tally_pos_iff, ← Assoc.tally_pos_iff]
  omega

section Keep

variable {s : Session (Index α) α} {name : String} {x : EitherSnapshot α}

theorem holds_keepCursor {held : Held (EitherCursor α)} (h : (s.keepCursor name held).Holds x) :
    held.item.snapshot = x ∨ s.Holds x := by
  unfold Holds keepCursor at h
  simp only [cursors_releaseHeld, walks_releaseHeld, snapshots_releaseHeld] at h
  rcases h with hcursor | hothers
  · exact (Assoc.has_insert hcursor).imp id .inl
  · exact .inr (.inr hothers)

theorem holds_keepSnapshot {held : Held (EitherSnapshot α)}
    (h : (s.keepSnapshot name held).Holds x) : held.item = x ∨ s.Holds x := by
  unfold Holds keepSnapshot at h
  simp only [cursors_releaseHeld, walks_releaseHeld, snapshots_releaseHeld] at h
  rcases h with hcursor | hwalk | hsnapshot
  · exact .inr (.inl hcursor)
  · exact .inr (.inr (.inl hwalk))
  · exact (Assoc.has_insert hsnapshot).imp id fun h => .inr (.inr h)

theorem holds_dropCursor (h : (s.dropCursor name).Holds x) : s.Holds x := by
  unfold Holds dropCursor at h
  simp only [cursors_releaseHeld, walks_releaseHeld, snapshots_releaseHeld] at h
  exact h.imp Assoc.has_erase id

theorem holds_dropWalk (h : (s.dropWalk name).Holds x) : s.Holds x := by
  unfold Holds dropWalk at h
  simp only [cursors_releaseHeld, walks_releaseHeld, snapshots_releaseHeld] at h
  exact h.imp id fun h => h.imp Assoc.has_erase id

theorem holds_dropSnapshot (h : (s.dropSnapshot name).Holds x) : s.Holds x := by
  unfold Holds dropSnapshot at h
  simp only [cursors_releaseHeld, walks_releaseHeld, snapshots_releaseHeld] at h
  exact h.imp id fun h => h.imp id Assoc.has_erase

end Keep

end Session

/-! ## Who holds the present content -/

namespace Index

variable {i j : Index α}

theorem isCurrent_iff {x : EitherSnapshot α} : i.isCurrent x = true ↔ x = i.snapshot := by
  constructor
  · intro hcurrent
    cases i with
    | bag b =>
      cases x with
      | bag x =>
        exact congrArg EitherSnapshot.bag (Snapshot.ext (Backing.isCurrent_iff.mp hcurrent))
      | sorted x => exact absurd hcurrent Bool.false_ne_true
    | sorted s =>
      cases x with
      | bag x => exact absurd hcurrent Bool.false_ne_true
      | sorted x =>
        exact congrArg EitherSnapshot.sorted (Snapshot.ext (Backing.isCurrent_iff.mp hcurrent))
  · rintro rfl
    exact i.isCurrent_snapshot

theorem isShared_iff : i.isShared = true ↔ 0 < i.holders i.snapshot := by
  cases i with
  | bag b =>
    change b.store.isShared = true ↔ 0 < b.store.holders b.store.snapshot
    rw [Backing.isShared_iff, Backing.holders_snapshot]
  | sorted s =>
    change s.store.isShared = true ↔ 0 < s.store.holders s.store.snapshot
    rw [Backing.isShared_iff, Backing.holders_snapshot]

theorem copies_hold (i : Index α) (x : EitherSnapshot α) : (i.hold x).copies = i.copies := by
  cases i with
  | bag b =>
    cases x with
    | bag x => exact b.store.copies_hold x
    | sorted x => rfl
  | sorted s =>
    cases x with
    | bag x => rfl
    | sorted x => exact s.store.copies_hold x

theorem copies_release (i : Index α) (x : EitherSnapshot α) :
    (i.release x).copies = i.copies := by
  cases i with
  | bag b =>
    cases x with
    | bag x => exact b.store.copies_release x
    | sorted x => rfl
  | sorted s =>
    cases x with
    | bag x => rfl
    | sorted x => exact s.store.copies_release x

/-- To take a snapshot or to let one go copies nothing. -/
theorem Recounted.copies_eq (h : i.Recounted j) : j.copies = i.copies :=
  h.keeps (P := fun j => j.copies = i.copies) (fun j x hj => (j.copies_hold x).trans hj)
    (fun j x hj => (j.copies_release x).trans hj) rfl

end Index

variable [Identified α]

/-- The content is shared if anything that is kept shows it. -/
theorem Faithful.isShared_iff {s : Session (Index α) α} {l : Ledger α} (h : Faithful s l) :
    s.host.isShared = true ↔ s.HoldsCurrent := by
  unfold Session.HoldsCurrent
  simp only [Index.isCurrent_iff, exists_eq_right]
  rw [Index.isShared_iff, h.holders_eq, s.tally_pos_iff]

/-! ## Captures -/

/-- Whether an action captures something of a live index.  To copy what is kept
is no capture, nor is it to take the snapshot of a cursor. -/
def Action.captures (live : Index α) : Action α → Bool
  | .cursor _ r => (live.cursor? r).isSome
  | .iterator _ => true
  | .walk _ r => (live.walk? r).isSome
  | .snapshot _ => true
  | _ => false

namespace Session

/-- The number of captures in the course of some actions. -/
def captures (s : Session (Index α) α) : List (Action α) → Nat
  | [] => 0
  | action :: actions => (action.captures s.host).toNat + (s.act action).2.captures actions

/-- A cursor refers to the same snapshot wherever it stands. -/
theorem holds_useCursor {s : Session (Index α) α} {name : String} {use : CursorUse α}
    {x : EitherSnapshot α} (h : (s.useCursor name (EitherCursor.report use)).2.Holds x) :
    s.Holds x := by
  obtain ⟨-, hwalks, hsnapshots⟩ := s.useCursor_others name (EitherCursor.report use)
  let Same (held before : Held (EitherCursor α)) : Prop :=
    held.item.snapshot = before.item.snapshot
  have hrefl : s.cursors.Related Same s.cursors := .refl (R := Same) (fun _ => rfl) _
  have hcursors := related_useCursor hrefl
    (fun _ _ _ hsame _ hbefore => hsame.trans hbefore) name use
  unfold Holds at h
  rwa [hwalks, hsnapshots, hcursors.has_iff] at h

theorem holds_useWalk {s : Session (Index α) α} {name : String} {use : WalkUse}
    {x : EitherSnapshot α} (h : (s.useWalk name (EitherWalk.report use)).2.Holds x) :
    s.Holds x := by
  obtain ⟨-, hcursors, hsnapshots⟩ := s.useWalk_others name (EitherWalk.report use)
  let Same (held before : Held (EitherWalk α)) : Prop :=
    held.item.snapshot = before.item.snapshot
  have hrefl : s.walks.Related Same s.walks := .refl (R := Same) (fun _ => rfl) _
  have hwalks := related_useWalk hrefl (fun _ _ _ hsame hbefore => hsame.trans hbefore) name use
  unfold Holds at h
  rwa [hcursors, hsnapshots, hwalks.has_iff] at h

/-- What is held after an action that neither changes nor captures was held
before. -/
theorem holds_act {s : Session (Index α) α} {action : Action α} (hop : action.op? = none)
    (hcapture : action.captures s.host = false) {x : EitherSnapshot α}
    (h : (s.act action).2.Holds x) : s.Holds x := by
  cases action with
  | change op => exact absurd hop (Option.some_ne_none op)
  | cursor name r =>
    have hnone : s.host.cursor? r = none :=
      Option.not_isSome_iff_eq_none.mp (Bool.eq_false_iff.mp hcapture)
    simpa only [act, hnone] using h
  | iterator name => exact absurd hcapture.symm Bool.false_ne_true
  | walk name r =>
    have hnone : s.host.walk? r = none :=
      Option.not_isSome_iff_eq_none.mp (Bool.eq_false_iff.mp hcapture)
    simpa only [act, hnone] using h
  | snapshot name => exact absurd hcapture.symm Bool.false_ne_true
  | copyCursor source name =>
    simp only [act] at h
    cases hget : s.cursors.get? source with
    | none => rwa [hget] at h
    | some held =>
      rw [hget] at h
      rcases holds_keepCursor h with rfl | hbefore
      · exact .inl ⟨source, congrArg (Option.map _) hget⟩
      · exact hbefore
  | copySnapshot source name =>
    simp only [act] at h
    cases hget : s.snapshots.get? source with
    | none => rwa [hget] at h
    | some held =>
      rw [hget] at h
      rcases holds_keepSnapshot h with rfl | hbefore
      · exact .inr (.inr ⟨source, congrArg (Option.map _) hget⟩)
      · exact hbefore
  | snapshotOf source name =>
    simp only [act] at h
    cases hget : s.cursors.get? source with
    | none => rwa [hget] at h
    | some held =>
      rw [hget] at h
      rcases holds_keepSnapshot h with rfl | hbefore
      · exact .inl ⟨source, congrArg (Option.map _) hget⟩
      · exact hbefore
  | useCursor name use => exact holds_useCursor h
  | useWalk name use => exact holds_useWalk h
  | readSnapshot name => exact h
  | dropCursor name => exact holds_dropCursor h
  | dropWalk name => exact holds_dropWalk h
  | dropSnapshot name => exact holds_dropSnapshot h

end Session

/-! ## What is spent -/

/-- The copies that were made, and the one that the next change has to make. -/
def Index.due (i : Index α) : Nat := i.copies + i.isShared.toNat

namespace Faithful

variable {s : Session (Index α) α} {l : Ledger α}

/-- No copy is made but of what is shared, which it is not afterwards. -/
theorem isShared_of_copied (h : Faithful s l) {action : Action α}
    (hcopied : s.host.copies < (s.act action).2.host.copies) :
    s.host.isShared = true ∧ (s.act action).2.host.isShared = false := by
  cases hop : action.op? with
  | none =>
    rw [(s.recounted_act hop).copies_eq] at hcopied
    exact absurd hcopied (Nat.lt_irrefl _)
  | some op =>
    obtain rfl := action.eq_change_of_op? hop
    change s.host.copies < (s.host.perform op).copies at hcopied
    rcases Index.eq_or_spent h.sound op with hsame | ⟨hfree, -, hcopies⟩
    · rw [hsame] at hcopied
      exact absurd hcopied (Nat.lt_irrefl _)
    · refine ⟨?_, hfree⟩
      by_contra hshared
      rw [Bool.eq_false_iff.mpr hshared] at hcopies
      exact absurd hcopied (Nat.not_lt.mpr hcopies)

/-- Without a capture nothing comes to be shared. -/
theorem isShared_of_act (h : Faithful s l) {action : Action α} (hop : action.op? = none)
    (hcapture : action.captures s.host = false) (hshared : (s.act action).2.host.isShared = true) :
    s.host.isShared = true := by
  obtain ⟨x, hholds, hcurrent⟩ := (faithful_act h action).2.isShared_iff.mp hshared
  rw [(s.recounted_act hop).stamp_eq.2 x] at hcurrent
  exact h.isShared_iff.mpr ⟨x, Session.holds_act hop hcapture hholds, hcurrent⟩

/-- One action: only a capture can make it more that is due. -/
theorem spent_act (h : Faithful s l) (action : Action α) :
    s.host.copies ≤ (s.act action).2.host.copies ∧
      (s.act action).2.host.due ≤ s.host.due + (action.captures s.host).toNat := by
  cases hop : action.op? with
  | some op =>
    obtain rfl := action.eq_change_of_op? hop
    change s.host.copies ≤ (s.host.perform op).copies ∧ (s.host.perform op).due ≤ s.host.due + 0
    rcases Index.eq_or_spent h.sound op with hsame | ⟨hfree, hle, hcopies⟩
    · rw [hsame]
      exact ⟨Nat.le_refl _, Nat.le_refl _⟩
    · refine ⟨hle, ?_⟩
      unfold Index.due
      rw [hfree]
      exact hcopies
  | none =>
    have hcopies := (s.recounted_act hop).copies_eq
    refine ⟨Nat.le_of_eq hcopies.symm, ?_⟩
    unfold Index.due
    rw [hcopies, Nat.add_assoc]
    apply Nat.add_le_add_left
    cases hcapture : action.captures s.host with
    | true => exact Nat.le_add_left_of_le (Bool.toNat_le _)
    | false =>
      cases hshared : (s.act action).2.host.isShared with
      | false => exact Nat.zero_le _
      | true =>
        rw [h.isShared_of_act hop hcapture hshared]
        exact Nat.le_add_right _ _

/-- Over a run there are at most as many copies as captures, and one more if
something was shared at the beginning. -/
theorem spent_run (h : Faithful s l) (actions : List (Action α)) :
    s.host.copies ≤ (runAll Session.act s actions).2.host.copies ∧
      (runAll Session.act s actions).2.host.due ≤ s.host.due + s.captures actions := by
  induction actions generalizing s l with
  | nil => exact ⟨Nat.le_refl _, Nat.le_refl _⟩
  | cons action actions ih =>
    obtain ⟨hle, hdue⟩ := h.spent_act action
    obtain ⟨hrest, hrestDue⟩ := ih (faithful_act h action).2
    refine ⟨Nat.le_trans hle hrest, ?_⟩
    calc (runAll Session.act s (action :: actions)).2.host.due
        ≤ (s.act action).2.host.due + (s.act action).2.captures actions := hrestDue
      _ ≤ s.host.due + (action.captures s.host).toNat + (s.act action).2.captures actions :=
        Nat.add_le_add_right hdue _
      _ = s.host.due + s.captures (action :: actions) := Nat.add_assoc _ _ _

/-- Between two copies there is a capture. -/
theorem captures_pos (h : Faithful s l) {first last : Action α} {between : List (Action α)}
    (hfirst : s.host.copies < (s.act first).2.host.copies)
    (hlast : (runAll Session.act (s.act first).2 between).2.host.copies <
      ((runAll Session.act (s.act first).2 between).2.act last).2.host.copies) :
    0 < (s.act first).2.captures between := by
  have hafter := (faithful_act h first).2
  obtain ⟨l', hbefore⟩ := hafter.run between
  obtain ⟨hle, hdue⟩ := hafter.spent_run between
  -- nothing is shared after the first copy, and something is before the last one
  unfold Index.due at hdue
  rw [(h.isShared_of_copied hfirst).2, (hbefore.isShared_of_copied hlast).1] at hdue
  rw [Bool.toNat_false, Bool.toNat_true] at hdue
  omega

end Faithful

/-! ## Runs -/

/-- The next call copies the content if that is needed. -/
structure Session.CopiesIfNeeded (s : Session (Index α) α) (op : IndexOp α) : Prop where
  /-- A call that changes the elements, without dropping all of them, makes one
  copy if anything that is kept shows the present content. -/
  needed : (s.host.perform op).toList ≠ s.host.toList → s.HoldsCurrent → ¬ s.host.DropsAll op →
    (s.host.perform op).copies = s.host.copies + 1
  /-- Any other call makes none. -/
  spared : (s.host.perform op).toList = s.host.toList ∨ ¬ s.HoldsCurrent ∨ s.host.DropsAll op →
    (s.host.perform op).copies = s.host.copies
  /-- So no call makes more than one, however many elements it is about. -/
  once : (s.host.perform op).copies ≤ s.host.copies + 1

theorem Faithful.copiesIfNeeded {s : Session (Index α) α} {l : Ledger α} (h : Faithful s l)
    (op : IndexOp α) : s.CopiesIfNeeded op where
  needed hchanged hheld hpart := by
    rw [Index.copies_of_changed h.sound hpart hchanged, h.isShared_iff.mpr hheld]
    rfl
  spared hreason := by
    by_cases hsame : (s.host.perform op).toList = s.host.toList
    · rw [(Index.countsExactly_of_sound h.sound op).idle hsame]
    · by_cases hall : s.host.DropsAll op
      · exact s.host.copies_of_dropsAll hall
      · have hnone : ¬ s.HoldsCurrent := (hreason.resolve_left hsame).resolve_right hall
        have hfree : s.host.isShared = false :=
          Bool.eq_false_iff.mpr fun hshared => hnone (h.isShared_iff.mp hshared)
        rw [Index.copies_of_changed h.sound hall hsame, hfree]
        rfl
  once := by
    rcases Index.eq_or_spent h.sound op with hsame | ⟨-, -, hcopies⟩
    · rw [hsame]
      exact Nat.le_succ _
    · exact Nat.le_trans hcopies (Nat.add_le_add_left (Bool.toNat_le _) _)

/-- Copies of the content are made when they are needed: over a run that begins
with an index of which nothing is held. -/
structure Index.CopiesWhenNeeded (start : Index α) : Prop where
  calls : ∀ (actions : List (Action α)) (op : IndexOp α),
    (Session.after start actions).CopiesIfNeeded op
  /-- Between two copies there is a capture, so that nothing is copied twice. -/
  never_twice : ∀ (actions between : List (Action α)) (first last : Action α),
    let s := Session.after start actions
    let t := (s.act first).2
    let u := (runAll Session.act t between).2
    s.host.copies < t.host.copies → u.host.copies < (u.act last).2.host.copies →
      0 < t.captures between
  /-- There are at most as many copies as captures. -/
  bounded : ∀ actions : List (Action α),
    (start.after actions).copies ≤ Session.captures { host := start } actions

theorem Faithful.copiesWhenNeeded {start : Index α}
    (h : Faithful { host := start } ({} : Ledger α)) (hfree : start.due = 0) :
    start.CopiesWhenNeeded where
  calls actions op := by
    obtain ⟨l, hl⟩ := h.run actions
    exact hl.copiesIfNeeded op
  never_twice actions between first last hfirst hlast := by
    obtain ⟨l, hl⟩ := h.run actions
    exact hl.captures_pos hfirst hlast
  bounded actions := by
    have hdue := (h.spent_run actions).2
    change _ ≤ start.due + _ at hdue
    rw [hfree, Nat.zero_add] at hdue
    exact Nat.le_trans (Nat.le_add_right _ _) hdue

/-- Copies are made when they are needed and at no other time, over every run on
a bag or on a sorted index, however it has come about. -/
theorem copies_when_needed :
    (∀ (capacity load : Nat) (ops : List (TableOp α)),
      (Index.bagOver capacity load ops).CopiesWhenNeeded) ∧
      ∀ (order : KeyOrder α) (ops : List (ArrayOp α)),
        (Index.sortedOver order ops).CopiesWhenNeeded := by
  refine ⟨fun capacity load ops => ?_, fun order ops => ?_⟩
  · apply Faithful.copiesWhenNeeded _ rfl
    refine faithful_fresh (Index.sound_bagOver capacity load ops) fun x => ?_
    cases x with
    | bag x => exact Backing.holders_of _ x
    | sorted x => rfl
  · apply Faithful.copiesWhenNeeded _ rfl
    refine faithful_fresh (Index.sound_sortedOver order ops) fun x => ?_
    cases x with
    | bag x => rfl
    | sorted x => exact Backing.holders_of _ x

/-- Two elements are added one after the other while a snapshot of the empty
index is held: only the first one costs a copy. -/
example :
    ((Index.sortedOver RecordOrder.key.keyOrder []).after
      [.snapshot "s", .change (.insert ⟨⟨1⟩, 5, ⟨1⟩, ""⟩),
        .change (.insert (⟨⟨2⟩, 3, ⟨1⟩, ""⟩ : Record))]).copies = 1 := by
  decide

end SnapshotIndex
