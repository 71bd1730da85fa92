import Mathlib.Data.List.ReduceOption
import SnapshotIndex.Element.Record
import SnapshotIndex.Proofs.Bag.TableRuns
import SnapshotIndex.Proofs.Table.Renewal

/-!
# Cleared bags are as good as new

A bag that is cleared empties its table, or leaves it to those who hold snapshots
of it and goes on with an empty one.  Either way it is `Ahead` of a new bag: its
table is older, and it has left more versions behind.  Nothing else is different,
and the two go through every run side by side.

There is one difference in what they go through.  The snapshots that were taken
before the bag was cleared do not exist for the new bag, and those that are taken
afterwards are of versions that have other numbers there.  `Interleaved.since`
translates from one bag to the other.

* `Ahead.perform`: the operations, which take the same path on both sides.
* `Ahead.run`: every run, with captures and drops on both sides, and drops of old
  snapshots on one.
* `emptied_as_new`: tables and bags.
-/

namespace SnapshotIndex

open Identified (ident)

/-! ## Snapshots in the eyes of a new store -/

section Since

variable {σ : Type} {s s' : Snapshot σ} {v : Nat}

/-- A snapshot as it is for a store that begins at version `v`, unless it is
older. -/
def Snapshot.since (v : Nat) (s : Snapshot σ) : Option (Snapshot σ) :=
  if v ≤ s.version then some ⟨s.version - v⟩ else none

/-- An event as it is for a store that begins at version `v`, unless it is about an
older snapshot. -/
def Interleaved.since {ω : Type} (v : Nat) : Interleaved σ ω → Option (Interleaved σ ω)
  | act op => some (act op)
  | hold s => (s.since v).map hold
  | release s => (s.since v).map release

theorem Snapshot.version_of_since (h : s.since v = some s') : s.version = s'.version + v := by
  obtain ⟨hle, hsame⟩ := Option.ite_none_right_eq_some.mp h
  obtain rfl := Option.some.inj hsame
  exact (Nat.sub_add_cancel hle).symm

theorem Snapshot.version_lt_of_since (h : s.since v = none) : s.version < v := by
  by_contra hle
  rw [Snapshot.since, if_pos (Nat.le_of_not_lt hle)] at h
  exact Option.some_ne_none _ h

end Since

namespace Tracked

variable {σ : Type}

/-- Nobody holds what an edit leads to. -/
theorem outstanding_edit (t : Tracked σ) (f : σ → σ) : (t.edit f).store.outstanding = 0 :=
  Backing.not_isShared_iff.mp (Bool.eq_false_iff.mp (t.store.isShared_write f))

theorem outstanding_renew (t : Tracked σ) (emptied : σ → σ) (fresh : σ) :
    (t.renew emptied fresh).store.outstanding = 0 := by
  apply Backing.not_isShared_iff.mp
  unfold renew
  dsimp only
  split
  · exact Bool.eq_false_iff.mp (t.store.isShared_replace fresh)
  · exact Bool.eq_false_iff.mp (t.store.isShared_write emptied)

theorem outstanding_hold (t : Tracked σ) (s : Snapshot σ) :
    (t.hold s).store.outstanding =
      if t.isCurrent s then t.store.outstanding + 1 else t.store.outstanding := by
  unfold hold Backing.hold isCurrent
  split <;> rfl

theorem outstanding_release (t : Tracked σ) (s : Snapshot σ) :
    (t.release s).store.outstanding =
      if t.isCurrent s then t.store.outstanding - 1 else t.store.outstanding := by
  unfold release Backing.release isCurrent
  split
  · rfl
  · split <;> rfl

end Tracked

namespace Bag

variable {α : Type}

/-! ## Bags that are ahead -/

/-- A bag that has come about like another one, from a later version on and with an
older table. -/
structure Ahead (b c : Bag α) (v n : Nat) : Prop where
  version_eq : b.store.version = c.store.version + v
  outstanding_eq : b.store.outstanding = c.store.outstanding
  content_eq : b.content = c.content.aged n

namespace Ahead

variable {b c : Bag α} {v n : Nat} {s s' : Snapshot (IdentTable α)}

theorem isShared_eq (h : b.Ahead c v n) : b.store.isShared = c.store.isShared := by
  rw [Backing.isShared, h.outstanding_eq, Backing.isShared]

theorem isCurrent_eq (h : b.Ahead c v n) (hs : s.since v = some s') :
    b.isCurrent s = c.isCurrent s' := by
  have hversion := h.version_eq
  have hsame := Snapshot.version_of_since hs
  rw [Bool.eq_iff_iff, Tracked.isCurrent, Tracked.isCurrent, Backing.isCurrent_iff,
    Backing.isCurrent_iff]
  omega

/-- An old snapshot is of a version that was left behind. -/
theorem not_isCurrent (h : b.Ahead c v n) (hs : s.since v = none) : ¬ b.isCurrent s = true := by
  have hversion := h.version_eq
  have hlt := Snapshot.version_lt_of_since hs
  rw [Tracked.isCurrent, Backing.isCurrent_iff]
  omega

/-! ### Captures and drops -/

theorem hold (h : b.Ahead c v n) (hs : s.since v = some s') :
    Ahead (b.hold s) (c.hold s') v n where
  version_eq := (b.store.version_hold s).trans (h.version_eq.trans
    (congrArg (· + v) (c.store.version_hold s').symm))
  outstanding_eq := by
    rw [Tracked.outstanding_hold, Tracked.outstanding_hold, h.isCurrent_eq hs, h.outstanding_eq]
  content_eq := by
    rw [Tracked.content_hold, Tracked.content_hold]
    exact h.content_eq

theorem release (h : b.Ahead c v n) (hs : s.since v = some s') :
    Ahead (b.release s) (c.release s') v n where
  version_eq := (b.store.version_release s).trans (h.version_eq.trans
    (congrArg (· + v) (c.store.version_release s').symm))
  outstanding_eq := by
    rw [Tracked.outstanding_release, Tracked.outstanding_release, h.isCurrent_eq hs,
      h.outstanding_eq]
  content_eq := by
    rw [Tracked.content_release, Tracked.content_release]
    exact h.content_eq

theorem hold_old (h : b.Ahead c v n) (hs : s.since v = none) : Ahead (b.hold s) c v n where
  version_eq := (b.store.version_hold s).trans h.version_eq
  outstanding_eq := by
    rw [Tracked.outstanding_hold, if_neg (h.not_isCurrent hs)]
    exact h.outstanding_eq
  content_eq := (Tracked.content_hold b s).trans h.content_eq

theorem release_old (h : b.Ahead c v n) (hs : s.since v = none) : Ahead (b.release s) c v n where
  version_eq := (b.store.version_release s).trans h.version_eq
  outstanding_eq := by
    rw [Tracked.outstanding_release, if_neg (h.not_isCurrent hs)]
    exact h.outstanding_eq
  content_eq := (Tracked.content_release b s).trans h.content_eq

/-! ### Operations -/

theorem edit (h : b.Ahead c v n) {f g : IdentTable α → IdentTable α}
    (hsame : f b.content = (g c.content).aged n) : Ahead (b.edit f) (c.edit g) v n where
  version_eq := by
    rw [Tracked.version_edit, Tracked.version_edit, h.version_eq, h.isShared_eq,
      Nat.add_right_comm]
  outstanding_eq := by rw [Tracked.outstanding_edit, Tracked.outstanding_edit]
  content_eq := by
    rw [Tracked.content_edit, Tracked.content_edit]
    exact hsame

/-- An operation that says the same of both tables. -/
theorem attempt (h : b.Ahead c v n) {f g : IdentTable α → Bool × IdentTable α}
    (hsame : f b.content = ((g c.content).1, (g c.content).2.aged n)) :
    (b.attempt f).1 = (c.attempt g).1 ∧ Ahead (b.attempt f).2 (c.attempt g).2 v n := by
  have htold : (f b.content).1 = (g c.content).1 := by rw [hsame]
  have hafter : (f b.content).2 = (g c.content).2.aged n := by rw [hsame]
  have hedit := h.edit (f := fun t => (f t).2) (g := fun t => (g t).2) hafter
  refine ⟨htold, ?_, ?_, ?_⟩
  · rw [Tracked.store_attempt, Tracked.store_attempt]
    exact hedit.version_eq
  · rw [Tracked.store_attempt, Tracked.store_attempt]
    exact hedit.outstanding_eq
  · rw [Tracked.content_attempt, Tracked.content_attempt]
    exact hafter

/-- Both tables are emptied, or both are left behind. -/
theorem clear (h : b.Ahead c v n) : Ahead b.clear c.clear v n := by
  have hempty : b.isEmpty = c.isEmpty := by
    rw [isEmpty, h.content_eq, IdentTable.isEmpty_aged, isEmpty]
  unfold Bag.clear
  rw [hempty]
  split
  · exact h
  · refine ⟨?_, ?_, ?_⟩
    · rw [Tracked.version_renew, Tracked.version_renew, h.version_eq, h.isShared_eq,
        Nat.add_right_comm]
    · rw [Tracked.outstanding_renew, Tracked.outstanding_renew]
    · rw [Tracked.content_renew, Tracked.content_renew, h.isShared_eq, h.content_eq]
      split
      · exact c.content.emptyLike_aged n
      · exact c.content.clear_aged n

variable [Identified α]

theorem insert (h : b.Ahead c v n) (a : α) :
    (b.insert a).1 = (c.insert a).1 ∧ Ahead (b.insert a).2 (c.insert a).2 v n := by
  have hheld : b.contains a = c.contains a := by
    rw [contains, h.content_eq, IdentTable.contains_aged, contains]
  unfold Bag.insert
  rw [hheld]
  split
  · exact ⟨rfl, h⟩
  · exact h.attempt (by rw [h.content_eq, IdentTable.insert_aged])

theorem remove (h : b.Ahead c v n) (a : α) :
    (b.remove a).1 = (c.remove a).1 ∧ Ahead (b.remove a).2 (c.remove a).2 v n := by
  have hheld : b.contains a = c.contains a := by
    rw [contains, h.content_eq, IdentTable.contains_aged, contains]
  unfold Bag.remove
  rw [hheld]
  split
  · exact h.attempt (by rw [h.content_eq, IdentTable.remove_aged])
  · exact ⟨rfl, h⟩

end Ahead

variable [Identified α]

/-! ## Runs -/

/-- What an operation on a bag answers. -/
def answer (b : Bag α) : BagOp α → TableAnswer α
  | .insert a => .changed (b.insert a).1
  | .remove a => .changed (b.remove a).1
  | .clear => .silent

/-- Carries out one operation and looks at it. -/
def watch (b : Bag α) (op : BagOp α) : Outcome α × Bag α :=
  (.of (b.answer op) b.content (b.perform op).content, b.perform op)

/-- What makes a bag as good as a new one, for which its present version is the
first one and whose table is younger by `n` generations. -/
structure AsNew (b fresh : Bag α) (n : Nat) : Prop where
  /-- In every run, with snapshots held and let go in between, the same can be seen
  of every operation. -/
  shown : ∀ events : List (BagEvent α),
    (runAll (Tracked.interleave watch) b events).1.reduceOption =
      (runAll (Tracked.interleave watch) fresh
        (events.filterMap (Interleaved.since b.store.version))).1.reduceOption
  /-- Every run ends in the same table, apart from the generations. -/
  ended : ∀ events : List (BagEvent α),
    (runAll (Tracked.interleave watch) b events).2.content =
      (runAll (Tracked.interleave watch) fresh
        (events.filterMap (Interleaved.since b.store.version))).2.content.aged n

namespace Ahead

variable {b c : Bag α} {v n : Nat} {event : BagEvent α}

theorem perform (h : b.Ahead c v n) (op : BagOp α) :
    b.answer op = c.answer op ∧ Ahead (b.perform op) (c.perform op) v n := by
  cases op with
  | insert a =>
    obtain ⟨hdone, hafter⟩ := h.insert a
    exact ⟨congrArg TableAnswer.changed hdone, hafter⟩
  | remove a =>
    obtain ⟨hdone, hafter⟩ := h.remove a
    exact ⟨congrArg TableAnswer.changed hdone, hafter⟩
  | clear => exact ⟨rfl, h.clear⟩

/-- An event that a new bag knows nothing of cannot be seen. -/
theorem step_old (h : b.Ahead c v n) (hevent : event.since v = none) :
    (b.interleave watch event).1 = none ∧ Ahead (b.interleave watch event).2 c v n := by
  cases event with
  | act op => exact absurd hevent (Option.some_ne_none _)
  | hold s => exact ⟨rfl, h.hold_old (Option.map_eq_none_iff.mp hevent)⟩
  | release s => exact ⟨rfl, h.release_old (Option.map_eq_none_iff.mp hevent)⟩

/-- An event of which a new bag knows looks the same on both sides. -/
theorem step (h : b.Ahead c v n) {event' : BagEvent α} (hevent : event.since v = some event') :
    (b.interleave watch event).1 = (c.interleave watch event').1 ∧
      Ahead (b.interleave watch event).2 (c.interleave watch event').2 v n := by
  cases event with
  | act op =>
    obtain rfl := Option.some.inj hevent
    obtain ⟨hanswer, hafter⟩ := h.perform op
    refine ⟨congrArg some ?_, hafter⟩
    rw [watch, watch, hanswer, hafter.content_eq, h.content_eq, IdentTable.outcome_aged]
  | hold s =>
    obtain ⟨s', hs, rfl⟩ := Option.map_eq_some_iff.mp hevent
    exact ⟨rfl, h.hold hs⟩
  | release s =>
    obtain ⟨s', hs, rfl⟩ := Option.map_eq_some_iff.mp hevent
    exact ⟨rfl, h.release hs⟩

theorem run (h : b.Ahead c v n) (events : List (BagEvent α)) :
    let old := runAll (Tracked.interleave watch) b events
    let new := runAll (Tracked.interleave watch) c (events.filterMap (Interleaved.since v))
    old.1.reduceOption = new.1.reduceOption ∧ Ahead old.2 new.2 v n := by
  induction events generalizing b c with
  | nil => exact ⟨rfl, h⟩
  | cons event events ih =>
    cases hevent : event.since v with
    | none =>
      -- only the older bag takes a step
      obtain ⟨hsilent, hafter⟩ := h.step_old hevent
      obtain ⟨hlater, hend⟩ := ih hafter
      simp only [List.filterMap_cons_none hevent, runAll_cons, hsilent,
        List.reduceOption_cons_of_none]
      exact ⟨hlater, hend⟩
    | some event' =>
      obtain ⟨hseen, hafter⟩ := h.step hevent
      obtain ⟨hlater, hend⟩ := ih hafter
      rw [List.filterMap_cons_some hevent, runAll_cons, runAll_cons, hseen]
      refine ⟨?_, hend⟩
      cases (c.interleave watch event').1 with
      | none => exact hlater
      | some outcome => exact congrArg (outcome :: ·) hlater

theorem asNew (h : b.Ahead c b.store.version n) : b.AsNew c n where
  shown events := (h.run events).1
  ended events := (h.run events).2.content_eq

end Ahead

/-- A bag that has just been cleared is ahead of a new one. -/
theorem ahead_clear (config : Config) (events : List (BagEvent α)) :
    let b := events.foldl undergo (ofConfig config)
    b.isEmpty = false →
      Ahead b.clear (ofConfig config) b.clear.store.version b.clear.content.generation := by
  intro b hfull
  have hclear : b.clear = b.renew IdentTable.clear b.content.emptyLike :=
    if_neg (Bool.eq_false_iff.mp hfull)
  refine ⟨(Nat.zero_add _).symm, ?_, ?_⟩
  · rw [hclear, Tracked.outstanding_renew]
    rfl
  · let fresh : IdentTable α := .withLoad config.bagCapacity config.loadPercent
    exact content_clear_of_emptied (P := fun u => u = fresh.aged u.generation) config
      (IdentTable.emptied_eq config.bagCapacity config.loadPercent) events hfull

end Bag

/-- What is emptied is as good as new.  A table of any age that is emptied in place
or exchanged for an empty one goes through every run like a table that was just made,
and a bag with elements that is cleared, with snapshots of it held as you like, goes
through every run like a bag that was just made; except that the generations go on
from where they were, or from one later. -/
theorem emptied_as_new {α : Type} [Identified α] (capacity load : Nat)
    (history : List (TableOp α)) (config : Config) (events : List (BagEvent α)) :
    (let fresh : IdentTable α := .withLoad capacity load
      let t := (runAll IdentTable.perform fresh history).2
      ∀ u ∈ [t.clear, t.emptyLike], t.generation ≤ u.generation ∧ u.AsNew fresh u.generation) ∧
    (let fresh : Bag α := .ofConfig config
      let b := events.foldl Bag.undergo fresh
      b.isEmpty = false → b.content.generation ≤ b.clear.content.generation ∧
        b.clear.AsNew fresh b.clear.content.generation) := by
  refine ⟨?_, ?_⟩
  · intro fresh t u hu
    obtain ⟨hcleared, hexchanged⟩ := IdentTable.emptied_eq (α := α) capacity load history
    obtain ⟨hcleared_le, hexchanged_le⟩ := t.generation_le_emptied
    have hsome : t.generation ≤ u.generation ∧ u = fresh.aged u.generation := by
      rcases List.mem_cons.mp hu with rfl | hu
      · exact ⟨hcleared_le, hcleared⟩
      · obtain rfl := List.mem_singleton.mp hu
        exact ⟨hexchanged_le, hexchanged⟩
    obtain ⟨hle, haged⟩ := hsome
    refine ⟨hle, ?_⟩
    have hnew := fresh.asNew_aged u.generation
    rwa [← haged] at hnew
  · intro fresh b hfull
    exact ⟨b.generation_le_undergo (.act .clear), (Bag.ahead_clear config events hfull).asNew⟩

/-- Four elements make a table with room for three grow.  It is then emptied, and the
bag that has it is cleared while a snapshot is held. -/
theorem emptied_as_new_grown :
    let a (n : UInt64) : Record := ⟨⟨n⟩, 0, ⟨1⟩, ""⟩
    let history : List (TableOp Record) := [.insert (a 1), .insert (a 2), .insert (a 3),
      .insert (a 4)]
    let config : Config := { bagCapacity := 3, loadPercent := 20 }
    let events : List (BagEvent Record) := [.act (.insert (a 1)), .act (.insert (a 2)),
      .act (.insert (a 3)), .act (.insert (a 4)), .hold ⟨0⟩]
    let t := (runAll IdentTable.perform (.withLoad 3 20) history).2
    let b := events.foldl Bag.undergo (Bag.ofConfig config)
    t.size = 32 ∧ t.clear.AsNew (.withLoad 3 20) 2 ∧
      b.store.isShared = true ∧ b.clear.AsNew (.ofConfig config) 2 := by
  intro a history config events t b
  obtain ⟨htable, hbag⟩ := emptied_as_new 3 20 history config events
  have hfull : b.isEmpty = false := by decide +kernel
  have hgeneration : t.clear.generation = 2 := by decide +kernel
  have hgeneration' : b.clear.content.generation = 2 := by decide +kernel
  have hclear := (htable t.clear List.mem_cons_self).2
  have hcleared := (hbag hfull).2
  rw [hgeneration] at hclear
  exact ⟨by decide +kernel, hclear, by decide +kernel, hgeneration' ▸ hcleared⟩

end SnapshotIndex
