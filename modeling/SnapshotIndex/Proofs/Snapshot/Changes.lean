import SnapshotIndex.Index.Traversal
import SnapshotIndex.Proofs.Snapshot.Edits

/-!
# Changes of an index of which snapshots are held

`IndexOp` are the operations that change an index of either kind.  Each of
them comes down to edits of a tracked store (`edited_perform`), so none disturbs
the holders of a snapshot.

`Index.Follows` lifts the count of holders from stores to indexes: one holder
may have come and another one may have gone in the meantime, or none at all.

* `follows_perform`: an operation leaves all holders as they are.
* `follows_exchange`: one holder comes and another one may go.
-/

namespace SnapshotIndex

/-! ## Bags -/

namespace Bag

variable {α : Type} [Identified α] {b : Bag α}

theorem wellFormed_insert (h : b.content.WellFormed) (a : α) :
    (b.insert a).2.content.WellFormed := by
  unfold insert
  split
  · exact h
  · rw [Tracked.content_attempt]
    exact (h.insert a).1

theorem wellFormed_remove (h : b.content.WellFormed) (a : α) :
    (b.remove a).2.content.WellFormed := by
  unfold remove
  split
  · rw [Tracked.content_attempt]
    exact (h.take (Identified.ident a)).1
  · exact h

theorem wellFormed_clear (h : b.content.WellFormed) : b.clear.content.WellFormed := by
  unfold clear
  split
  · exact h
  · rw [Tracked.content_renew]
    split
    · exact h.emptyLike.1
    · exact h.clear.1

end Bag

/-! ## Indexes of either kind -/

/-- The operations that change an index. -/
inductive IndexOp (α : Type) : Type 1
  | insert (a : α)
  | remove (a : α)
  | clear
  /-- An operation of a sorted index, which a bag does not have. -/
  | sorted (op : SortedOp α)

variable {α : Type} [Identified α]

/-- An index after one operation. -/
def Index.perform (i : Index α) : IndexOp α → Index α
  | .insert a => (i.insert a).2
  | .remove a => (i.remove a).2
  | .clear => i.clear
  | .sorted op => match i with
    | .bag b => .bag b
    | .sorted s => .sorted (s.perform op).2

/-- What an operation answers. -/
def Index.answer (i : Index α) : IndexOp α → SortedAnswer α
  | .insert a => .changed (i.insert a).1
  | .remove a => .changed (i.remove a).1
  | .clear => .silent
  | .sorted op => match i with
    | .bag _ => .silent
    | .sorted s => (s.perform op).1

/-- A bag whose table keeps to its own rules, or any sorted index, whose past is
in order. -/
def Index.Sound : Index α → Prop
  | .bag b => b.store.Ordered ∧ b.content.WellFormed
  | .sorted s => s.store.Ordered

/-- An index that comes from one of its kind by edits in one direction. -/
inductive Index.Edited : Index α → Nat → Index α → Prop
  | bag {b c : Bag α} {n : Nat} (h : b.Directed IdentTable.count n c)
    (hwell : c.content.WellFormed) : Edited (.bag b) n (.bag c)
  | sorted {s t : SortedIndex α} {n : Nat} (h : s.Directed SortedArray.size n t) :
    Edited (.sorted s) n (.sorted t)

/-- How an index goes on from another one after which a snapshot may have lost
a holder and one may have gained a holder: whoever is left holding a snapshot
reads what was read before. -/
structure Index.Follows (i : Index α) (lost gained : Option (EitherSnapshot α)) (j : Index α) :
    Prop where
  sound : j.Sound
  holders_add : ∀ x, j.holders x + (if lost = some x then 1 else 0) =
    i.holders x + (if gained = some x then 1 else 0)
  read?_eq : ∀ x, 0 < j.holders x → j.read? x = i.read? x

namespace Index

variable {i j k : Index α}

theorem Follows.of_bag {b c : Bag α} {lost gained : Option (Snapshot (IdentTable α))}
    (h : b.store.Follows lost gained c.store) (hwell : c.content.WellFormed) :
    (bag b).Follows (lost.map .bag) (gained.map .bag) (bag c) where
  sound := ⟨h.ordered, hwell⟩
  holders_add x := by
    cases x with
    | bag x => simpa [holders, Tracked.holders] using h.holders_add x
    | sorted x => simp [holders]
  read?_eq x hx := by
    cases x with
    | bag x => exact congrArg (Option.map EitherStore.bag) (h.read?_eq x hx)
    | sorted x => rfl

theorem Follows.of_sorted {s t : SortedIndex α} {lost gained : Option (Snapshot (SortedArray α))}
    (h : s.store.Follows lost gained t.store) :
    (sorted s).Follows (lost.map .sorted) (gained.map .sorted) (sorted t) where
  sound := h.ordered
  holders_add x := by
    cases x with
    | bag x => simp [holders]
    | sorted x => simpa [holders, Tracked.holders] using h.holders_add x
  read?_eq x hx := by
    cases x with
    | bag x => rfl
    | sorted x => exact congrArg (Option.map EitherStore.sorted) (h.read?_eq x hx)

theorem Follows.refl (h : i.Sound) : i.Follows none none i := ⟨h, fun _ => rfl, fun _ _ => rfl⟩

/-! ## Operations as edits -/

/-- Every operation edits an index in one direction, and answers how often. -/
theorem edited_perform (h : i.Sound) (op : IndexOp α) :
    ∃ n, (i.answer op).Tells n ∧ i.Edited n (i.perform op) := by
  cases i with
  | bag b =>
    obtain ⟨-, hwell⟩ := h
    cases op with
    | insert a =>
      have hedited := Bag.edited_insert hwell a
      exact ⟨_, .changed _, .bag (.inl hedited) (b.wellFormed_insert hwell a)⟩
    | remove a =>
      have hedited := Bag.edited_remove hwell a
      exact ⟨_, .changed _, .bag (.inr hedited) (b.wellFormed_remove hwell a)⟩
    | clear => exact ⟨_, .silent _, .bag (.inr Bag.edited_clear) (b.wellFormed_clear hwell)⟩
    | sorted op => exact ⟨0, .silent false, .bag (.inl .none) hwell⟩
  | sorted s =>
    cases op with
    | insert a => exact ⟨_, .changed _, .sorted (.inl (s.edited_add a))⟩
    | remove a => exact ⟨_, .changed _, .sorted (.inr (s.edited_remove a))⟩
    | clear => exact ⟨_, .silent _, .sorted (.inr s.edited_clear)⟩
    | sorted op =>
      obtain ⟨n, htells, hedited⟩ := s.edited_perform op
      exact ⟨n, htells, .sorted hedited⟩

namespace Edited

variable {n : Nat}

theorem changes_eq (h : i.Edited n j) : j.changes = i.changes + n := by
  cases h with
  | bag h =>
    obtain ⟨R, hedited⟩ := h.exists_edited
    exact hedited.changes_eq
  | sorted h =>
    obtain ⟨R, hedited⟩ := h.exists_edited
    exact hedited.changes_eq

theorem eq_of_zero (h : i.Edited 0 j) : j = i := by
  cases h with
  | bag h =>
    obtain ⟨R, hedited⟩ := h.exists_edited
    exact congrArg Index.bag hedited.eq_of_zero
  | sorted h =>
    obtain ⟨R, hedited⟩ := h.exists_edited
    exact congrArg Index.sorted hedited.eq_of_zero

theorem size_ne (h : i.Edited n j) (hn : n ≠ 0) : j.size ≠ i.size := by
  cases h with
  | bag h => exact h.size_ne hn
  | sorted h => exact h.size_ne hn

/-- No snapshot that is held is current after an edit. -/
theorem stale (h : i.Edited n j) (hn : n ≠ 0) (hsound : i.Sound) {x : EitherSnapshot α}
    (hheld : 0 < i.holders x) : j.isCurrent x = false := by
  cases h with
  | bag h =>
    obtain ⟨R, hedited⟩ := h.exists_edited
    cases x with
    | bag x => exact hedited.stale hn hsound.1 hheld
    | sorted x => rfl
  | sorted h =>
    obtain ⟨R, hedited⟩ := h.exists_edited
    cases x with
    | bag x => rfl
    | sorted x => exact hedited.stale hn hsound hheld

/-- Edits disturb nobody who holds a snapshot. -/
theorem follows (h : i.Edited n j) (hsound : i.Sound) : i.Follows none none j := by
  cases h with
  | bag h hwell =>
    obtain ⟨R, hedited⟩ := h.exists_edited
    exact .of_bag (hedited.undisturbed hsound.1).follows hwell
  | sorted h =>
    obtain ⟨R, hedited⟩ := h.exists_edited
    exact .of_sorted (hedited.undisturbed hsound).follows

end Edited

/-- No operation disturbs the holders of a snapshot. -/
theorem follows_perform (h : i.Sound) (op : IndexOp α) : i.Follows none none (i.perform op) := by
  obtain ⟨n, -, hedited⟩ := edited_perform h op
  exact hedited.follows h

/-! ## Holders that come and go -/

theorem follows_hold (h : i.Sound) {x : EitherSnapshot α} {content : EitherStore α}
    (hread : i.read? x = some content) : i.Follows none (some x) (i.hold x) := by
  cases i with
  | bag b =>
    cases x with
    | bag x =>
      obtain ⟨t, ht, -⟩ := Option.map_eq_some_iff.mp hread
      have hstore : b.store.Follows none (some x) (b.hold x).store := Backing.follows_hold h.1 ht
      have hwell : (b.hold x).content.WellFormed := by
        rw [Tracked.content_hold]
        exact h.2
      exact .of_bag hstore hwell
    | sorted x => exact absurd hread (by simp [read?])
  | sorted s =>
    cases x with
    | bag x => exact absurd hread (by simp [read?])
    | sorted x =>
      obtain ⟨xs, hxs, -⟩ := Option.map_eq_some_iff.mp hread
      have hstore : s.store.Follows none (some x) (s.hold x).store := Backing.follows_hold h hxs
      exact .of_sorted hstore

theorem follows_release (h : i.Sound) {x : EitherSnapshot α} (hheld : 0 < i.holders x) :
    i.Follows (some x) none (i.release x) := by
  cases i with
  | bag b =>
    cases x with
    | bag x =>
      have hstore : b.store.Follows (some x) none (b.release x).store :=
        Backing.follows_release h.1 hheld
      have hwell : (b.release x).content.WellFormed := by
        rw [Tracked.content_release]
        exact h.2
      exact .of_bag hstore hwell
    | sorted x => exact absurd hheld (Nat.lt_irrefl 0)
  | sorted s =>
    cases x with
    | bag x => exact absurd hheld (Nat.lt_irrefl 0)
    | sorted x =>
      have hstore : s.store.Follows (some x) none (s.release x).store :=
        Backing.follows_release h hheld
      exact .of_sorted hstore

/-- Counts one holder less, if one is given. -/
def letGo (i : Index α) : Option (EitherSnapshot α) → Index α
  | none => i
  | some x => i.release x

theorem follows_letGo (h : i.Sound) {lost : Option (EitherSnapshot α)}
    (hheld : ∀ x, lost = some x → 0 < i.holders x) : i.Follows lost none (i.letGo lost) := by
  cases lost with
  | none => exact .refl h
  | some x => exact follows_release h (hheld x rfl)

/-- One holder comes and another one may go. -/
theorem follows_exchange (h : i.Sound) {lost : Option (EitherSnapshot α)} {x : EitherSnapshot α}
    {content : EitherStore α} (hread : i.read? x = some content)
    (hheld : ∀ y, lost = some y → 0 < i.holders y) :
    i.Follows lost (some x) ((i.hold x).letGo lost) := by
  have hcome := follows_hold h hread
  have hcount : ∀ y, (i.hold x).holders y = i.holders y + if some x = some y then 1 else 0 := by
    intro y
    have := hcome.holders_add y
    rwa [if_neg (Option.some_ne_none y).symm] at this
  have hgo : (i.hold x).Follows lost none ((i.hold x).letGo lost) := by
    refine follows_letGo hcome.sound fun y hy => ?_
    have := hheld y hy
    rw [hcount y]
    omega
  refine ⟨hgo.sound, fun y => ?_, fun y hy => ?_⟩
  · calc ((i.hold x).letGo lost).holders y + (if lost = some y then 1 else 0)
        = (i.hold x).holders y := by
          rw [hgo.holders_add y, if_neg (Option.some_ne_none y).symm, Nat.add_zero]
      _ = i.holders y + if some x = some y then 1 else 0 := hcount y
  · -- who is left after the exchange was there before the release
    have hbefore : 0 < (i.hold x).holders y := by
      have := hgo.holders_add y
      rw [if_neg (Option.some_ne_none y).symm] at this
      omega
    rw [hgo.read?_eq y hy, hcome.read?_eq y hbefore]

end Index

end SnapshotIndex
