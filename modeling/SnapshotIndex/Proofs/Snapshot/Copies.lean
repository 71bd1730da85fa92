import SnapshotIndex.Proofs.Snapshot.Counting
import SnapshotIndex.Proofs.Views.Reading

/-!
# What an operation copies

Content is copied when it is changed while it is shared.  After the first edit
it is not shared any more, so that an operation copies once or not at all,
however many edits it makes.

There are two ways to leave a shared version behind: to write to a copy of it,
and to put other content in its place, which is what a `clear` does.  An operation
is `Copied` if it has copied every version that it left; then the count of copies
goes up with the version, and by how much the version goes up is known.  All
operations are like this but those that drop everything at once.

* `Index.copied_perform`, `Index.copies_of_dropsAll`: the operations of the one
  sort and of the other.
* `Index.copies_of_changed`: what a change adds to the count of copies.
* `Index.eq_or_spent`: what is shared can be copied once, and is not shared after
  that.
-/

namespace SnapshotIndex

/-! ## Tracked stores -/

namespace Tracked

variable {σ : Type} {R : σ → σ → Prop} {t u v : Tracked σ} {n : Nat}

theorem copies_edit (t : Tracked σ) (f : σ → σ) :
    (t.edit f).copies = t.copies + t.store.isShared.toNat :=
  t.store.copies_write f

/-- What is dropped is not copied. -/
theorem copies_renew (t : Tracked σ) (emptied : σ → σ) (fresh : σ) :
    (t.renew emptied fresh).copies = t.copies := by
  unfold renew copies
  dsimp only
  split
  · exact t.store.copies_replace fresh
  · rename_i hshared
    rw [t.store.copies_write, Bool.eq_false_iff.mpr hshared]
    rfl

theorem isShared_edit (t : Tracked σ) (f : σ → σ) : (t.edit f).store.isShared = false :=
  t.store.isShared_write f

theorem isShared_renew (t : Tracked σ) (emptied : σ → σ) (fresh : σ) :
    (t.renew emptied fresh).store.isShared = false := by
  unfold renew
  dsimp only
  split
  · exact t.store.isShared_replace fresh
  · exact t.store.isShared_write emptied

namespace Edited

/-- Nothing is shared after an edit. -/
theorem isShared_eq_false (h : t.Edited R n u) (hn : n ≠ 0) : u.store.isShared = false := by
  cases h with
  | none => exact absurd rfl hn
  | edit h hf => exact isShared_edit _ _
  | renew h hemptied hfresh => exact isShared_renew _ _ _

/-- Of all edits only the first one can leave a version behind. -/
theorem version_eq (h : t.Edited R n u) :
    u.store.version = t.store.version + (decide (n ≠ 0) && t.store.isShared).toNat := by
  induction h with
  | none => rfl
  | @edit n u h f hf ih =>
    rw [version_edit]
    rcases Nat.eq_zero_or_pos n with rfl | hpos
    · rw [h.eq_of_zero]
      rfl
    · rw [h.isShared_eq_false (Nat.ne_of_gt hpos), ih, decide_eq_true (Nat.ne_of_gt hpos),
        decide_eq_true (Nat.succ_ne_zero n)]
      rfl
  | @renew n u h emptied fresh hemptied hfresh ih =>
    rw [version_renew]
    rcases Nat.eq_zero_or_pos n with rfl | hpos
    · rw [h.eq_of_zero]
      rfl
    · rw [h.isShared_eq_false (Nat.ne_of_gt hpos), ih, decide_eq_true (Nat.ne_of_gt hpos),
        decide_eq_true (Nat.succ_ne_zero n)]
      rfl

end Edited

/-! ## Versions that are copied when they are left -/

/-- A store that comes from another one by changes that have copied whatever
version they left. -/
def Copied (t u : Tracked σ) : Prop := u.copies + t.store.version = t.copies + u.store.version

namespace Copied

theorem refl (t : Tracked σ) : t.Copied t := rfl

theorem trans (h : t.Copied u) (h' : u.Copied v) : t.Copied v := by
  unfold Copied at *
  omega

theorem edit (t : Tracked σ) (f : σ → σ) : t.Copied (t.edit f) := by
  unfold Copied
  rw [copies_edit, version_edit]
  omega

theorem attempt (t : Tracked σ) (f : σ → Bool × σ) : t.Copied (t.attempt f).2 :=
  .edit t fun content => (f content).2

/-- One copy is made, if there is an edit and the content is shared. -/
theorem copies_eq {size : σ → Nat} (h : t.Copied u) (hedited : t.Directed size n u) :
    u.copies = t.copies + (decide (n ≠ 0) && t.store.isShared).toNat := by
  obtain ⟨R, hedited⟩ := hedited.exists_edited
  have hversion := hedited.version_eq
  unfold Copied at h
  omega

end Copied

end Tracked

/-! ## Sorted indexes -/

/-- Whether a view shows as many elements as there are. -/
def RangeView.Covers {α : Type} [Identified α] (v : RangeView α) (xs : SortedArray α) : Prop :=
  v.size xs = xs.size

/-- A view that shows as many elements as there are shows all of them. -/
theorem Shows.covers_iff {α : Type} [Identified α] {order : KeyOrder α} [Std.TransCmp order.keys]
    {s : SortedIndex α} (h : Shows order s.content s.toList) (v : RangeView α) :
    v.Covers s.content ↔ ∀ a ∈ s.toList, v.inRange order a = true := by
  have hshown : (s.toList.filter (v.inRange order)).length = v.size s.content := by
    rw [← RangeView.length_shown]
    exact h.length_span v
  have hlength : s.toList.length = s.content.size := s.content.length_toList
  unfold RangeView.Covers
  rw [← hshown, ← hlength, List.length_filter_eq_length_iff]

namespace SortedIndex

open Tracked (Copied)

variable {α : Type} (s : SortedIndex α)

theorem copied_removeAt (i : Nat) : s.Copied (s.removeAt i).2 := by
  unfold removeAt
  split
  · exact .edit s _
  · exact .refl s

theorem copied_pollLast : s.Copied s.pollLast.2 := by
  unfold pollLast
  split
  · exact .refl s
  · exact s.copied_removeAt _

theorem copied_retain {σ : Type} (sieve : Sieve σ α) (state : σ) :
    s.Copied (s.retain sieve state).1.2 := by
  rw [s.retain_eq]
  split
  · exact .refl s
  · exact .edit s _

theorem copied_countEach {op : SortedIndex α → α → Bool × SortedIndex α}
    (hop : ∀ (s : SortedIndex α) (a : α), s.Copied (op s a).2) (as : List α) :
    s.Copied (countEach op as s).2 := by
  induction as generalizing s with
  | nil => exact .refl s
  | cons a rest ih =>
    simp only [countEach]
    exact (hop s a).trans (ih (op s a).2)

theorem copied_poll (i? : Option Nat) :
    s.Copied (match i? with
      | none => (none, s)
      | some i => s.removeAt i).2 := by
  cases i? with
  | none => exact .refl s
  | some i => exact s.copied_removeAt i

theorem copies_clear : s.clear.copies = s.copies := by
  unfold clear
  split
  · rfl
  · exact s.copies_renew _ _

variable [Identified α]

/-- The operations that drop all elements at once. -/
def DropsAll (s : SortedIndex α) : SortedOp α → Prop
  | .clear => True
  | .viewClear v => v.Covers s.content
  | _ => False

theorem copied_add (a : α) : s.Copied (s.add a).2 := by
  unfold add
  split
  · exact .refl s
  · exact .edit s _

theorem copied_remove (a : α) : s.Copied (s.remove a).2 := by
  unfold remove
  split
  · exact s.copied_removeAt _
  · exact .refl s

theorem copied_perform {op : SortedOp α} (h : ¬ s.DropsAll op) : s.Copied (s.perform op).2 := by
  cases op with
  | add a => exact s.copied_add a
  | remove a => exact s.copied_remove a
  | pollFirst => exact s.copied_removeAt 0
  | pollLast => exact s.copied_pollLast
  | retain sieve state => exact s.copied_retain sieve state
  | addAll as => exact s.copied_countEach (fun s => s.copied_add) as
  | removeAll as => exact s.copied_countEach (fun s => s.copied_remove) as
  | clear => exact absurd trivial h
  | viewAdd v a =>
    simp only [perform, RangeView.add]
    split
    · exact s.copied_add a
    · exact .refl s
  | viewRemove v a =>
    simp only [perform, RangeView.remove]
    split
    · exact s.copied_remove a
    · exact .refl s
  | viewPollFirst v => exact s.copied_poll (v.firstIndex? s.content)
  | viewPollLast v => exact s.copied_poll (v.lastIndex? s.content)
  | viewClear v =>
    have hpart : (v.span s.content).size ≠ s.size := h
    simp only [perform, RangeView.clear, removeSpan, if_neg hpart]
    split
    · exact .refl s
    · exact .edit s _

theorem copies_of_dropsAll {op : SortedOp α} (h : s.DropsAll op) :
    (s.perform op).2.copies = s.copies := by
  cases op with
  | clear => exact s.copies_clear
  | viewClear v =>
    have hall : (v.span s.content).size = s.size := h
    simp only [perform, RangeView.clear, removeSpan, if_pos hall]
    split
    · rfl
    · exact s.copies_clear
  | _ => exact absurd h id

end SortedIndex

/-! ## Bags -/

namespace Bag

variable {α : Type} (b : Bag α)

theorem copies_clear : b.clear.copies = b.copies := by
  unfold clear
  split
  · rfl
  · exact b.copies_renew _ _

variable [Identified α]

theorem copied_insert (a : α) : b.Copied (b.insert a).2 := by
  unfold insert
  split
  · exact .refl b
  · exact .attempt b _

theorem copied_remove (a : α) : b.Copied (b.remove a).2 := by
  unfold remove
  split
  · exact .attempt b _
  · exact .refl b

end Bag

/-! ## Indexes of either kind -/

namespace Index

variable {α : Type}

/-- Whether a snapshot of the present content is held. -/
def isShared : Index α → Bool
  | bag b => b.store.isShared
  | sorted s => s.store.isShared

/-- An index that comes from one of its kind by changes that have copied whatever
version they left. -/
inductive Copied : Index α → Index α → Prop
  | bag {b c : Bag α} (h : b.Copied c) : Copied (.bag b) (.bag c)
  | sorted {s t : SortedIndex α} (h : s.Copied t) : Copied (.sorted s) (.sorted t)

variable [Identified α]

/-- The operations that drop all elements at once. -/
def DropsAll (i : Index α) : IndexOp α → Prop
  | .clear => True
  | .sorted op => match i with
    | .bag _ => False
    | .sorted s => s.DropsAll op
  | _ => False

variable {i j : Index α} {n : Nat}

theorem copied_perform (i : Index α) {op : IndexOp α} (h : ¬ i.DropsAll op) :
    i.Copied (i.perform op) := by
  cases i with
  | bag b =>
    cases op with
    | insert a => exact .bag (b.copied_insert a)
    | remove a => exact .bag (b.copied_remove a)
    | clear => exact absurd trivial h
    | sorted op => exact .bag (.refl b)
  | sorted s =>
    cases op with
    | insert a => exact .sorted (s.copied_add a)
    | remove a => exact .sorted (s.copied_remove a)
    | clear => exact absurd trivial h
    | sorted op => exact .sorted (s.copied_perform h)

/-- To drop everything costs no copy. -/
theorem copies_of_dropsAll (i : Index α) {op : IndexOp α} (h : i.DropsAll op) :
    (i.perform op).copies = i.copies := by
  cases i with
  | bag b =>
    cases op with
    | clear => exact b.copies_clear
    | _ => exact absurd h id
  | sorted s =>
    cases op with
    | clear => exact s.copies_clear
    | sorted op => exact s.copies_of_dropsAll h
    | _ => exact absurd h id

/-- Nothing is shared after an edit. -/
theorem Edited.isShared_eq_false (h : i.Edited n j) (hn : n ≠ 0) : j.isShared = false := by
  cases h with
  | bag h =>
    obtain ⟨R, hedited⟩ := h.exists_edited
    exact hedited.isShared_eq_false hn
  | sorted h =>
    obtain ⟨R, hedited⟩ := h.exists_edited
    exact hedited.isShared_eq_false hn

theorem Copied.copies_eq (h : i.Copied j) (hedited : i.Edited n j) :
    j.copies = i.copies + (decide (n ≠ 0) && i.isShared).toNat := by
  cases h with
  | bag h =>
    cases hedited with
    | bag hedited => exact h.copies_eq hedited
  | sorted h =>
    cases hedited with
    | sorted hedited => exact h.copies_eq hedited

/-- An operation that changes what is shared, without dropping all of it, makes
one copy. -/
theorem copies_of_changed (h : i.Sound) {op : IndexOp α} (hpart : ¬ i.DropsAll op)
    (hchanged : (i.perform op).toList ≠ i.toList) :
    (i.perform op).copies = i.copies + i.isShared.toNat := by
  obtain ⟨n, -, hedited⟩ := edited_perform h op
  have hn : n ≠ 0 := fun hn => hchanged ((hedited.toList_eq_iff h).mpr hn)
  have hcopies := (i.copied_perform hpart).copies_eq hedited
  rwa [decide_eq_true hn, Bool.true_and] at hcopies

/-- An operation leaves the index as it is, or it leaves nothing shared and has
copied at most what was shared before. -/
theorem eq_or_spent (h : i.Sound) (op : IndexOp α) :
    i.perform op = i ∨ (i.perform op).isShared = false ∧ i.copies ≤ (i.perform op).copies ∧
      (i.perform op).copies ≤ i.copies + i.isShared.toNat := by
  obtain ⟨n, -, hedited⟩ := edited_perform h op
  rcases Nat.eq_zero_or_pos n with rfl | hpos
  · exact .inl hedited.eq_of_zero
  · refine .inr ⟨hedited.isShared_eq_false (Nat.ne_of_gt hpos), ?_⟩
    by_cases hall : i.DropsAll op
    · rw [i.copies_of_dropsAll hall]
      exact ⟨Nat.le_refl _, Nat.le_add_right _ _⟩
    · have hcopies := (i.copied_perform hall).copies_eq hedited
      rw [decide_eq_true (Nat.ne_of_gt hpos), Bool.true_and] at hcopies
      rw [hcopies]
      exact ⟨Nat.le_add_right _ _, Nat.le_refl _⟩

end Index

end SnapshotIndex
