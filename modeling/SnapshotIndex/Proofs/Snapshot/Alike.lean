import SnapshotIndex.Proofs.Snapshot.Changes
import SnapshotIndex.Proofs.Table.Generations

/-!
# Indexes that differ in their snapshots alone

Two indexes are `Alike` if one cannot tell them apart without asking for their
snapshots: they have seen as many changes and hold the same, except that the
tables of two bags may be of different generations.

An operation takes another path when a snapshot is held.  It then copies the
content before it changes it, or it leaves the content behind and goes on with
an empty one instead of emptying it.  On alike indexes it gives the same answer
whichever path it takes, and leaves them alike.

* `SortedIndex.alike_perform`: every operation of a sorted index.
* `Bag.alike_insert`, `Bag.alike_remove`, `Bag.alike_clear`: those of a bag.
* `Index.Alike.perform`, `Index.Alike.sight_eq`: indexes of either kind, and all
  that can be seen of them.
-/

namespace SnapshotIndex

open Identified (ident)

/-! ## Tracked stores -/

namespace Tracked

variable {σ : Type} {same : σ → σ → Prop} {t u : Tracked σ}

/-- Two stores with as many changes and with the same content, in some sense of
sameness. -/
structure Alike (same : σ → σ → Prop) (t u : Tracked σ) : Prop where
  content : same t.content u.content
  changes_eq : t.changes = u.changes

namespace Alike

theorem edit (h : t.Alike same u) {f g : σ → σ} (hsame : same (f t.content) (g u.content)) :
    (t.edit f).Alike same (u.edit g) where
  content := by
    rw [content_edit, content_edit]
    exact hsame
  changes_eq := by rw [changes_edit, changes_edit, h.changes_eq]

/-- Operations that say the same and lead to the same content. -/
theorem attempt (h : t.Alike same u) {f g : σ → Bool × σ}
    (htold : (f t.content).1 = (g u.content).1)
    (hsame : same (f t.content).2 (g u.content).2) :
    (t.attempt f).1 = (u.attempt g).1 ∧ (t.attempt f).2.Alike same (u.attempt g).2 := by
  refine ⟨htold, ?_, ?_⟩
  · rw [content_attempt, content_attempt]
    exact hsame
  · simp only [Tracked.attempt, htold, h.changes_eq]

/-- To drop everything is the same by either path, if what is emptied in place
and what takes its place are the same. -/
theorem renew (h : t.Alike same u) {emptied : σ → σ} {fresh fresh' : σ}
    (hplace : same (emptied t.content) (emptied u.content))
    (hleft : same fresh (emptied u.content)) (hright : same (emptied t.content) fresh')
    (hboth : same fresh fresh') : (t.renew emptied fresh).Alike same (u.renew emptied fresh') where
  content := by
    rw [content_renew, content_renew]
    split
    · split
      · exact hboth
      · exact hleft
    · split
      · exact hright
      · exact hplace
  changes_eq := by rw [changes_renew, changes_renew, h.changes_eq]

theorem hold (h : t.Alike same u) (s : Snapshot σ) : (t.hold s).Alike same u where
  content := by
    rw [content_hold]
    exact h.content
  changes_eq := h.changes_eq

theorem release (h : t.Alike same u) (s : Snapshot σ) : (t.release s).Alike same u where
  content := by
    rw [content_release]
    exact h.content
  changes_eq := h.changes_eq

end Alike

end Tracked

/-! ## Sorted indexes -/

namespace SortedIndex

variable {α : Type} {s t : SortedIndex α}

theorem alike_clear (h : s.Alike Eq t) : s.clear.Alike Eq t.clear := by
  have hempty : s.isEmpty = t.isEmpty := congrArg SortedArray.isEmpty h.content
  have horder : s.order = t.order := congrArg SortedArray.order h.content
  have hemptied : s.content.clear = t.content.clear := congrArg SortedArray.clear h.content
  unfold clear
  rw [hempty]
  split
  · exact h
  · -- an array emptied in place is an empty array of the same order
    refine h.renew hemptied ?_ ?_ (congrArg _ horder)
    · rw [horder]
      rfl
    · rw [← horder]
      rfl

theorem alike_removeAt (h : s.Alike Eq t) (i : Nat) :
    (s.removeAt i).1 = (t.removeAt i).1 ∧ (s.removeAt i).2.Alike Eq (t.removeAt i).2 := by
  unfold removeAt size
  rw [h.content]
  split
  · exact ⟨rfl, h.edit (by rw [h.content])⟩
  · exact ⟨rfl, h⟩

theorem alike_removeSpan (h : s.Alike Eq t) (span : Span) :
    (s.removeSpan span).Alike Eq (t.removeSpan span) := by
  have hsize : s.size = t.size := congrArg SortedArray.size h.content
  unfold removeSpan
  rw [hsize]
  split
  · exact h
  · split
    · exact alike_clear h
    · exact h.edit (by rw [h.content])

theorem alike_pollLast (h : s.Alike Eq t) :
    s.pollLast.1 = t.pollLast.1 ∧ s.pollLast.2.Alike Eq t.pollLast.2 := by
  have hsize : s.size = t.size := congrArg SortedArray.size h.content
  unfold pollLast
  rw [hsize]
  split
  · exact ⟨rfl, h⟩
  · exact alike_removeAt h _

theorem alike_retain {σ : Type} (h : s.Alike Eq t) (sieve : Sieve σ α) (state : σ) :
    (s.retain sieve state).1.1 = (t.retain sieve state).1.1 ∧
      (s.retain sieve state).2 = (t.retain sieve state).2 ∧
      (s.retain sieve state).1.2.Alike Eq (t.retain sieve state).1.2 := by
  have hlist : s.toList = t.toList := congrArg SortedArray.toList h.content
  have hsize : s.size = t.size := congrArg SortedArray.size h.content
  rw [s.retain_eq, t.retain_eq, hlist, hsize]
  split
  · exact ⟨rfl, rfl, h⟩
  · exact ⟨rfl, rfl, h.edit (by rw [h.content])⟩

theorem alike_countEach {op : SortedIndex α → α → Bool × SortedIndex α}
    (hop : ∀ {s t : SortedIndex α} (a : α), s.Alike Eq t →
      (op s a).1 = (op t a).1 ∧ (op s a).2.Alike Eq (op t a).2)
    (as : List α) (h : s.Alike Eq t) :
    (countEach op as s).1 = (countEach op as t).1 ∧
      (countEach op as s).2.Alike Eq (countEach op as t).2 := by
  induction as generalizing s t with
  | nil => exact ⟨rfl, h⟩
  | cons a rest ih =>
    obtain ⟨hdone, hnext⟩ := hop a h
    obtain ⟨hcount, hend⟩ := ih hnext
    simp only [countEach]
    rw [hdone, hcount]
    exact ⟨rfl, hend⟩

theorem alike_poll (h : s.Alike Eq t) (i? : Option Nat) :
    (match i? with
      | none => (none, s)
      | some i => s.removeAt i).1 = (match i? with
      | none => (none, t)
      | some i => t.removeAt i).1 ∧
    (match i? with
      | none => (none, s)
      | some i => s.removeAt i).2.Alike Eq (match i? with
      | none => (none, t)
      | some i => t.removeAt i).2 := by
  cases i? with
  | none => exact ⟨rfl, h⟩
  | some i => exact alike_removeAt h i

variable [Identified α]

theorem alike_add (h : s.Alike Eq t) (a : α) :
    (s.add a).1 = (t.add a).1 ∧ (s.add a).2.Alike Eq (t.add a).2 := by
  unfold add
  rw [h.content]
  split
  · exact ⟨rfl, h⟩
  · exact ⟨rfl, h.edit (by rw [h.content])⟩

theorem alike_remove (h : s.Alike Eq t) (a : α) :
    (s.remove a).1 = (t.remove a).1 ∧ (s.remove a).2.Alike Eq (t.remove a).2 := by
  unfold remove
  rw [h.content]
  split
  · rename_i i _
    obtain ⟨hremoved, hafter⟩ := alike_removeAt h i
    exact ⟨congrArg Option.isSome hremoved, hafter⟩
  · exact ⟨rfl, h⟩

/-- Every operation of a sorted index, also through a view, answers the same on
alike indexes and leaves them alike. -/
theorem alike_perform (h : s.Alike Eq t) (op : SortedOp α) :
    (s.perform op).1 = (t.perform op).1 ∧ (s.perform op).2.Alike Eq (t.perform op).2 := by
  have hcontent : s.content = t.content := h.content
  have horder : s.order = t.order := congrArg SortedArray.order h.content
  cases op with
  | add a =>
    obtain ⟨hanswer, hafter⟩ := alike_add h a
    exact ⟨congrArg SortedAnswer.changed hanswer, hafter⟩
  | remove a =>
    obtain ⟨hanswer, hafter⟩ := alike_remove h a
    exact ⟨congrArg SortedAnswer.changed hanswer, hafter⟩
  | pollFirst =>
    obtain ⟨hanswer, hafter⟩ := alike_removeAt h 0
    exact ⟨congrArg SortedAnswer.element hanswer, hafter⟩
  | pollLast =>
    obtain ⟨hanswer, hafter⟩ := alike_pollLast h
    exact ⟨congrArg SortedAnswer.element hanswer, hafter⟩
  | retain sieve state =>
    obtain ⟨hremoved, hstate, hafter⟩ := alike_retain h sieve state
    exact ⟨congrArg₂ SortedAnswer.strained hremoved hstate, hafter⟩
  | addAll as =>
    obtain ⟨hcount, hafter⟩ := alike_countEach (fun a h => alike_add h a) as h
    exact ⟨congrArg SortedAnswer.counted hcount, hafter⟩
  | removeAll as =>
    obtain ⟨hcount, hafter⟩ := alike_countEach (fun a h => alike_remove h a) as h
    exact ⟨congrArg SortedAnswer.counted hcount, hafter⟩
  | clear => exact ⟨rfl, alike_clear h⟩
  | viewAdd v a =>
    simp only [perform, RangeView.add, horder]
    split
    · obtain ⟨hanswer, hafter⟩ := alike_add h a
      exact ⟨congrArg (SortedAnswer.attempted ∘ Except.ok) hanswer, hafter⟩
    · exact ⟨rfl, h⟩
  | viewRemove v a =>
    simp only [perform, RangeView.remove, horder]
    split
    · obtain ⟨hanswer, hafter⟩ := alike_remove h a
      exact ⟨congrArg SortedAnswer.changed hanswer, hafter⟩
    · exact ⟨rfl, h⟩
  | viewPollFirst v =>
    obtain ⟨hanswer, hafter⟩ := alike_poll h (v.firstIndex? t.content)
    simp only [perform, RangeView.pollFirst, hcontent]
    exact ⟨congrArg SortedAnswer.element hanswer, hafter⟩
  | viewPollLast v =>
    obtain ⟨hanswer, hafter⟩ := alike_poll h (v.lastIndex? t.content)
    simp only [perform, RangeView.pollLast, hcontent]
    exact ⟨congrArg SortedAnswer.element hanswer, hafter⟩
  | viewClear v =>
    simp only [perform, RangeView.clear, hcontent]
    exact ⟨trivial, alike_removeSpan h _⟩

end SortedIndex

/-! ## Bags -/

namespace Bag

variable {α : Type} [Identified α] {b c : Bag α}

/-- Two tables that are the same but for their generations. -/
def SameButAge (t u : IdentTable α) : Prop :=
  ∃ r : IdentTable α, r.WellFormed ∧ (∃ m, t = r.aged m) ∧ ∃ n, u = r.aged n

theorem alike_insert (h : b.Alike SameButAge c) (a : α) :
    (b.insert a).1 = (c.insert a).1 ∧ (b.insert a).2.Alike SameButAge (c.insert a).2 := by
  obtain ⟨r, hwell, ⟨m, hb⟩, n, hc⟩ := h.content
  unfold insert contains
  rw [hb, hc, r.contains_aged, r.contains_aged]
  split
  · exact ⟨rfl, h⟩
  · refine h.attempt ?_ ⟨(r.insert a).2, (hwell.insert a).1, ⟨m, ?_⟩, n, ?_⟩
    · rw [hb, hc, r.insert_aged, r.insert_aged]
    · rw [hb, r.insert_aged]
    · rw [hc, r.insert_aged]

theorem alike_remove (h : b.Alike SameButAge c) (a : α) :
    (b.remove a).1 = (c.remove a).1 ∧ (b.remove a).2.Alike SameButAge (c.remove a).2 := by
  obtain ⟨r, hwell, ⟨m, hb⟩, n, hc⟩ := h.content
  unfold remove contains
  rw [hb, hc, r.contains_aged, r.contains_aged]
  split
  · refine h.attempt ?_ ⟨(r.remove a).2, (hwell.take (ident a)).1, ⟨m, ?_⟩, n, ?_⟩
    · rw [hb, hc, r.remove_aged, r.remove_aged]
    · rw [hb, r.remove_aged]
    · rw [hc, r.remove_aged]
  · exact ⟨rfl, h⟩

theorem alike_clear (h : b.Alike SameButAge c) : b.clear.Alike SameButAge c.clear := by
  obtain ⟨r, hwell, ⟨m, hb⟩, n, hc⟩ := h.content
  obtain ⟨k, hk⟩ := hwell.emptyLike_eq
  have hclear := hwell.clear.1
  -- whichever path is taken, the table is the emptied one of some generation
  have hplace : ∀ n, (r.aged n).clear = r.clear.aged n := fun n => r.clear_aged n
  have hfresh : ∀ n, (r.aged n).emptyLike = r.clear.aged (k + n) := fun n => by
    rw [r.emptyLike_aged, hk, IdentTable.aged_aged]
  unfold clear isEmpty
  rw [hb, hc, r.isEmpty_aged, r.isEmpty_aged]
  split
  · exact h
  · refine h.renew ?_ ?_ ?_ ?_
    · rw [hb, hc, hplace, hplace]
      exact ⟨_, hclear, ⟨m, rfl⟩, n, rfl⟩
    · rw [hc, hfresh, hplace]
      exact ⟨_, hclear, ⟨k + m, rfl⟩, n, rfl⟩
    · rw [hb, hfresh, hplace]
      exact ⟨_, hclear, ⟨m, rfl⟩, k + n, rfl⟩
    · rw [hfresh, hfresh]
      exact ⟨_, hclear, ⟨k + m, rfl⟩, k + n, rfl⟩

end Bag

/-! ## Indexes of either kind -/

/-- All that can be seen of an index at one moment, if one does not ask for its
snapshots. -/
structure Sight (α : Type) where
  /-- The elements as a traversal meets them. -/
  elements : List α
  size : Nat
  changes : Nat
  contains : α → Bool
  find? : α → Option α
  /-- The number of slots of a bag. -/
  tableSize : Option Nat
  /-- The table of a bag, with every slot and all sizes, but without its
  generation. -/
  table : Option (IdentTable α)
  /-- The array of a sorted index, in which it and its views look up all else. -/
  array : Option (SortedArray α)

variable {α : Type} [Identified α]

namespace Index

def sight (i : Index α) : Sight α where
  elements := i.toList
  size := i.size
  changes := i.changes
  contains := i.contains
  find? := i.find?
  tableSize := i.bag?.map fun b => b.content.size
  table := i.bag?.map fun b => b.content.ageless
  array := i.sorted?.map Tracked.content

/-- Two indexes of one kind that one cannot tell apart without their snapshots. -/
inductive Alike : Index α → Index α → Prop
  | bag {b c : Bag α} (h : b.Alike Bag.SameButAge c) : Alike (.bag b) (.bag c)
  | sorted {s t : SortedIndex α} (h : s.Alike Eq t) : Alike (.sorted s) (.sorted t)

namespace Alike

variable {i j : Index α}

theorem sight_eq (h : i.Alike j) : i.sight = j.sight := by
  cases h with
  | @bag b c h =>
    obtain ⟨r, -, ⟨m, hb⟩, n, hc⟩ := h.content
    have hcontains : ∀ a, b.contains a = c.contains a := fun a => by
      rw [Bag.contains, Bag.contains, hb, hc, r.contains_aged, r.contains_aged]
    have hfind : ∀ a, b.find? a = c.find? a := fun a => by
      rw [Bag.find?, Bag.find?, hb, hc, r.get?_aged, r.get?_aged]
    have hlist : b.toList = c.toList := by rw [Bag.toList, Bag.toList, hb, hc]; rfl
    have hsize : b.size = c.size := by rw [Bag.size, Bag.size, hb, hc]; rfl
    have hslots : b.content.size = c.content.size := by rw [hb, hc]; rfl
    have htable : b.content.ageless = c.content.ageless := by rw [hb, hc]; rfl
    unfold sight
    rw [Sight.mk.injEq]
    exact ⟨hlist, hsize, h.changes_eq, funext hcontains, funext hfind,
      congrArg some hslots, congrArg some htable, rfl⟩
  | @sorted s t h =>
    have hcontains : ∀ a, s.contains a = t.contains a := fun a => by
      rw [SortedIndex.contains, SortedIndex.contains, h.content]
    have hfind : ∀ a, s.find? a = t.find? a := fun a => by
      rw [SortedIndex.find?, SortedIndex.find?, h.content]
    unfold sight
    rw [Sight.mk.injEq]
    exact ⟨congrArg SortedArray.toList h.content, congrArg SortedArray.size h.content,
      h.changes_eq, funext hcontains, funext hfind, rfl, rfl, congrArg some h.content⟩

/-- An operation answers the same on alike indexes and leaves them alike. -/
theorem perform (h : i.Alike j) (op : IndexOp α) :
    i.answer op = j.answer op ∧ (i.perform op).Alike (j.perform op) := by
  cases h with
  | bag h =>
    cases op with
    | insert a =>
      obtain ⟨hanswer, hafter⟩ := Bag.alike_insert h a
      exact ⟨congrArg SortedAnswer.changed hanswer, .bag hafter⟩
    | remove a =>
      obtain ⟨hanswer, hafter⟩ := Bag.alike_remove h a
      exact ⟨congrArg SortedAnswer.changed hanswer, .bag hafter⟩
    | clear => exact ⟨rfl, .bag (Bag.alike_clear h)⟩
    | sorted op => exact ⟨rfl, .bag h⟩
  | sorted h =>
    cases op with
    | insert a =>
      obtain ⟨hanswer, hafter⟩ := SortedIndex.alike_add h a
      exact ⟨congrArg SortedAnswer.changed hanswer, .sorted hafter⟩
    | remove a =>
      obtain ⟨hanswer, hafter⟩ := SortedIndex.alike_remove h a
      exact ⟨congrArg SortedAnswer.changed hanswer, .sorted hafter⟩
    | clear => exact ⟨rfl, .sorted (SortedIndex.alike_clear h)⟩
    | sorted op =>
      obtain ⟨hanswer, hafter⟩ := SortedIndex.alike_perform h op
      exact ⟨hanswer, .sorted hafter⟩

/-- A holder who comes makes no difference. -/
theorem hold (h : i.Alike j) (x : EitherSnapshot α) : (i.hold x).Alike j := by
  cases h with
  | bag h =>
    cases x with
    | bag x => exact .bag (h.hold x)
    | sorted x => exact .bag h
  | sorted h =>
    cases x with
    | bag x => exact .sorted h
    | sorted x => exact .sorted (h.hold x)

/-- Nor does one who goes. -/
theorem release (h : i.Alike j) (x : EitherSnapshot α) : (i.release x).Alike j := by
  cases h with
  | bag h =>
    cases x with
    | bag x => exact .bag (h.release x)
    | sorted x => exact .bag h
  | sorted h =>
    cases x with
    | bag x => exact .sorted h
    | sorted x => exact .sorted (h.release x)

end Alike

end Index

end SnapshotIndex
