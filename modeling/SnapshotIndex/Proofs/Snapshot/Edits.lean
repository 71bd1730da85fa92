import SnapshotIndex.Index
import SnapshotIndex.Proofs.Snapshot.Sharing
import SnapshotIndex.Proofs.Sorted.Performing
import SnapshotIndex.Proofs.Table.Rebuild

/-!
# How often an operation edits

An operation leaves an index exactly as it is, or it edits its store once, or,
if it is about many elements, once for each of them.  `Tracked.Edited` tells
how often, and what each edit does to the content; an operation never edits
without a difference, and all edits of one operation go in one direction, so
that none of them undoes another.

This is all that the count of changes, the version of a store and those who
hold snapshots of it depend on: edits are counted (`changes_eq`), leave a shared
version behind (`stale`), and disturb no holder (`undisturbed`).

What an operation answers is the number of its edits or whether there were
any (`SortedAnswer.Tells`).

* `SortedIndex.edited_perform`: every operation of a sorted index.
* `Bag.insert_eq`, `Bag.remove_eq`: a bag that finds something to do edits its table,
  and the table does not refuse.
* `Bag.edited_insert`, `Bag.edited_remove`, `Bag.edited_clear`: those of a bag.
-/

namespace SnapshotIndex

open Identified (ident)

/-! ## Edits of a tracked store -/

namespace Tracked

variable {σ : Type} {R : σ → σ → Prop} {t u v : Tracked σ} {n m : Nat}

/-- Content of more elements than before. -/
def Grows (size : σ → Nat) (before after : σ) : Prop := size before < size after

/-- Content of fewer elements than before. -/
def Shrinks (size : σ → Nat) (before after : σ) : Prop := size after < size before

theorem Grows.trans {size : σ → Nat} {a b c : σ} (h : Grows size a b) (h' : Grows size b c) :
    Grows size a c :=
  Nat.lt_trans h h'

theorem Shrinks.trans {size : σ → Nat} {a b c : σ} (h : Shrinks size a b)
    (h' : Shrinks size b c) : Shrinks size a c :=
  Nat.lt_trans h' h

/-- A store that comes from another one by some number of edits, each of which
relates the content before it to the content after it. -/
inductive Edited (R : σ → σ → Prop) (t : Tracked σ) : Nat → Tracked σ → Prop
  | none : Edited R t 0 t
  | edit {n : Nat} {u : Tracked σ} (h : Edited R t n u) {f : σ → σ}
    (hf : R u.content (f u.content)) : Edited R t (n + 1) (u.edit f)
  | renew {n : Nat} {u : Tracked σ} (h : Edited R t n u) {emptied : σ → σ} {fresh : σ}
    (hemptied : R u.content (emptied u.content)) (hfresh : R u.content fresh) :
    Edited R t (n + 1) (u.renew emptied fresh)

namespace Edited

theorem trans (h : t.Edited R n u) (h' : u.Edited R m v) : t.Edited R (n + m) v := by
  induction h' with
  | none => exact h
  | edit _ hf ih => exact ih.edit hf
  | renew _ hemptied hfresh ih => exact ih.renew hemptied hfresh

/-- Every edit is counted. -/
theorem changes_eq (h : t.Edited R n u) : u.changes = t.changes + n := by
  induction h with
  | none => rfl
  | edit _ _ ih => rw [changes_edit, ih, Nat.add_assoc]
  | renew _ _ _ ih => rw [changes_renew, ih, Nat.add_assoc]

theorem eq_of_zero (h : t.Edited R 0 u) : u = t := by
  cases h
  rfl

/-- Edits that all go in one direction amount to one edit in this direction. -/
theorem related (htrans : ∀ a b c, R a b → R b c → R a c) (h : t.Edited R n u) (hn : n ≠ 0) :
    R t.content u.content := by
  induction h with
  | none => exact absurd rfl hn
  | @edit n u h f hf ih =>
    rw [content_edit]
    rcases Nat.eq_zero_or_pos n with rfl | hpos
    · rwa [h.eq_of_zero] at hf ⊢
    · exact htrans _ _ _ (ih (Nat.ne_of_gt hpos)) hf
  | @renew n u h emptied fresh hemptied hfresh ih =>
    have hstep : R u.content (u.renew emptied fresh).content := by
      rw [content_renew]
      split
      · exact hfresh
      · exact hemptied
    rcases Nat.eq_zero_or_pos n with rfl | hpos
    · rwa [h.eq_of_zero] at hstep ⊢
    · exact htrans _ _ _ (ih (Nat.ne_of_gt hpos)) hstep

end Edited

/-! ## Versions -/

theorem version_edit (t : Tracked σ) (f : σ → σ) :
    (t.edit f).store.version = t.store.version + t.store.isShared.toNat :=
  t.store.version_write f

theorem version_renew (t : Tracked σ) (emptied : σ → σ) (fresh : σ) :
    (t.renew emptied fresh).store.version = t.store.version + t.store.isShared.toNat := by
  unfold renew
  dsimp only
  split
  · exact t.store.version_replace fresh
  · exact t.store.version_write emptied

namespace Edited

theorem version_le (h : t.Edited R n u) : t.store.version ≤ u.store.version := by
  induction h with
  | none => exact Nat.le_refl _
  | edit _ _ ih =>
    rw [version_edit]
    exact Nat.le_add_right_of_le ih
  | renew _ _ _ ih =>
    rw [version_renew]
    exact Nat.le_add_right_of_le ih

/-- The first of any edits leaves a shared version behind. -/
theorem version_lt (h : t.Edited R n u) (hn : n ≠ 0) (hshared : t.store.isShared = true) :
    t.store.version < u.store.version := by
  induction h with
  | none => exact absurd rfl hn
  | @edit n u h f hf ih =>
    rw [version_edit]
    rcases Nat.eq_zero_or_pos n with rfl | hpos
    · rw [h.eq_of_zero, hshared]
      exact Nat.lt_succ_self _
    · exact Nat.lt_add_right _ (ih (Nat.ne_of_gt hpos))
  | @renew n u h emptied fresh hemptied hfresh ih =>
    rw [version_renew]
    rcases Nat.eq_zero_or_pos n with rfl | hpos
    · rw [h.eq_of_zero, hshared]
      exact Nat.lt_succ_self _
    · exact Nat.lt_add_right _ (ih (Nat.ne_of_gt hpos))

end Edited

end Tracked

/-- No snapshot that is held is current after an edit. -/
theorem Tracked.Edited.stale {σ : Type} {R : σ → σ → Prop} {t u : Tracked σ} {n : Nat}
    (h : t.Edited R n u) (hn : n ≠ 0) (hordered : t.store.Ordered) {x : Snapshot σ}
    (hheld : 0 < t.holders x) : u.isCurrent x = false := by
  have hlt : x.version < u.store.version := by
    rcases Backing.version_of_held hordered hheld with hpast | ⟨hlatest, hshared⟩
    · exact Nat.lt_of_lt_of_le hpast h.version_le
    · rw [hlatest]
      exact h.version_lt hn hshared
  rw [Bool.eq_false_iff, Ne, Tracked.isCurrent, Backing.isCurrent_iff]
  exact Nat.ne_of_lt hlt

/-! ## Holders -/

namespace Tracked

variable {σ : Type} {t : Tracked σ}

theorem undisturbed_edit (h : t.store.Ordered) (f : σ → σ) :
    t.store.Undisturbed (t.edit f).store :=
  Backing.undisturbed_write h f

theorem undisturbed_renew (h : t.store.Ordered) (emptied : σ → σ) (fresh : σ) :
    t.store.Undisturbed (t.renew emptied fresh).store := by
  unfold renew
  dsimp only
  split
  · exact Backing.undisturbed_replace h fresh
  · exact Backing.undisturbed_write h emptied

/-- Edits disturb nobody who holds a snapshot. -/
theorem Edited.undisturbed {R : σ → σ → Prop} {u : Tracked σ} {n : Nat} (h : t.Edited R n u)
    (hordered : t.store.Ordered) : t.store.Undisturbed u.store := by
  induction h with
  | none => exact .refl hordered
  | edit _ _ ih => exact ih.trans (undisturbed_edit ih.ordered _)
  | renew _ _ _ ih => exact ih.trans (undisturbed_renew ih.ordered _ _)

/-- Edits that all add elements, or that all take elements away. -/
def Directed (t : Tracked σ) (size : σ → Nat) (n : Nat) (u : Tracked σ) : Prop :=
  t.Edited (Grows size) n u ∨ t.Edited (Shrinks size) n u

namespace Directed

variable {size : σ → Nat} {u : Tracked σ} {n : Nat}

theorem exists_edited (h : t.Directed size n u) : ∃ R, t.Edited R n u := by
  rcases h with h | h
  · exact ⟨_, h⟩
  · exact ⟨_, h⟩

/-- What was added is not taken away again, nor the other way round. -/
theorem size_ne (h : t.Directed size n u) (hn : n ≠ 0) : size u.content ≠ size t.content := by
  rcases h with h | h
  · exact Nat.ne_of_gt (h.related (fun _ _ _ => Grows.trans) hn)
  · exact Nat.ne_of_lt (h.related (fun _ _ _ => Shrinks.trans) hn)

end Directed

end Tracked

/-! ## Answers -/

namespace SortedAnswer

variable {α : Type}

/-- Whether an answer says that something has changed, if it says anything
about it.  An operation that is refused says that nothing has. -/
def reports? : SortedAnswer α → Option Bool
  | silent => none
  | changed yes => some yes
  | attempted (.ok yes) => some yes
  | attempted (.error _) => some false
  | counted n => some (decide (n ≠ 0))
  | strained removed _ => some (decide (removed ≠ 0))
  | element a => some a.isSome

/-- How many changes an operation with this answer is counted as, if it changes
anything: those that it counts itself, and else one. -/
def worth : SortedAnswer α → Nat
  | counted n => n
  | _ => 1

/-- An answer that tells how many edits there were. -/
structure Tells (answer : SortedAnswer α) (edits : Nat) : Prop where
  worth_eq : edits ≠ 0 → edits = answer.worth
  reports_iff : ∀ yes, answer.reports? = some yes → (yes = true ↔ edits ≠ 0)

namespace Tells

/-- Where there is at most one edit, the answer has to say whether there is. -/
theorem of_toNat {answer : SortedAnswer α} (hworth : answer.worth = 1) (any : Bool)
    (hreports : ∀ yes, answer.reports? = some yes → yes = any) : answer.Tells any.toNat where
  worth_eq hany := by
    rw [hworth]
    cases any with
    | false => exact absurd rfl hany
    | true => rfl
  reports_iff yes hyes := by
    rw [hreports yes hyes]
    cases any <;> simp

theorem silent (any : Bool) : (.silent : SortedAnswer α).Tells any.toNat :=
  of_toNat rfl any fun yes hyes => absurd hyes (Option.some_ne_none yes).symm

theorem changed (yes : Bool) : (.changed yes : SortedAnswer α).Tells yes.toNat :=
  of_toNat rfl yes fun _ h => (Option.some.inj h).symm

theorem attempted (yes : Bool) : (.attempted (.ok yes) : SortedAnswer α).Tells yes.toNat :=
  of_toNat rfl yes fun _ h => (Option.some.inj h).symm

theorem refused (fault : Fault) : (.attempted (.error fault) : SortedAnswer α).Tells 0 :=
  of_toNat rfl false fun _ h => (Option.some.inj h).symm

theorem strained {σ : Type} (removed : Nat) (state : σ) :
    (.strained removed state : SortedAnswer α).Tells (decide (removed ≠ 0)).toNat :=
  of_toNat rfl _ fun _ h => (Option.some.inj h).symm

theorem element (a : Option α) : (SortedAnswer.element a).Tells a.isSome.toNat :=
  of_toNat rfl a.isSome fun _ h => (Option.some.inj h).symm

theorem counted (n : Nat) : (.counted n : SortedAnswer α).Tells n where
  worth_eq _ := rfl
  reports_iff yes hyes := by
    rw [← Option.some.inj hyes]
    exact decide_eq_true_iff

end Tells

end SortedAnswer

/-! ## Sorted indexes -/

namespace SortedIndex

open Tracked (Grows Shrinks)

variable {α : Type} (s : SortedIndex α)

theorem edited_clear : s.Edited (Shrinks SortedArray.size) (!s.isEmpty).toNat s.clear := by
  unfold clear
  split
  · rename_i hempty
    rw [hempty]
    exact .none
  · rename_i hfull
    have hpos : 0 < s.content.size := by
      simp only [isEmpty, SortedArray.isEmpty, beq_iff_eq] at hfull
      omega
    rw [Bool.not_eq_true] at hfull
    rw [hfull]
    exact .renew .none hpos hpos

theorem edited_removeAt (i : Nat) :
    s.Edited (Shrinks SortedArray.size) (s.removeAt i).1.isSome.toNat (s.removeAt i).2 := by
  unfold removeAt
  split
  · rename_i hi
    have hget : s.content.get? i = some s.content.items[i] := Array.getElem?_eq_getElem hi
    simp only [hget]
    refine .edit .none ?_
    unfold Shrinks
    rw [SortedArray.size_removeAt hi]
    exact Nat.sub_lt (Nat.zero_lt_of_lt hi) Nat.one_pos
  · exact .none

theorem edited_pollLast :
    s.Edited (Shrinks SortedArray.size) s.pollLast.1.isSome.toNat s.pollLast.2 := by
  unfold pollLast
  split
  · exact .none
  · exact s.edited_removeAt _

theorem edited_retain {σ : Type} (sieve : Sieve σ α) (state : σ) :
    s.Edited (Shrinks SortedArray.size) (decide ((s.retain sieve state).1.1 ≠ 0)).toNat
      (s.retain sieve state).1.2 := by
  have hsize : s.toList.length = s.size := s.content.length_toList
  have hsub := (strain_sublist sieve s.toList state).length_le
  rw [s.retain_eq]
  split
  · exact .none
  · rename_i hsome
    have hless : (sieve.strain s.toList state).1.length < s.size := by omega
    have hremoved : s.size - (sieve.strain s.toList state).1.length ≠ 0 := by omega
    simp only [hremoved, ne_eq, not_false_eq_true, decide_true, Bool.toNat_true]
    exact .edit .none hless

/-- An operation for each element of a list edits as often as it says yes. -/
theorem edited_countEach {R : SortedArray α → SortedArray α → Prop}
    {op : SortedIndex α → α → Bool × SortedIndex α}
    (hop : ∀ (s : SortedIndex α) (a : α), s.Edited R (op s a).1.toNat (op s a).2) (as : List α) :
    s.Edited R (countEach op as s).1 (countEach op as s).2 := by
  induction as generalizing s with
  | nil => exact .none
  | cons a rest ih =>
    have hboth := (hop s a).trans (ih (op s a).2)
    have hcount : (countEach op (a :: rest) s).1 =
        (op s a).1.toNat + (countEach op rest (op s a).2).1 := by
      simp only [countEach]
      cases (op s a).1 with
      | true => exact Nat.add_comm _ 1
      | false => exact (Nat.zero_add _).symm
    rw [hcount]
    exact hboth

theorem edited_poll (i? : Option Nat) :
    s.Edited (Shrinks SortedArray.size) (match i? with
      | none => (none, s)
      | some i => s.removeAt i).1.isSome.toNat (match i? with
      | none => (none, s)
      | some i => s.removeAt i).2 := by
  cases i? with
  | none => exact .none
  | some i => exact s.edited_removeAt i

variable [Identified α]

theorem edited_add (a : α) : s.Edited (Grows SortedArray.size) (s.add a).1.toNat (s.add a).2 := by
  unfold add
  split
  · exact .none
  · rename_i i hsearch
    refine .edit .none ?_
    unfold Grows
    rw [SortedArray.size_insertAt]
    exact Nat.lt_succ_self _

theorem edited_remove (a : α) :
    s.Edited (Shrinks SortedArray.size) (s.remove a).1.toNat (s.remove a).2 := by
  unfold remove
  split
  · exact s.edited_removeAt _
  · exact .none

theorem edited_viewClear (v : RangeView α) :
    s.Edited (Shrinks SortedArray.size) (!v.isEmpty s.content).toNat (v.clear s) := by
  obtain ⟨hle, hstop⟩ := s.content.span_le v
  unfold RangeView.clear RangeView.isEmpty removeSpan
  split
  · rename_i hempty
    rw [hempty]
    exact .none
  · rename_i hfull
    have hlt : (v.span s.content).start < (v.span s.content).stop := by
      simpa [Span.isEmpty] using hfull
    rw [Bool.not_eq_true] at hfull
    rw [hfull]
    split
    · -- to remove everything is to clear the index, which is not empty
      have hsome : s.isEmpty = false := by
        simp only [isEmpty, SortedArray.isEmpty, beq_eq_false_iff_ne]
        exact Nat.ne_of_gt (Nat.lt_of_lt_of_le (Nat.zero_lt_of_lt hlt) hstop)
      have hclear := s.edited_clear
      rwa [hsome] at hclear
    · refine .edit .none ?_
      unfold Shrinks
      rw [SortedArray.size_dropSpan hle hstop, Span.size]
      omega

/-- Every operation of a sorted index edits it in one direction, and answers how
often. -/
theorem edited_perform (op : SortedOp α) :
    ∃ n, (s.perform op).1.Tells n ∧ s.Directed SortedArray.size n (s.perform op).2 := by
  cases op with
  | add a => exact ⟨_, .changed _, .inl (s.edited_add a)⟩
  | remove a => exact ⟨_, .changed _, .inr (s.edited_remove a)⟩
  | pollFirst => exact ⟨_, .element _, .inr (s.edited_removeAt 0)⟩
  | pollLast => exact ⟨_, .element _, .inr s.edited_pollLast⟩
  | retain sieve state => exact ⟨_, .strained _ _, .inr (s.edited_retain sieve state)⟩
  | addAll as =>
    exact ⟨_, .counted _, .inl (s.edited_countEach (fun s => s.edited_add) as)⟩
  | removeAll as =>
    exact ⟨_, .counted _, .inr (s.edited_countEach (fun s => s.edited_remove) as)⟩
  | clear => exact ⟨_, .silent _, .inr s.edited_clear⟩
  | viewAdd v a =>
    simp only [perform, RangeView.add]
    split
    · exact ⟨_, .attempted _, .inl (s.edited_add a)⟩
    · exact ⟨0, .refused _, .inl .none⟩
  | viewRemove v a =>
    simp only [perform, RangeView.remove]
    split
    · exact ⟨_, .changed _, .inr (s.edited_remove a)⟩
    · exact ⟨0, .changed false, .inl .none⟩
  | viewPollFirst v =>
    exact ⟨_, .element _, .inr (s.edited_poll (v.firstIndex? s.content))⟩
  | viewPollLast v =>
    exact ⟨_, .element _, .inr (s.edited_poll (v.lastIndex? s.content))⟩
  | viewClear v => exact ⟨_, .silent _, .inr (s.edited_viewClear v)⟩

end SortedIndex

/-! ## Bags -/

namespace Bag

open Tracked (Grows Shrinks)

variable {α : Type} {b : Bag α} [Identified α]

/-- A well-formed table takes every element whose identity it does not have. -/
theorem insert_eq (h : b.content.WellFormed) (a : α) :
    b.insert a =
      if b.contains a then (false, b) else (true, b.edit fun t => (t.insert a).2) := by
  unfold insert
  split
  · rfl
  · rename_i hnew
    obtain ⟨-, -, hadded, -⟩ := h.insert a
    rw [show b.content.contains a = false from Bool.eq_false_iff.mpr hnew] at hadded
    exact Tracked.attempt_eq_edit hadded

/-- A table gives up every identity that it has. -/
theorem remove_eq (b : Bag α) (a : α) :
    b.remove a =
      if b.contains a then (true, b.edit fun t => (t.remove a).2) else (false, b) := by
  unfold remove
  split
  · rename_i hheld
    exact Tracked.attempt_eq_edit ((b.content.remove_fst a).trans hheld)
  · rfl

theorem insert_fst (h : b.content.WellFormed) (a : α) : (b.insert a).1 = !b.contains a := by
  rw [insert_eq h]
  cases b.contains a <;> rfl

theorem remove_fst (b : Bag α) (a : α) : (b.remove a).1 = b.contains a := by
  rw [remove_eq]
  cases b.contains a <;> rfl

theorem edited_insert (h : b.content.WellFormed) (a : α) :
    b.Edited (Grows IdentTable.count) (b.insert a).1.toNat (b.insert a).2 := by
  rw [insert_eq h]
  split
  · exact .none
  · rename_i hnew
    refine .edit .none ?_
    obtain ⟨hwell, -, -, hperm⟩ := h.insert a
    rw [if_neg (show ¬ b.content.contains a = true from hnew)] at hperm
    unfold Grows
    rw [h.count_eq, hwell.count_eq, hperm.length_eq]
    exact Nat.lt_succ_self _

theorem edited_remove (h : b.content.WellFormed) (a : α) :
    b.Edited (Shrinks IdentTable.count) (b.remove a).1.toNat (b.remove a).2 := by
  rw [remove_eq]
  split
  · rename_i hheld
    refine .edit .none ?_
    obtain ⟨d, hd, hid⟩ := (h.contains_iff a).mp hheld
    obtain ⟨hwell, hlist⟩ := h.take (ident a)
    change (b.content.take (ident a)).2.count < b.content.count
    rw [hwell.count_eq, h.count_eq, hlist, List.length_filter_lt_length_iff_exists]
    exact ⟨d, hd, by simpa using hid⟩
  · exact .none

omit [Identified α] in
theorem edited_clear : b.Edited (Shrinks IdentTable.count) (!b.isEmpty).toNat b.clear := by
  unfold clear
  split
  · rename_i hempty
    rw [hempty]
    exact .none
  · rename_i hfull
    have hpos : 0 < b.content.count := by
      simpa [isEmpty, IdentTable.isEmpty, Nat.pos_iff_ne_zero] using hfull
    rw [Bool.not_eq_true] at hfull
    rw [hfull]
    exact .renew .none hpos hpos

end Bag

end SnapshotIndex
