import SnapshotIndex.Proofs.Snapshot.Changes

/-!
# Operations that find nothing to do

An operation of an index that finds nothing to do leaves the index exactly as it
is (`Index.perform_of_idle`).  Any other shows: in the number of elements, in
the count of changes, and in that no snapshot which is held is current any more
(`Index.eq_or_moved`).
-/

namespace SnapshotIndex

/-! ## Operations that move an index on -/

/-- An index that differs from what it was before, says so in its count of
changes, and has left what others hold. -/
structure Index.Moved {α : Type} (i j : Index α) : Prop where
  size_ne : j.size ≠ i.size
  changes_lt : i.changes < j.changes
  stale : ∀ x, 0 < i.holders x → j.isCurrent x = false

namespace Index

variable {α : Type} [Identified α] {i : Index α}

/-- An operation leaves an index exactly as it is, or it moves it on. -/
theorem eq_or_moved (h : i.Sound) (op : IndexOp α) :
    i.perform op = i ∨ i.Moved (i.perform op) := by
  obtain ⟨n, -, hedited⟩ := edited_perform h op
  rcases Nat.eq_zero_or_pos n with rfl | hpos
  · exact .inl hedited.eq_of_zero
  · have hn : n ≠ 0 := Nat.ne_of_gt hpos
    refine .inr ⟨hedited.size_ne hn, ?_, fun x hx => hedited.stale hn h hx⟩
    rw [hedited.changes_eq]
    exact Nat.lt_add_of_pos_right hpos

theorem length_toList (h : i.Sound) : i.toList.length = i.size := by
  cases i with
  | bag b => exact h.2.count_eq.symm
  | sorted s => exact s.content.length_toList

end Index

/-! ## Idle operations -/

section Idle

variable {α : Type} [Identified α]

/-- What is there is added, what is not there is removed, and where there is
nothing nothing is taken; and a view refuses what is out of its bounds. -/
def SortedIndex.Idle (s : SortedIndex α) : SortedOp α → Prop
  | .add a => s.contains a = true
  | .remove a => s.contains a = false
  | .pollFirst => s.isEmpty = true
  | .pollLast => s.isEmpty = true
  | .retain sieve state => (sieve.strain s.toList state).1 = s.toList
  | .addAll as => ∀ a ∈ as, s.contains a = true
  | .removeAll as => ∀ a ∈ as, s.contains a = false
  | .clear => s.isEmpty = true
  | .viewAdd v a => v.inRange s.order a = false ∨ s.contains a = true
  | .viewRemove v a => v.inRange s.order a = false ∨ s.contains a = false
  | .viewPollFirst v => v.isEmpty s.content = true
  | .viewPollLast v => v.isEmpty s.content = true
  | .viewClear v => v.isEmpty s.content = true

/-- The operations that find nothing to do.  What only a sorted index has does
nothing to a bag. -/
def Index.Idle (i : Index α) : IndexOp α → Prop
  | .insert a => i.contains a = true
  | .remove a => i.contains a = false
  | .clear => i.isEmpty = true
  | .sorted op => match i with
    | .bag _ => True
    | .sorted s => s.Idle op

namespace SortedIndex

variable {s : SortedIndex α}

theorem add_of_contains {a : α} (h : s.contains a = true) : (s.add a).2 = s := by
  unfold add
  cases hsearch : s.content.search a with
  | found i => rfl
  | missing i =>
    rw [contains, SortedArray.contains, hsearch] at h
    exact absurd h Bool.false_ne_true

theorem remove_of_not_contains {a : α} (h : s.contains a = false) : (s.remove a).2 = s := by
  unfold remove
  cases hsearch : s.content.search a with
  | found i =>
    rw [contains, SortedArray.contains, hsearch] at h
    exact absurd h.symm Bool.false_ne_true
  | missing i => rfl

omit [Identified α] in
theorem countEach_of_idle {op : SortedIndex α → α → Bool × SortedIndex α} {as : List α}
    (h : ∀ a ∈ as, (op s a).2 = s) : (countEach op as s).2 = s := by
  induction as with
  | nil => rfl
  | cons a rest ih =>
    simp only [countEach, h a List.mem_cons_self]
    exact ih fun b hb => h b (List.mem_cons_of_mem a hb)

omit [Identified α] in
theorem retain_of_all {σ : Type} {sieve : Sieve σ α} {state : σ}
    (h : (sieve.strain s.toList state).1 = s.toList) : (s.retain sieve state).1.2 = s := by
  have hsize : s.toList.length = s.size := s.content.length_toList
  rw [s.retain_eq, h, if_pos hsize]

omit [Identified α] in
theorem removeAt_of_isEmpty (h : s.isEmpty = true) (i : Nat) : s.removeAt i = (none, s) := by
  have hsize : s.size = 0 := beq_iff_eq.mp h
  unfold removeAt
  rw [hsize, if_neg (Nat.not_lt_zero i)]

omit [Identified α] in
theorem pollLast_of_isEmpty (h : s.isEmpty = true) : s.pollLast = (none, s) :=
  if_pos (beq_iff_eq.mp h)

/-- An empty view has neither a first nor a last index. -/
theorem index?_of_isEmpty {v : RangeView α} {xs : SortedArray α} (h : v.isEmpty xs = true) :
    v.firstIndex? xs = none ∧ v.lastIndex? xs = none := by
  have hfirst : (v.span xs).first? = none := if_pos h
  have hlast : (v.span xs).last? = none := if_pos h
  unfold RangeView.firstIndex? RangeView.lastIndex?
  rw [hfirst, hlast, ite_self]
  exact ⟨rfl, rfl⟩

/-- An idle operation leaves the index as it is. -/
theorem perform_of_idle {op : SortedOp α} (h : s.Idle op) : (s.perform op).2 = s := by
  cases op with
  | add a => exact add_of_contains h
  | remove a => exact remove_of_not_contains h
  | pollFirst => exact congrArg Prod.snd (removeAt_of_isEmpty h 0)
  | pollLast => exact congrArg Prod.snd (pollLast_of_isEmpty h)
  | retain sieve state => exact retain_of_all h
  | addAll as => exact countEach_of_idle fun a ha => add_of_contains (h a ha)
  | removeAll as => exact countEach_of_idle fun a ha => remove_of_not_contains (h a ha)
  | clear => exact if_pos h
  | viewAdd v a =>
    simp only [perform, RangeView.add]
    split
    · rename_i hin
      rcases h with hout | hheld
      · exact absurd (hin.symm.trans hout) (by decide)
      · exact add_of_contains hheld
    · rfl
  | viewRemove v a =>
    simp only [perform, RangeView.remove]
    split
    · rename_i hin
      rcases h with hout | hnew
      · exact absurd (hin.symm.trans hout) (by decide)
      · exact remove_of_not_contains hnew
    · rfl
  | viewPollFirst v =>
    simp only [perform, RangeView.pollFirst, (index?_of_isEmpty h).1]
  | viewPollLast v =>
    simp only [perform, RangeView.pollLast, (index?_of_isEmpty h).2]
  | viewClear v => exact if_pos h

end SortedIndex

theorem Bag.insert_of_contains {b : Bag α} {a : α} (h : b.contains a = true) :
    b.insert a = (false, b) :=
  if_pos h

theorem Bag.remove_of_not_contains {b : Bag α} {a : α} (h : b.contains a = false) :
    b.remove a = (false, b) :=
  if_neg (Bool.eq_false_iff.mp h)

/-- An idle operation leaves an index of either kind as it is. -/
theorem Index.perform_of_idle {i : Index α} {op : IndexOp α} (h : i.Idle op) :
    i.perform op = i := by
  cases i with
  | bag b =>
    cases op with
    | insert a =>
      have hsame := congrArg Prod.snd (Bag.insert_of_contains h)
      exact congrArg Index.bag hsame
    | remove a =>
      have hsame := congrArg Prod.snd (Bag.remove_of_not_contains h)
      exact congrArg Index.bag hsame
    | clear => exact congrArg Index.bag (if_pos h)
    | sorted op => rfl
  | sorted s =>
    cases op with
    | insert a => exact congrArg Index.sorted (SortedIndex.add_of_contains h)
    | remove a => exact congrArg Index.sorted (SortedIndex.remove_of_not_contains h)
    | clear => exact congrArg Index.sorted (if_pos h)
    | sorted op => exact congrArg Index.sorted (SortedIndex.perform_of_idle h)

end Idle

end SnapshotIndex
