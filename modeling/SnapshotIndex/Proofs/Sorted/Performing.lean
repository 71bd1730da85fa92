import SnapshotIndex.Proofs.Sorted.Shows

/-!
# Operations of sorted indexes and of sets

Each operation of an index comes down to one of the changes by index that
arrays and lists undergo together.

* `shows_perform`: an index and a set answer alike at every operation, through
  views as well, and stay related.
* `shows_performArray`: the same of an array.
-/

namespace SnapshotIndex

variable {α : Type} [Identified α] {order : KeyOrder α}

/-! ## Sieves -/

section Sieve

variable {σ α : Type} (sieve : Sieve σ α)

theorem strain_sublist (xs : List α) (state : σ) : (sieve.strain xs state).1.Sublist xs := by
  induction xs generalizing state with
  | nil => exact List.Sublist.slnil
  | cons a rest ih =>
    simp only [Sieve.strain]
    split
    · exact (ih _).cons_cons a
    · exact (ih _).cons a

variable {sieve} in
theorem firstRefused_cons_false {a : α} {state next : σ} (h : sieve a state = (false, next))
    (rest : List α) : sieve.firstRefused (a :: rest) state = (some 0, next) := by
  rw [Sieve.firstRefused, h]

variable {sieve} in
theorem firstRefused_cons_true {a : α} {state next : σ} (h : sieve a state = (true, next))
    (rest : List α) : sieve.firstRefused (a :: rest) state =
      ((sieve.firstRefused rest next).1.map (· + 1), (sieve.firstRefused rest next).2) := by
  rw [Sieve.firstRefused, h]

theorem strain_of_firstRefused_none {xs : List α} {state : σ}
    (h : (sieve.firstRefused xs state).1 = none) :
    sieve.strain xs state = (xs, (sieve.firstRefused xs state).2) := by
  induction xs generalizing state with
  | nil => rfl
  | cons a rest ih =>
    rcases hasked : sieve a state with ⟨_ | _, next⟩
    · rw [firstRefused_cons_false hasked] at h
      exact absurd h (Option.some_ne_none 0)
    · rw [firstRefused_cons_true hasked] at h ⊢
      have hrest := ih (Option.map_eq_none_iff.mp h)
      simp only [Sieve.strain, hasked, hrest, if_true]

theorem length_strain_lt {xs : List α} {state : σ} {refused : Nat}
    (h : (sieve.firstRefused xs state).1 = some refused) :
    (sieve.strain xs state).1.length < xs.length := by
  induction xs generalizing state refused with
  | nil => exact absurd h.symm (Option.some_ne_none refused)
  | cons a rest ih =>
    simp only [Sieve.strain]
    rcases hasked : sieve a state with ⟨_ | _, next⟩
    · exact Nat.lt_succ_of_le (strain_sublist sieve rest next).length_le
    · rw [firstRefused_cons_true hasked] at h
      obtain ⟨i, hi, -⟩ := Option.map_eq_some_iff.mp h
      exact Nat.succ_lt_succ (ih hi)

/-- After the element that was refused a resumed sieve is the sieve itself. -/
theorem strain_resume_after (xs : List α) (state : σ) {refused index : Nat}
    (hafter : refused < index) : (sieve.resume refused).strain xs (index, state) =
      ((sieve.strain xs state).1, (index + xs.length, (sieve.strain xs state).2)) := by
  induction xs generalizing state index with
  | nil => rfl
  | cons a rest ih =>
    have hasks : sieve.resume refused a (index, state) =
        ((sieve a state).1, (index + 1, (sieve a state).2)) := by
      rw [Sieve.resume, Nat.compare_eq_gt.mpr hafter]
    have hlater : refused < index + 1 := Nat.lt_succ_of_lt hafter
    simp only [Sieve.strain, hasks, ih _ hlater, List.length_cons, Nat.add_assoc, Nat.add_comm 1]

/-- Resumed where it has been asked up to the first refusal, a sieve ends as if it
had been asked about everything once. -/
theorem strain_resume {xs : List α} {state : σ} {refused : Nat}
    (h : (sieve.firstRefused xs state).1 = some refused) (index : Nat) :
    (sieve.resume (index + refused)).strain xs (index, (sieve.firstRefused xs state).2) =
      ((sieve.strain xs state).1, (index + xs.length, (sieve.strain xs state).2)) := by
  induction xs generalizing state refused index with
  | nil => exact absurd h.symm (Option.some_ne_none refused)
  | cons a rest ih =>
    rcases hasked : sieve a state with ⟨_ | _, next⟩
    · -- this is the element that was refused
      rw [firstRefused_cons_false hasked] at h ⊢
      obtain rfl : 0 = refused := Option.some.inj h
      rw [Nat.add_zero]
      have hknown : sieve.resume index a (index, next) = (false, (index + 1, next)) := by
        rw [Sieve.resume, Nat.compare_eq_eq.mpr rfl]
      have hlater := strain_resume_after sieve rest next (show index < index + 1 by omega)
      simp only [Sieve.strain, hknown, hasked, hlater, List.length_cons, Nat.add_assoc,
        Nat.add_comm 1]
    · -- this one has passed, and the one that was refused is among the rest
      rw [firstRefused_cons_true hasked] at h ⊢
      obtain ⟨i, hi, rfl⟩ := Option.map_eq_some_iff.mp h
      have hknown : ∀ m, sieve.resume (index + (i + 1)) a (index, m) = (true, (index + 1, m)) := by
        intro m
        rw [Sieve.resume, Nat.compare_eq_lt.mpr (by omega)]
      have hlater := ih hi (index + 1)
      rw [Nat.add_assoc, Nat.add_comm 1 i] at hlater
      simp only [Sieve.strain, hknown, hasked, hlater, List.length_cons, Nat.add_assoc,
        Nat.add_comm 1]

end Sieve

/-! ## The operations of an index -/

section Index

variable {s : SortedIndex α} {xs : List α}

theorem shows_clear (h : Shows order s.content xs) : Shows order s.clear.content [] := by
  unfold SortedIndex.clear
  split
  · rename_i hempty
    have hnil : xs = [] := by
      rw [← List.length_eq_zero_iff, h.length_eq]
      simpa [SortedIndex.isEmpty, SortedArray.isEmpty] using hempty
    exact hnil ▸ h
  · have hfresh : s.content.clear = .empty s.order := rfl
    have hcontent : (s.renew SortedArray.clear (.empty s.order)).content = .empty s.order := by
      simp only [Tracked.renew, Tracked.content]
      split <;> simp [← hfresh, Tracked.content]
    rw [hcontent]
    exact ⟨h.order_eq, rfl, List.Pairwise.nil⟩

theorem shows_countEach {op : SortedIndex α → α → Bool × SortedIndex α}
    {setOp : List α → α → Bool × List α}
    (hop : ∀ {s xs} a, Shows order s.content xs →
      (op s a).1 = (setOp xs a).1 ∧ Shows order (op s a).2.content (setOp xs a).2)
    (as : List α) (h : Shows order s.content xs) :
    (SortedIndex.countEach op as s).1 = (setCountEach setOp as xs).1 ∧
      Shows order (SortedIndex.countEach op as s).2.content (setCountEach setOp as xs).2 := by
  induction as generalizing s xs with
  | nil => exact ⟨rfl, h⟩
  | cons a rest ih =>
    obtain ⟨hdone, hshows⟩ := hop a h
    obtain ⟨hcount, hend⟩ := ih hshows
    simp only [SortedIndex.countEach, setCountEach]
    rw [hdone, hcount]
    exact ⟨rfl, hend⟩

omit [Identified α] in
/-- To retain what passes a sieve is to strain all elements once, and to edit the
index if this leaves some out. -/
theorem SortedIndex.retain_eq (s : SortedIndex α) {σ : Type} (sieve : Sieve σ α) (state : σ) :
    s.retain sieve state =
      (if (sieve.strain s.toList state).1.length = s.size then (0, s)
        else (s.size - (sieve.strain s.toList state).1.length,
          s.edit fun xs => { xs with items := (sieve.strain s.toList state).1.toArray }),
        (sieve.strain s.toList state).2) := by
  have hsize : s.toList.length = s.size := s.content.length_toList
  unfold retain
  rcases hasked : sieve.firstRefused s.toList state with ⟨_ | refused, state'⟩
  · have hnone := strain_of_firstRefused_none sieve (congrArg Prod.fst hasked)
    rw [hnone, if_pos hsize, hasked]
  · have hless := length_strain_lt sieve (congrArg Prod.fst hasked)
    have hresumed := strain_resume sieve (congrArg Prod.fst hasked) 0
    rw [Nat.zero_add, hasked] at hresumed
    have hretain : s.content.retain (sieve.resume refused) (0, state') =
        ((s.size - (sieve.strain s.toList state).1.length,
          { s.content with items := (sieve.strain s.toList state).1.toArray }),
          (0 + s.toList.length, (sieve.strain s.toList state).2)) := by
      unfold SortedArray.retain
      rw [show s.content.toList = s.toList from rfl, hresumed]
      rfl
    rw [if_neg (by omega)]
    simp only [hretain]
    refine Prod.ext (Prod.ext rfl (Tracked.edit_congr ?_)) rfl
    rw [hretain]

section Retain

variable {σ : Type} (s : SortedIndex α) (sieve : Sieve σ α) (state : σ)

omit [Identified α]

theorem SortedIndex.removed_retain :
    (s.retain sieve state).1.1 = s.toList.length - (sieve.strain s.toList state).1.length := by
  have hsize : s.toList.length = s.size := s.content.length_toList
  rw [s.retain_eq]
  split
  · rename_i hall
    rw [hall, hsize]
    exact (Nat.sub_self _).symm
  · rw [hsize]

theorem SortedIndex.memory_retain :
    (s.retain sieve state).2 = (sieve.strain s.toList state).2 := by
  rw [s.retain_eq]

theorem SortedIndex.order_retain : (s.retain sieve state).1.2.order = s.order := by
  rw [s.retain_eq]
  split
  · rfl
  · simp only [order, Tracked.content_edit]

theorem SortedIndex.toList_retain :
    (s.retain sieve state).1.2.toList = (sieve.strain s.toList state).1 := by
  have hsize : s.toList.length = s.size := s.content.length_toList
  rw [s.retain_eq]
  split
  · rename_i hall
    exact ((strain_sublist sieve s.toList state).eq_of_length (hall.trans hsize.symm)).symm
  · simp only [toList, Tracked.content_edit, SortedArray.toList]

end Retain

theorem shows_retain {σ : Type} (h : Shows order s.content xs) (sieve : Sieve σ α) (state : σ) :
    (s.retain sieve state).1.1 = xs.length - (sieve.strain xs state).1.length ∧
      (s.retain sieve state).2 = (sieve.strain xs state).2 ∧
      Shows order (s.retain sieve state).1.2.content (sieve.strain xs state).1 := by
  obtain ⟨horder, rfl, hinc⟩ := h
  exact ⟨s.removed_retain sieve state, s.memory_retain sieve state,
    (s.order_retain sieve state).trans horder, s.toList_retain sieve state,
    hinc.sublist (strain_sublist sieve _ state)⟩

theorem without_of_none {a : α} (h : xs.any (order.same · a) = false) :
    SortedArray.without order a xs = xs := by
  rw [SortedArray.without, List.filter_eq_self]
  intro b hb
  have := List.any_eq_false.mp h b hb
  simpa using this

variable [Std.TransCmp order.keys]

/-- To remove an index is to remove the element there, if there is one. -/
theorem shows_removeAt (h : Shows order s.content xs) (i : Nat) :
    (s.removeAt i).1 = xs[i]? ∧
      Shows order (s.removeAt i).2.content (setPoll order xs xs[i]?).2 := by
  have hlength := h.length_eq
  unfold SortedIndex.removeAt
  by_cases hi : i < s.size
  · rw [if_pos hi]
    obtain ⟨b, hb⟩ : ∃ b, xs[i]? = some b :=
      ⟨_, List.getElem?_eq_getElem (by rw [hlength]; exact hi)⟩
    refine ⟨?_, ?_⟩
    · rw [SortedArray.get?_eq, h.toList_eq]
    · rw [hb, Tracked.content_edit]
      exact h.removeAt hb (order.compare_eq_eq_iff.mp (order.compare_self b))
  · rw [if_neg hi]
    have hnone : xs[i]? = none := List.getElem?_eq_none (by
      rw [hlength]
      exact Nat.le_of_not_lt hi)
    rw [hnone]
    exact ⟨rfl, h⟩

theorem shows_add (h : Shows order s.content xs) (a : α) :
    (s.add a).1 = (setAdd order xs a).1 ∧
      Shows order (s.add a).2.content (setAdd order xs a).2 := by
  have hfound := h.isFound_search a
  unfold SortedIndex.add setAdd
  cases hsearch : s.content.search a with
  | found i =>
    rw [hsearch] at hfound
    rw [← hfound]
    exact ⟨rfl, h⟩
  | missing i =>
    rw [hsearch] at hfound
    rw [← hfound]
    refine ⟨rfl, ?_⟩
    simp only [Search.isFound, Tracked.content_edit]
    exact h.insertAt hsearch

theorem shows_remove (h : Shows order s.content xs) (a : α) :
    (s.remove a).1 = (setRemove order xs a).1 ∧
      Shows order (s.remove a).2.content (setRemove order xs a).2 := by
  have hfound := h.isFound_search a
  unfold SortedIndex.remove setRemove
  cases hsearch : s.content.search a with
  | found i =>
    rw [hsearch] at hfound
    rw [← hfound]
    obtain ⟨b, hb, hsame⟩ := SortedArray.search_eq_found hsearch
    rw [h.order_eq] at hsame
    rw [h.toList_eq] at hb
    have hi : i < s.size := by
      have hlength : xs.length = s.size := h.length_eq
      rw [← hlength]
      exact (List.getElem?_eq_some_iff.mp hb).1
    simp only [SortedIndex.removeAt, if_pos hi, SortedArray.get?_eq, h.toList_eq, hb,
      Tracked.content_edit]
    exact ⟨rfl, h.removeAt hb hsame⟩
  | missing i =>
    rw [hsearch] at hfound
    rw [← hfound]
    refine ⟨rfl, ?_⟩
    rw [without_of_none hfound.symm]
    exact h

/-- A view that removes an index removes the element that it shows there. -/
theorem shows_pollAt (h : Shows order s.content xs) {i : Option Nat} {a : Option α}
    (hi : i.bind (fun i => xs[i]?) = a) :
    (match i with
      | none => (none, s)
      | some i => s.removeAt i).1 = a ∧
      Shows order (match i with
        | none => (none, s)
        | some i => s.removeAt i).2.content (setPoll order xs a).2 := by
  subst hi
  cases i with
  | none => exact ⟨rfl, h⟩
  | some i => exact shows_removeAt h i

theorem shows_viewClear (h : Shows order s.content xs) (v : RangeView α) :
    Shows order (v.clear s).content (xs.filter fun a => !v.inRange order a) := by
  obtain ⟨hle, hsize⟩ := h.span_le v
  have hspan := h.dropSpan v
  have hlist := hspan.toList_eq
  rw [SortedArray.toList_dropSpan, h.toList_eq] at hlist
  unfold RangeView.clear SortedIndex.removeSpan
  split
  · rename_i hempty
    have hsame : (v.span s.content).start = (v.span s.content).stop := by
      simp only [Span.isEmpty, decide_eq_true_eq] at hempty
      omega
    rw [← hlist, hsame, List.take_append_drop]
    exact h
  · split
    · -- the span is that of the whole index
      rename_i hwhole
      have hlength : xs.length = s.size := h.length_eq
      simp only [Span.size] at hwhole
      have hstart : (v.span s.content).start = 0 := by omega
      have hstop : (v.span s.content).stop = xs.length := by omega
      rw [← hlist, hstart, hstop, List.take_zero, List.drop_length]
      exact shows_clear h
    · rw [Tracked.content_edit]
      exact hspan

/-- At one operation an index and its set answer alike and stay related. -/
theorem shows_perform (s : SortedIndex α) (xs : List α) (op : SortedOp α)
    (h : Shows order s.content xs) :
    (s.perform op).1 = (setPerform order xs op).1 ∧
      Shows order (s.perform op).2.content (setPerform order xs op).2 := by
  cases op with
  | add a =>
    obtain ⟨hanswer, hshows⟩ := shows_add h a
    exact ⟨congrArg SortedAnswer.changed hanswer, hshows⟩
  | remove a =>
    obtain ⟨hanswer, hshows⟩ := shows_remove h a
    exact ⟨congrArg SortedAnswer.changed hanswer, hshows⟩
  | pollFirst =>
    obtain ⟨hanswer, hshows⟩ := shows_removeAt h 0
    rw [← List.head?_eq_getElem?] at hanswer hshows
    exact ⟨congrArg SortedAnswer.element hanswer, hshows⟩
  | pollLast =>
    have hsize : s.size = xs.length := h.length_eq.symm
    simp only [SortedIndex.perform, setPerform, SortedIndex.pollLast, hsize,
      List.getLast?_eq_getElem?]
    by_cases hempty : xs.length = 0
    · obtain rfl : xs = [] := List.length_eq_zero_iff.mp hempty
      exact ⟨rfl, h⟩
    · rw [if_neg hempty]
      obtain ⟨hanswer, hshows⟩ := shows_removeAt h (xs.length - 1)
      exact ⟨congrArg SortedAnswer.element hanswer, hshows⟩
  | retain sieve state =>
    obtain ⟨hremoved, hstate, hshows⟩ := shows_retain h sieve state
    refine ⟨?_, hshows⟩
    simp only [SortedIndex.perform, setPerform, setRetain, hremoved, hstate]
  | addAll as =>
    obtain ⟨hcount, hshows⟩ := shows_countEach (fun a h => shows_add h a) as h
    exact ⟨congrArg SortedAnswer.counted hcount, hshows⟩
  | removeAll as =>
    obtain ⟨hcount, hshows⟩ := shows_countEach (fun a h => shows_remove h a) as h
    exact ⟨congrArg SortedAnswer.counted hcount, hshows⟩
  | clear => exact ⟨rfl, shows_clear h⟩
  | viewAdd v a =>
    have horder : s.order = order := h.order_eq
    simp only [SortedIndex.perform, setPerform, RangeView.add, horder]
    split
    · obtain ⟨hanswer, hshows⟩ := shows_add h a
      rw [hanswer]
      exact ⟨rfl, hshows⟩
    · exact ⟨rfl, h⟩
  | viewRemove v a =>
    have horder : s.order = order := h.order_eq
    simp only [SortedIndex.perform, setPerform, RangeView.remove, horder]
    split
    · obtain ⟨hanswer, hshows⟩ := shows_remove h a
      rw [hanswer]
      exact ⟨rfl, hshows⟩
    · exact ⟨rfl, h⟩
  | viewPollFirst v =>
    obtain ⟨hanswer, hshows⟩ := shows_pollAt h (h.firstIndex?_spec v)
    exact ⟨congrArg SortedAnswer.element hanswer, hshows⟩
  | viewPollLast v =>
    obtain ⟨hanswer, hshows⟩ := shows_pollAt h (h.lastIndex?_spec v)
    exact ⟨congrArg SortedAnswer.element hanswer, hshows⟩
  | viewClear v => exact ⟨rfl, shows_viewClear h v⟩

end Index

/-! ## The operations of an array -/

section Array

variable {c : SortedArray α} {xs : List α} [Std.TransCmp order.keys]

/-- At one operation an array and its set answer alike and stay related. -/
theorem shows_performArray (c : SortedArray α) (xs : List α) (op : ArrayOp α)
    (h : Shows order c xs) :
    (c.perform op).1 = (setPerformArray order xs op).1 ∧
      Shows order (c.perform op).2 (setPerformArray order xs op).2 := by
  cases op with
  | add a =>
    have hfound := h.isFound_search a
    simp only [SortedArray.perform, setPerformArray, SortedArray.add, setAdd]
    cases hsearch : c.search a with
    | found i =>
      rw [hsearch] at hfound
      rw [← hfound]
      exact ⟨rfl, h⟩
    | missing i =>
      rw [hsearch] at hfound
      rw [← hfound]
      exact ⟨rfl, h.insertAt hsearch⟩
  | remove a =>
    have hfound := h.isFound_search a
    simp only [SortedArray.perform, setPerformArray, SortedArray.remove, setRemove]
    cases hsearch : c.search a with
    | found i =>
      obtain ⟨b, hb, hsame⟩ := SortedArray.search_eq_found hsearch
      rw [h.order_eq] at hsame
      rw [h.toList_eq] at hb
      refine ⟨?_, h.removeAt hb hsame⟩
      have hone := h.find?_same hb hsame
      rw [hone, ← hb]
      simp [SortedArray.removeAt, SortedArray.get?_eq, h.toList_eq]
    | missing i =>
      rw [hsearch] at hfound
      refine ⟨?_, ?_⟩
      · have hnone : xs.find? (order.same · a) = none := by
          rw [List.find?_eq_none]
          exact List.any_eq_false.mp hfound.symm
        rw [hnone]
      · rw [without_of_none hfound.symm]
        exact h
  | removeAt i =>
    have hlist : (c.removeAt i).2.toList = xs.eraseIdx i := by
      rw [SortedArray.toList_removeAt, h.toList_eq]
    refine ⟨?_, h.order_eq, hlist, h.increasing.sublist (List.eraseIdx_sublist xs i)⟩
    simp [SortedArray.perform, setPerformArray, SortedArray.removeAt, SortedArray.get?_eq,
      h.toList_eq]
  | removeSpan s =>
    have hlist : (c.dropSpan s).toList = xs.take s.start ++ xs.drop s.stop := by
      rw [SortedArray.toList_dropSpan, h.toList_eq]
    simp only [SortedArray.perform, setPerformArray, SortedArray.removeSpan?, ← h.length_eq]
    by_cases hspan : s.start ≤ s.stop ∧ s.stop ≤ xs.length
    · rw [if_pos hspan, if_pos hspan]
      have hsub : (xs.take s.start ++ xs.drop s.stop).Sublist xs := by
        conv_rhs => rw [← List.take_append_drop s.start xs]
        exact (List.Sublist.refl _).append (List.drop_sublist_drop_left xs hspan.1)
      exact ⟨rfl, h.order_eq, hlist, h.increasing.sublist hsub⟩
    · rw [if_neg hspan, if_neg hspan]
      exact ⟨rfl, h⟩
  | retain sieve state =>
    have hsub := strain_sublist sieve xs state
    simp only [SortedArray.perform, setPerformArray, setRetain, SortedArray.retain, h.toList_eq,
      ← h.length_eq]
    exact ⟨trivial, h.order_eq, rfl, h.increasing.sublist hsub⟩
  | clear => exact ⟨rfl, h.order_eq, rfl, List.Pairwise.nil⟩

end Array

end SnapshotIndex
