import SnapshotIndex.Proofs.Views.Reading

/-!
# What changes through a range view

A view finds the elements to remove by their indexes in an array that has been
changed, copied or exchanged since the view was made.  Yet whatever is done
through it stays between its bounds: it answers what the elements there say, it
removes none but those, and to the elements outside nothing happens.

A polled element is found by index and left out by what it is, and these two
come to the same in an increasing list (`exists_split_without`).  An added one
stands between the lesser elements and the others, wherever the bounds are
(`exists_split_placed`).  With that an operation leaves the elements outside as
they are (`outside_setPerform`), and so does a run.

* `Confined`: what each operation of a view answers and changes.
* `view_confined`: over every run through a view, captures among it, on an index
  with any past.
-/

namespace SnapshotIndex

/-- The operations that change an index through a view. -/
inductive ViewOp (α : Type)
  | add (a : α)
  | remove (a : α)
  | pollFirst
  | pollLast
  | clear

variable {α : Type}

/-- An operation of a view, as one of the index. -/
def ViewOp.through (v : RangeView α) : ViewOp α → SortedOp α
  | add a => .viewAdd v a
  | remove a => .viewRemove v a
  | pollFirst => .viewPollFirst v
  | pollLast => .viewPollLast v
  | clear => .viewClear v

variable [Identified α] {order : KeyOrder α}

namespace RangeView

/-- Carries out one operation through a view. -/
def perform (v : RangeView α) (s : SortedIndex α) (op : ViewOp α) :
    SortedAnswer α × SortedIndex α :=
  s.perform (op.through v)

/-- The elements of a list that a view does not show. -/
def outside (order : KeyOrder α) (v : RangeView α) (xs : List α) : List α :=
  xs.filter fun a => !v.inRange order a

/-- A poll of one element: it is given back, and the others stay where they are.
If there is none nothing happens at all. -/
structure Polls (shown : Option α) (s : SortedIndex α) (poll : Option α × SortedIndex α) :
    Prop where
  answer : poll.1 = shown
  of_none : shown = none → poll.2 = s
  of_some : ∀ a, shown = some a → ∃ before after,
    s.toList = before ++ a :: after ∧ poll.2.toList = before ++ after

/-- Everything that is done through a view stays between its bounds. -/
structure Confined (order : KeyOrder α) (v : RangeView α) (s : SortedIndex α) : Prop where
  increasing : order.Increasing s.toList
  add_outside : ∀ a, v.inRange order a = false → v.add s a = (.error .keyOutOfRange, s)
  add_inside : ∀ a, v.inRange order a = true → v.add s a = (.ok (s.add a).1, (s.add a).2)
  remove_outside : ∀ a, v.inRange order a = false → v.remove s a = (false, s)
  remove_inside : ∀ a, v.inRange order a = true → v.remove s a = s.remove a
  pollFirst : Polls (v.shown order s.toList).head? s (v.pollFirst s)
  pollLast : Polls (v.shown order s.toList).getLast? s (v.pollLast s)
  clear : (v.clear s).toList = v.outside order s.toList
  /-- The elements outside of the bounds stay, and in the same order. -/
  kept : ∀ op, v.outside order (v.perform s op).2.toList = v.outside order s.toList

end RangeView

/-! ## Lists without or with one more element -/

section Lists

variable {xs : List α} [Std.TransCmp order.keys]

/-- To leave out the elements that are the same as one of an increasing list is
to take this one out. -/
theorem exists_split_without (h : order.Increasing xs) {a : α} (ha : a ∈ xs) :
    ∃ before after, xs = before ++ a :: after ∧
      SortedArray.without order a xs = before ++ after := by
  obtain ⟨before, after, rfl⟩ := List.append_of_mem ha
  refine ⟨before, after, rfl, ?_⟩
  obtain ⟨-, hlater, hless⟩ := List.pairwise_append.mp h
  have hself : order.same a a = true := order.compare_eq_eq_iff.mp (order.compare_self a)
  have hbefore : ∀ b ∈ before, (!order.same b a) = true := by
    intro b hb
    have hlt : order.compare b a = .lt := hless b hb a List.mem_cons_self
    rw [Bool.not_eq_true', ← Bool.not_eq_true, ← order.compare_eq_eq_iff, hlt]
    decide
  have hafter : ∀ b ∈ after, (!order.same b a) = true := by
    intro b hb
    have hlt : order.compare a b = .lt := (List.pairwise_cons.mp hlater).1 b hb
    rw [Bool.not_eq_true', ← Bool.not_eq_true, ← order.compare_eq_eq_iff, order.compare_swap, hlt]
    decide
  rw [SortedArray.without, List.filter_append, List.filter_cons_of_neg (by simp [hself]),
    List.filter_eq_self.mpr hbefore, List.filter_eq_self.mpr hafter]

/-- A new element is put somewhere into an increasing list, which is otherwise
left as it is. -/
theorem exists_split_placed {c : SortedArray α} (h : Shows order c xs) (a : α) :
    ∃ before after, xs = before ++ after ∧
      SortedArray.placed order a xs = before ++ a :: after := by
  obtain ⟨rfl, rfl, hinc⟩ := h
  refine ⟨_, _, (List.take_append_drop (c.search a).index c.toList).symm, ?_⟩
  rw [← SortedArray.Sorted.insertAt_eq_placed hinc, SortedArray.toList_insertAt]

end Lists

/-! ## Outside of the bounds -/

section Outside

variable {v : RangeView α} {xs : List α} [Std.TransCmp order.keys]

theorem outside_without {a : α} (ha : v.inRange order a = true) (xs : List α) :
    v.outside order (SortedArray.without order a xs) = v.outside order xs := by
  unfold RangeView.outside SortedArray.without
  rw [List.filter_filter]
  refine List.filter_congr fun b _ => ?_
  cases hsame : order.same b a with
  | false => simp
  | true =>
    have hb : v.inRange order b = true := (RangeView.inRange_of_same hsame v).trans ha
    simp [hb]

theorem outside_placed {c : SortedArray α} (h : Shows order c xs) {a : α}
    (ha : v.inRange order a = true) :
    v.outside order (SortedArray.placed order a xs) = v.outside order xs := by
  obtain ⟨before, after, hxs, hplaced⟩ := exists_split_placed h a
  unfold RangeView.outside
  rw [hplaced, hxs, List.filter_append, List.filter_cons_of_neg (by simp [ha]),
    ← List.filter_append]

theorem outside_setPoll {a : Option α} (ha : ∀ b, a = some b → b ∈ v.shown order xs) :
    v.outside order (setPoll order xs a).2 = v.outside order xs := by
  cases a with
  | none => rfl
  | some b => exact outside_without (RangeView.mem_shown.mp (ha b rfl)).2 xs

/-- An operation through a view leaves the elements outside as they are. -/
theorem outside_setPerform {c : SortedArray α} (h : Shows order c xs) (op : ViewOp α) :
    v.outside order (setPerform order xs (op.through v)).2 = v.outside order xs := by
  cases op with
  | add a =>
    simp only [ViewOp.through, setPerform]
    split
    · rename_i hin
      unfold setAdd
      dsimp only
      split
      · rfl
      · exact outside_placed h hin
    · rfl
  | remove a =>
    simp only [ViewOp.through, setPerform]
    split
    · rename_i hin
      exact outside_without hin xs
    · rfl
  | pollFirst => exact outside_setPoll fun b hb => List.mem_of_head? hb
  | pollLast => exact outside_setPoll fun b hb => List.mem_of_getLast? hb
  | clear =>
    change v.outside order (v.outside order xs) = v.outside order xs
    unfold RangeView.outside
    rw [List.filter_filter]
    simp only [Bool.and_self]

end Outside

/-! ## One operation -/

namespace Shows

variable {s : SortedIndex α}

/-- An index at which nothing stands removes nothing. -/
theorem pollAt_of_none (h : Shows order s.content s.toList) {i : Option Nat}
    (hi : i.bind (fun i => s.toList[i]?) = none) :
    (match i with
      | none => (none, s)
      | some i => s.removeAt i) = (none, s) := by
  cases i with
  | none => rfl
  | some i =>
    have hout : s.toList.length ≤ i := List.getElem?_eq_none_iff.mp hi
    rw [h.length_eq] at hout
    exact if_neg (Nat.not_lt.mpr hout)

variable [Std.TransCmp order.keys]

theorem polls (h : Shows order s.content s.toList) {i : Option Nat} {shown : Option α}
    {poll : Option α × SortedIndex α} (hpoll : poll = match i with
      | none => (none, s)
      | some i => s.removeAt i)
    (hi : i.bind (fun i => s.toList[i]?) = shown) (hmem : ∀ a, shown = some a → a ∈ s.toList) :
    RangeView.Polls shown s poll := by
  subst hpoll
  obtain ⟨hanswer, hafter⟩ := shows_pollAt h hi
  refine ⟨hanswer, fun hnone => ?_, fun a ha => ?_⟩
  · exact congrArg Prod.snd (h.pollAt_of_none (hi.trans hnone))
  · obtain ⟨before, after, hsplit, hwithout⟩ := exists_split_without h.increasing (hmem a ha)
    refine ⟨before, after, hsplit, ?_⟩
    rw [← hwithout]
    have hlist := hafter.toList_eq
    rw [ha] at hlist
    exact hlist

/-- Each view of an index that shows its elements in increasing order is
confined. -/
theorem confined (h : Shows order s.content s.toList) (v : RangeView α) : v.Confined order s := by
  have horder : s.order = order := h.order_eq
  have hfirst : ∀ a, (v.shown order s.toList).head? = some a → a ∈ s.toList := fun a ha =>
    (RangeView.mem_shown.mp (List.mem_of_head? ha)).1
  have hlast : ∀ a, (v.shown order s.toList).getLast? = some a → a ∈ s.toList := fun a ha =>
    (RangeView.mem_shown.mp (List.mem_of_getLast? ha)).1
  refine
    { increasing := h.increasing
      add_outside := fun a ha => ?_
      add_inside := fun a ha => ?_
      remove_outside := fun a ha => ?_
      remove_inside := fun a ha => ?_
      pollFirst := h.polls rfl (h.firstIndex?_spec v) hfirst
      pollLast := h.polls rfl (h.lastIndex?_spec v) hlast
      clear := (shows_viewClear h v).toList_eq
      kept := fun op => ?_ }
  · rw [RangeView.add, horder, if_neg (by simp [ha])]
  · rw [RangeView.add, horder, if_pos ha]
  · rw [RangeView.remove, horder, if_neg (by simp [ha])]
  · rw [RangeView.remove, horder, if_pos ha]
  · have hafter : (v.perform s op).2.toList = (setPerform order s.toList (op.through v)).2 :=
      (shows_perform s s.toList (op.through v) h).2.toList_eq
    rw [hafter, outside_setPerform h op]

end Shows

/-! ## Runs -/

/-- Whatever an index has gone through, and whatever is then done through one of
its views, with captures anywhere in between: everything through this view stays
between its bounds, and the elements outside are those from before. -/
theorem view_confined (order : KeyOrder α) [Std.TransCmp order.keys]
    (past : List (Interleaved (SortedArray α) (SortedOp α))) (v : RangeView α)
    (ops : List (Interleaved (SortedArray α) (ViewOp α))) :
    let start := SortedIndex.reached order past
    let s : SortedIndex α := (runAll (Tracked.interleave v.perform) start ops).2
    v.Confined order s ∧ v.outside order s.toList = v.outside order start.toList := by
  intro start s
  let Inv (t : SortedIndex α) : Prop := Shows order t.content t.toList ∧
    v.outside order t.toList = v.outside order start.toList
  have hstep : ∀ t op, Inv t → Inv (t.interleave v.perform op).2 := by
    rintro t op ⟨hshows, hsame⟩
    cases op with
    | act op =>
      exact ⟨shows_interleave hshows (.act (op.through v)),
        ((hshows.confined v).kept op).trans hsame⟩
    | hold x =>
      refine ⟨shows_interleave hshows (.hold x), ?_⟩
      rwa [Tracked.interleave, SortedIndex.toList, t.content_hold x]
    | release x =>
      refine ⟨shows_interleave hshows (.release x), ?_⟩
      rwa [Tracked.interleave, SortedIndex.toList, t.content_release x]
  have hend : Inv s := runAll_invariant hstep ⟨shows_reached order past, rfl⟩ ops
  exact ⟨hend.1.confined v, hend.2⟩

/-- Two records are left outside of a view that is cleared while its index is
captured. -/
theorem view_confined_bucket :
    Std.TransCmp RecordOrder.bucket.keyOrder.keys ∧
      let past : List (Interleaved (SortedArray Record) (SortedOp Record)) :=
        [.act (.add ⟨⟨2⟩, 11, ⟨1⟩, ""⟩), .act (.add ⟨⟨7⟩, 14, ⟨1⟩, ""⟩),
          .act (.add ⟨⟨3⟩, 25, ⟨1⟩, ""⟩)]
      let v : RangeView Record := ⟨.unbounded, .excluding ⟨⟨7⟩, 15, ⟨1⟩, ""⟩, true⟩
      let s : SortedIndex Record := (runAll (Tracked.interleave v.perform)
        (SortedIndex.reached RecordOrder.bucket.keyOrder past)
        [.hold ⟨0⟩, .act .clear, .act (.add ⟨⟨4⟩, 25, ⟨1⟩, ""⟩)]).2
      v.Confined RecordOrder.bucket.keyOrder s ∧
        v.outside RecordOrder.bucket.keyOrder s.toList =
          [⟨⟨7⟩, 14, ⟨1⟩, ""⟩, ⟨⟨3⟩, 25, ⟨1⟩, ""⟩] := by
  refine ⟨inferInstance, ?_⟩
  intro past v s
  obtain ⟨hconfined, hkept⟩ := view_confined RecordOrder.bucket.keyOrder past v
    [.hold ⟨0⟩, .act .clear, .act (.add ⟨⟨4⟩, 25, ⟨1⟩, ""⟩)]
  exact ⟨hconfined, hkept.trans rfl⟩

end SnapshotIndex
