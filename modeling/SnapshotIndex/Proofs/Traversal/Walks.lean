import SnapshotIndex.Proofs.Traversal.Chain
import SnapshotIndex.Proofs.Traversal.ListHandles
import SnapshotIndex.Snapshot.Walk

/-!
# Walks are walks over a list

A walk goes over a chain of places and keeps the places at both ends of what
is left.  `WalkShows` says which list that is.  Whatever is taken, from either
end and in whatever order, is what one takes from the list, and the rest of
the walk is the rest of the list.
-/

namespace SnapshotIndex

variable {σ α : Type} [Positional σ α]

/-- A walk has the elements of a list left. -/
structure WalkShows (w : Walk σ) (content : σ) (l : ListWalk α) : Prop where
  remaining_eq : w.remaining = l.left.length
  descending_eq : w.descending = l.descending
  chain : ∃ places, Chain content places l.left ∧
    (∀ p, places.head? = some p → w.front = .nth p) ∧
    ∀ p, places.getLast? = some p → w.back = .nth p

namespace WalkShows

variable {w : Walk σ} {content : σ} {l : ListWalk α}

/-- A walk over a window has all its elements left. -/
theorem of_window {places : List Nat} {xs : List α}
    (h : Window content w.front w.back places xs) (hsize : w.remaining = xs.length) :
    WalkShows w content ⟨xs, w.descending⟩ :=
  ⟨hsize, rfl, places, h.toChain, h.first_eq, h.last_eq⟩

theorem reversed (h : WalkShows w content l) : WalkShows w.reversed content l.reversed :=
  ⟨h.remaining_eq, congrArg (!·) h.descending_eq, h.chain⟩

theorem takeLow (h : WalkShows w content l) :
    (w.takeLow content).1 = l.takeLow.1 ∧
      WalkShows (w.takeLow content).2 content l.takeLow.2 := by
  obtain ⟨hsize, hdesc, places, hchain, hfront, hback⟩ := h
  obtain ⟨left, descending⟩ := l
  have hlength := hchain.length_eq
  cases places with
  | nil =>
    obtain rfl : left = [] := List.length_eq_zero_iff.mp hlength.symm
    have hnone : w.takeLow content = (none, w) := if_pos hsize
    rw [hnone]
    exact ⟨rfl, hsize, hdesc, [], hchain, hfront, hback⟩
  | cons p rest =>
    cases left with
    | nil => simp at hlength
    | cons a others =>
      have hget : Positional.get? content w.front = some a := by
        rw [hfront p rfl]
        exact hchain.get?_head rfl
      have hrest := hchain.tail
      have hremaining : w.remaining = others.length + 1 := hsize
      unfold Walk.takeLow
      rw [if_neg (by omega), hget]
      -- the front moves on unless it has just given the last element
      refine ⟨rfl, by simp [hremaining, ListWalk.takeLow], hdesc, rest, hrest, ?_, ?_⟩
      · intro q hq
        cases rest with
        | nil => simp at hq
        | cons r more =>
          obtain rfl : r = q := by simpa using hq
          have hothers : others.length = more.length + 1 := by
            simpa using hlength.symm
          dsimp only
          rw [if_neg (by omega), hfront p rfl]
          exact hchain.next_eq 0 p r rfl rfl
      · intro q hq
        refine hback q ?_
        rw [List.getLast?_cons, hq]
        rfl

theorem takeHigh (h : WalkShows w content l) :
    (w.takeHigh content).1 = l.takeHigh.1 ∧
      WalkShows (w.takeHigh content).2 content l.takeHigh.2 := by
  obtain ⟨hsize, hdesc, places, hchain, hfront, hback⟩ := h
  obtain ⟨left, descending⟩ := l
  have hlength := hchain.length_eq
  by_cases hempty : places = []
  · subst hempty
    obtain rfl : left = [] := List.length_eq_zero_iff.mp hlength.symm
    have hnone : w.takeHigh content = (none, w) := if_pos hsize
    rw [hnone]
    exact ⟨rfl, hsize, hdesc, [], hchain, hfront, hback⟩
  · have hpos : 0 < places.length := List.length_pos_iff.mpr hempty
    obtain ⟨p, hp⟩ : ∃ p, places.getLast? = some p :=
      ⟨_, List.getLast?_eq_some_getLast hempty⟩
    have hlast : places[places.length - 1]? = some p := by
      rw [← List.getLast?_eq_getElem?, hp]
    obtain ⟨a, ha⟩ : ∃ a, left.getLast? = some a := by
      have hne : left ≠ [] := List.length_pos_iff.mp (by
        rw [← hlength]
        exact hpos)
      exact ⟨_, List.getLast?_eq_some_getLast hne⟩
    have hget : Positional.get? content w.back = some a := by
      rw [hback p hp, hchain.get?_last hp]
      exact ha
    have hremaining : w.remaining = places.length := hsize.trans hlength.symm
    have hshort : places.dropLast.length = places.length - 1 := List.length_dropLast
    unfold Walk.takeHigh
    rw [if_neg (by omega), hget]
    refine ⟨ha.symm, ?_, hdesc, places.dropLast, hchain.dropLast, ?_, ?_⟩
    · simp [hremaining, ListWalk.takeHigh, hlength]
    · intro q hq
      refine hfront q ?_
      rw [List.head?_eq_getElem?, List.getElem?_dropLast] at hq
      split at hq
      · rw [List.head?_eq_getElem?, hq]
      · simp at hq
    · -- the back moves to the place before, unless nothing is left
      intro q hq
      rw [List.getLast?_eq_getElem?, hshort, List.getElem?_dropLast] at hq
      split at hq
      · rename_i hmany
        have hstep : places[places.length - 1 - 1 + 1]? = some p := by
          rw [Nat.sub_add_cancel (by omega), hlast]
        dsimp only
        rw [if_neg (by omega), hback p hp]
        exact hchain.prev_eq _ q p hq hstep
      · simp at hq

theorem next (h : WalkShows w content l) :
    (w.next content).1 = l.next.1 ∧ WalkShows (w.next content).2 content l.next.2 := by
  unfold Walk.next ListWalk.next
  rw [h.descending_eq]
  split
  · exact h.takeHigh
  · exact h.takeLow

theorem nextBack (h : WalkShows w content l) :
    (w.nextBack content).1 = l.nextBack.1 ∧
      WalkShows (w.nextBack content).2 content l.nextBack.2 := by
  unfold Walk.nextBack ListWalk.nextBack
  rw [h.descending_eq]
  split
  · exact h.takeLow
  · exact h.takeHigh

/-! ## Draining a walk -/

/-- Steps that take the lowest element take the whole list, if there are enough
of them. -/
theorem drain_low {step : Walk σ → σ → Option α × Walk σ} {down : Bool}
    (hstep : ∀ {w : Walk σ} {l : ListWalk α}, WalkShows w content l → l.descending = down →
      (step w content).1 = l.takeLow.1 ∧ WalkShows (step w content).2 content l.takeLow.2)
    (steps : Nat) (h : WalkShows w content l) (hdown : l.descending = down)
    (hsteps : l.left.length = steps) :
    (Walk.drainWith step content steps w).1 = l.left ∧
      WalkShows (Walk.drainWith step content steps w).2 content { l with left := [] } := by
  induction steps generalizing w l with
  | zero =>
    obtain ⟨left, descending⟩ := l
    obtain rfl : left = [] := List.length_eq_zero_iff.mp hsteps
    exact ⟨rfl, h⟩
  | succ steps ih =>
    obtain ⟨hanswer, hshows⟩ := hstep h hdown
    unfold Walk.drainWith
    rcases hdone : step w content with ⟨taken, w'⟩
    rw [hdone] at hanswer hshows
    obtain ⟨left, descending⟩ := l
    obtain ⟨a, others, rfl⟩ := List.exists_cons_of_length_eq_add_one hsteps
    obtain rfl : taken = some a := hanswer
    obtain ⟨hrest, hend⟩ := ih hshows hdown (by simpa [ListWalk.takeLow] using hsteps)
    exact ⟨congrArg (a :: ·) hrest, hend⟩

/-- Steps that take the highest element take it backwards. -/
theorem drain_high {step : Walk σ → σ → Option α × Walk σ} {down : Bool}
    (hstep : ∀ {w : Walk σ} {l : ListWalk α}, WalkShows w content l → l.descending = down →
      (step w content).1 = l.takeHigh.1 ∧ WalkShows (step w content).2 content l.takeHigh.2)
    (steps : Nat) (h : WalkShows w content l) (hdown : l.descending = down)
    (hsteps : l.left.length = steps) :
    (Walk.drainWith step content steps w).1 = l.left.reverse ∧
      WalkShows (Walk.drainWith step content steps w).2 content { l with left := [] } := by
  induction steps generalizing w l with
  | zero =>
    obtain ⟨left, descending⟩ := l
    obtain rfl : left = [] := List.length_eq_zero_iff.mp hsteps
    exact ⟨rfl, h⟩
  | succ steps ih =>
    obtain ⟨hanswer, hshows⟩ := hstep h hdown
    unfold Walk.drainWith
    rcases hdone : step w content with ⟨taken, w'⟩
    rw [hdone] at hanswer hshows
    have hne : l.left ≠ [] := List.ne_nil_of_length_eq_add_one hsteps
    obtain rfl : taken = some (l.left.getLast hne) :=
      hanswer.trans (List.getLast?_eq_some_getLast hne)
    obtain ⟨hrest, hend⟩ := ih hshows hdown (by simp [ListWalk.takeHigh, hsteps])
    refine ⟨?_, hend⟩
    have hsplit : l.left.reverse = l.left.getLast hne :: l.left.dropLast.reverse := by
      rw [← List.reverse_concat, List.dropLast_concat_getLast hne]
    rw [hsplit]
    exact congrArg (l.left.getLast hne :: ·) hrest

theorem rest (h : WalkShows w content l) :
    (w.rest content).1 = l.rest.1 ∧ WalkShows (w.rest content).2 content l.rest.2 := by
  obtain ⟨left, descending⟩ := l
  -- the direction stays, so each step takes from the same end
  cases descending with
  | true =>
    refine drain_high (fun hv hm => ?_) w.remaining h rfl h.remaining_eq.symm
    have hone := hv.next
    unfold ListWalk.next at hone
    rwa [hm] at hone
  | false =>
    refine drain_low (fun hv hm => ?_) w.remaining h rfl h.remaining_eq.symm
    have hone := hv.next
    unfold ListWalk.next at hone
    rwa [hm] at hone

theorem restBack (h : WalkShows w content l) :
    (w.restBack content).1 = l.restBack.1 ∧
      WalkShows (w.restBack content).2 content l.restBack.2 := by
  obtain ⟨left, descending⟩ := l
  cases descending with
  | true =>
    refine drain_low (fun hv hm => ?_) w.remaining h rfl h.remaining_eq.symm
    have hone := hv.nextBack
    unfold ListWalk.nextBack at hone
    rwa [hm] at hone
  | false =>
    refine drain_high (fun hv hm => ?_) w.remaining h rfl h.remaining_eq.symm
    have hone := hv.nextBack
    unfold ListWalk.nextBack at hone
    rwa [hm] at hone

/-- Any number of steps take as many elements, as long as there are some left. -/
theorem drain_next (h : WalkShows w content l) (steps : Nat) :
    (Walk.drainWith Walk.next content steps w).1 = l.rest.1.take steps := by
  induction steps generalizing w l with
  | zero => rfl
  | succ steps ih =>
    obtain ⟨hanswer, hshows⟩ := h.next
    unfold Walk.drainWith
    rcases hdone : w.next content with ⟨taken, w'⟩
    rw [hdone] at hanswer hshows
    obtain rfl : taken = l.rest.1.head? := hanswer.trans l.next_eq_head?
    have htail := ih hshows
    rw [l.rest_next] at htail
    cases hleft : l.rest.1 with
    | nil => rfl
    | cons a later =>
      rw [hleft] at htail
      exact congrArg (a :: ·) htail

end WalkShows

end SnapshotIndex
