import SnapshotIndex.Proofs.Traversal.Chain
import SnapshotIndex.Proofs.Traversal.ListHandles
import SnapshotIndex.Snapshot.Cursor

/-!
# Cursors are cursors over a list

A cursor moves inside a window.  `CursorShows` says which list the window
holds and on which element of it the cursor stands, and every move leads to
where the same move leads in the list.  So the places that a cursor comes
across, which depend on the layout of the store and may lie outside of the
window, cannot be seen from what it reads.
-/

namespace SnapshotIndex

variable {σ α : Type} [Positional σ α]

/-- A cursor stands in a chain of places where one stands in the list. -/
inductive Stands (places : List Nat) : Standing → ListStanding → Prop
  | unpositioned : Stands places .unpositioned .unpositioned
  | on {i p : Nat} (h : places[i]? = some p) : Stands places (.on (.nth p)) (.on i)
  | exhausted : Stands places .exhausted .exhausted

/-- A cursor that is sent to an element comes to the place that the list names,
or leaves the chain. -/
def Seeks (content : σ) (first : Position) (places : List Nat) (seek : α → Option Nat) : Prop :=
  ∀ a, match seek a with
    | some i => ∃ p, places[i]? = some p ∧ Positional.seek content a ≠ .before ∧
        (Positional.seek content a).later first = .nth p
    | none => Positional.seek content a = .before ∨
        ∀ p ∈ places, (Positional.seek content a).later first ≠ .nth p

/-- A cursor is one over a list. -/
structure CursorShows (c : Cursor σ) (content : σ) (places : List Nat) (l : ListCursor α) :
    Prop where
  window : Window content c.first c.last places l.elements
  size_eq : c.size = l.elements.length
  seeks : Seeks content c.first places l.seek
  stands : Stands places c.standing l.standing

namespace CursorShows

variable {c : Cursor σ} {content : σ} {places : List Nat} {l : ListCursor α}

theorem length_places (h : CursorShows c content places l) :
    places.length = l.elements.length :=
  h.window.length_eq

theorem stand (h : CursorShows c content places l) {s : Standing} {t : ListStanding}
    (hs : Stands places s t) :
    CursorShows { c with standing := s } content places { l with standing := t } :=
  ⟨h.window, h.size_eq, h.seeks, hs⟩

/-! ## Settling -/

theorem admits (h : CursorShows c content places l) {i p : Nat} (hp : places[i]? = some p) :
    c.admits content (.nth p) = true := by
  obtain ⟨hfirst, hlast, hholds⟩ :=
    (h.window.holds_iff (.nth p)).mpr ⟨p, List.mem_of_getElem? hp, rfl⟩
  simp [Cursor.admits, hfirst, hlast, hholds]

theorem settle_on (h : CursorShows c content places l) {i p : Nat} (hp : places[i]? = some p) :
    CursorShows (c.settle content (.nth p)) content places (l.settle i) := by
  have hi : i < l.elements.length := by
    rw [← h.length_places]
    exact (List.getElem?_eq_some_iff.mp hp).1
  unfold Cursor.settle ListCursor.settle
  rw [if_pos (h.admits hp), if_pos hi]
  exact h.stand (.on hp)

theorem settle_out (h : CursorShows c content places l) {q : Position}
    (hq : ∀ p ∈ places, q ≠ .nth p) :
    CursorShows (c.settle content q) content places { l with standing := .exhausted } := by
  have hrefused : ¬ c.admits content q = true := by
    intro hadmits
    simp only [Cursor.admits, Bool.and_eq_true, decide_eq_true_eq] at hadmits
    obtain ⟨⟨hfirst, hlast⟩, hholds⟩ := hadmits
    obtain ⟨p, hp, heq⟩ := (h.window.holds_iff q).mp ⟨hfirst, hlast, hholds⟩
    exact hq p hp heq
  unfold Cursor.settle
  rw [if_neg hrefused]
  exact h.stand .exhausted

/-- Going to the place of a number, if there is one, and else nowhere. -/
theorem settle_at (h : CursorShows c content places l) {q : Position} {i : Nat}
    (hon : ∀ p, places[i]? = some p → q = .nth p)
    (hoff : places[i]? = none → ∀ p ∈ places, q ≠ .nth p) :
    CursorShows (c.settle content q) content places (l.settle i) := by
  cases hp : places[i]? with
  | some p =>
    rw [hon p hp]
    exact h.settle_on hp
  | none =>
    have hend : l.elements.length ≤ i := by
      rw [← h.length_places]
      exact List.getElem?_eq_none_iff.mp hp
    have hout := h.settle_out (hoff hp)
    unfold ListCursor.settle
    rwa [if_neg (by omega)]

/-! ## Moves -/

theorem toFirst (h : CursorShows c content places l) :
    CursorShows (c.toFirst content) content places l.toFirst := by
  refine h.settle_at (fun p hp => ?_) (fun hnone p hp => ?_)
  · rw [← List.head?_eq_getElem?] at hp
    exact h.window.first_eq p hp
  · have hnil : places = [] := by simpa using hnone
    rw [hnil] at hp
    exact absurd hp List.not_mem_nil

theorem toLast (h : CursorShows c content places l) :
    CursorShows (c.toLast content) content places l.toLast := by
  unfold Cursor.toLast ListCursor.toLast
  rw [← h.length_places]
  refine h.settle_at (fun p hp => ?_) (fun hnone p hp => ?_)
  · rw [← List.getLast?_eq_getElem?] at hp
    exact h.window.last_eq p hp
  · rw [← List.getLast?_eq_getElem?, List.getLast?_eq_none_iff] at hnone
    rw [hnone] at hp
    exact absurd hp List.not_mem_nil

theorem next (h : CursorShows c content places l) :
    CursorShows (c.next content) content places l.next := by
  have hstands := h.stands
  unfold Cursor.next ListCursor.next
  generalize c.standing = s, l.standing = t at hstands ⊢
  cases hstands with
  | unpositioned => exact h.toFirst
  | exhausted => exact h
  | @on i p hp =>
    refine h.settle_at (fun r hr => h.window.next_eq i p r hp hr) (fun hnone => ?_)
    -- no place comes after this one, so it is the last
    have hi : i < places.length := (List.getElem?_eq_some_iff.mp hp).1
    have hend : places.length ≤ i + 1 := List.getElem?_eq_none_iff.mp hnone
    refine h.window.past_last p ?_
    rw [List.getLast?_eq_getElem?, show places.length - 1 = i by omega, hp]

theorem prev (h : CursorShows c content places l) :
    CursorShows (c.prev content) content places l.prev := by
  have hstands := h.stands
  unfold Cursor.prev ListCursor.prev
  generalize c.standing = s, l.standing = t at hstands ⊢
  cases hstands with
  | unpositioned => exact h.toLast
  | exhausted => exact h
  | @on i p hp =>
    cases i with
    | zero =>
      have hhead : places.head? = some p := by rw [List.head?_eq_getElem?, hp]
      exact h.settle_out (h.window.past_first p hhead)
    | succ i =>
      have hi : i + 1 < places.length := (List.getElem?_eq_some_iff.mp hp).1
      obtain ⟨r, hr⟩ : ∃ r, places[i]? = some r :=
        ⟨_, List.getElem?_eq_getElem (by omega)⟩
      dsimp only
      rw [h.window.prev_eq i r p hr hp]
      exact h.settle_on hr

theorem moveTo (h : CursorShows c content places l) (a : α) :
    CursorShows (c.moveTo content a) content places (l.moveTo a) := by
  have hseeks := h.seeks a
  unfold Cursor.moveTo ListCursor.moveTo
  cases hl : l.seek a with
  | some i =>
    rw [hl] at hseeks
    obtain ⟨p, hp, hne, hplace⟩ := hseeks
    cases hseek : Positional.seek content a with
    | before => exact absurd hseek hne
    | nth q =>
      rw [hseek] at hplace
      dsimp only
      rw [hplace]
      exact h.settle_on hp
  | none =>
    rw [hl] at hseeks
    cases hseek : Positional.seek content a with
    | before => exact h.stand .exhausted
    | nth q =>
      rw [hseek] at hseeks
      rcases hseeks with hbefore | hoff
      · exact absurd hbefore (by simp)
      · exact h.settle_out hoff

/-! ## Reading -/

theorem isValid_eq (h : CursorShows c content places l) : c.isValid content = l.isValid := by
  have hstands := h.stands
  unfold Cursor.isValid ListCursor.isValid
  generalize c.standing = s, l.standing = t at hstands ⊢
  cases hstands with
  | unpositioned => rfl
  | exhausted => rfl
  | on hp => exact h.admits hp

theorem get_eq (h : CursorShows c content places l) : c.get content = l.get := by
  have hstands := h.stands
  unfold Cursor.get ListCursor.get
  generalize c.standing = s, l.standing = t at hstands ⊢
  cases hstands with
  | unpositioned => rfl
  | exhausted => rfl
  | @on i p hp =>
    have hget := h.window.get?_eq i p hp
    dsimp only
    generalize Positional.get? content (.nth p) = here at hget ⊢
    subst hget
    cases l.elements[i]? with
    | none => rfl
    | some a => rfl

/-- An exhausted cursor visits nothing more. -/
theorem visitWith_of_exhausted (move : Cursor σ → σ → Cursor σ) (steps : Nat)
    (hs : c.standing = .exhausted) : Cursor.visitWith move content steps c = ([], c) := by
  have hinvalid : c.isValid content = false := by
    unfold Cursor.isValid
    rw [hs]
  cases steps with
  | zero => rfl
  | succ steps =>
    unfold Cursor.visitWith
    rw [hinvalid]
    rfl

theorem exhausted_of_list (h : CursorShows c content places l) (hl : l.standing = .exhausted) :
    c.standing = .exhausted := by
  have hstands := h.stands
  rw [hl] at hstands
  generalize c.standing = s at hstands ⊢
  cases hstands
  rfl

/-- One visit reads the element on which the cursor stands. -/
theorem visitWith_step (h : CursorShows c content places l) (move : Cursor σ → σ → Cursor σ)
    (steps : Nat) {i : Nat} {a : α} (hl : l.standing = .on i) (ha : l.elements[i]? = some a) :
    Cursor.visitWith move content (steps + 1) c =
      (a :: (Cursor.visitWith move content steps (move c content)).1,
        (Cursor.visitWith move content steps (move c content)).2) := by
  have hvalid : c.isValid content = true := by
    rw [h.isValid_eq]
    unfold ListCursor.isValid
    rw [hl]
  have hget : c.get content = .ok a := by
    rw [h.get_eq]
    unfold ListCursor.get
    rw [hl]
    dsimp only
    rw [ha]
  rw [Cursor.visitWith, hvalid, if_pos rfl, hget]

theorem visit_on {i : Nat} (h : CursorShows c content places l) (steps : Nat)
    (hl : l.standing = .on i) (hi : i < l.elements.length)
    (hsteps : l.elements.length - i ≤ steps) :
    (Cursor.visitWith Cursor.next content steps c).1 = l.elements.drop i ∧
      CursorShows (Cursor.visitWith Cursor.next content steps c).2 content places
        { l with standing := .exhausted } := by
  induction steps generalizing c l i with
  | zero => omega
  | succ steps ih =>
    have ha := List.getElem?_eq_getElem hi
    have hnext := h.next
    have hlnext : l.next = l.settle (i + 1) := by
      unfold ListCursor.next
      rw [hl]
    rw [hlnext] at hnext
    rw [h.visitWith_step Cursor.next steps hl ha]
    unfold ListCursor.settle at hnext
    by_cases hmore : i + 1 < l.elements.length
    · rw [if_pos hmore] at hnext
      obtain ⟨hrest, hend⟩ := ih hnext rfl hmore (by dsimp only; omega)
      refine ⟨?_, hend⟩
      rw [List.drop_eq_getElem_cons hi]
      exact congrArg (l.elements[i] :: ·) hrest
    · rw [if_neg hmore] at hnext
      rw [visitWith_of_exhausted _ _ (hnext.exhausted_of_list rfl)]
      refine ⟨?_, hnext⟩
      rw [List.drop_eq_getElem_cons hi, List.drop_eq_nil_of_le (by omega)]

theorem visitBack_on {i : Nat} (h : CursorShows c content places l) (steps : Nat)
    (hl : l.standing = .on i) (hi : i < l.elements.length) (hsteps : i < steps) :
    (Cursor.visitWith Cursor.prev content steps c).1 = (l.elements.take (i + 1)).reverse ∧
      CursorShows (Cursor.visitWith Cursor.prev content steps c).2 content places
        { l with standing := .exhausted } := by
  induction steps generalizing c l i with
  | zero => omega
  | succ steps ih =>
    have ha := List.getElem?_eq_getElem hi
    have hprev := h.prev
    unfold ListCursor.prev at hprev
    rw [hl] at hprev
    rw [h.visitWith_step Cursor.prev steps hl ha]
    have htake : (l.elements.take (i + 1)).reverse =
        l.elements[i] :: (l.elements.take i).reverse := by
      rw [List.take_succ_eq_append_getElem hi, List.reverse_append]
      rfl
    rw [htake]
    cases i with
    | zero =>
      rw [visitWith_of_exhausted _ _ (hprev.exhausted_of_list rfl)]
      exact ⟨rfl, hprev⟩
    | succ i =>
      dsimp only at hprev
      unfold ListCursor.settle at hprev
      rw [if_pos (by omega)] at hprev
      obtain ⟨hrest, hend⟩ := ih hprev rfl (show i < l.elements.length by omega) (by omega)
      exact ⟨congrArg (l.elements[i + 1] :: ·) hrest, hend⟩

/-- The number on which a cursor stands is one of the list. -/
theorem lt_length (h : CursorShows c content places l) {i : Nat} (hl : l.standing = .on i) :
    i < l.elements.length := by
  have hstands := h.stands
  rw [hl] at hstands
  rw [← h.length_places]
  generalize c.standing = s at hstands
  cases hstands with
  | on hp => exact (List.getElem?_eq_some_iff.mp hp).1

theorem visitWith_of_invalid (h : CursorShows c content places l)
    (move : Cursor σ → σ → Cursor σ) (steps : Nat) (hl : l.isValid = false) :
    Cursor.visitWith move content steps c = ([], c) := by
  cases steps with
  | zero => rfl
  | succ steps =>
    unfold Cursor.visitWith
    rw [h.isValid_eq, hl]
    rfl

theorem visit (h : CursorShows c content places l) :
    (c.visit content).1 = l.visit.1 ∧
      CursorShows (c.visit content).2 content places l.visit.2 := by
  unfold Cursor.visit ListCursor.visit
  cases hl : l.standing with
  | on i =>
    have hi := h.lt_length hl
    exact h.visit_on _ hl hi (by rw [h.size_eq]; omega)
  | unpositioned | exhausted =>
    rw [h.visitWith_of_invalid _ _ (by unfold ListCursor.isValid; rw [hl])]
    exact ⟨rfl, h⟩

theorem visitBack (h : CursorShows c content places l) :
    (c.visitBack content).1 = l.visitBack.1 ∧
      CursorShows (c.visitBack content).2 content places l.visitBack.2 := by
  unfold Cursor.visitBack ListCursor.visitBack
  cases hl : l.standing with
  | on i =>
    have hi := h.lt_length hl
    exact h.visitBack_on _ hl hi (by rw [h.size_eq]; omega)
  | unpositioned | exhausted =>
    rw [h.visitWith_of_invalid _ _ (by unfold ListCursor.isValid; rw [hl])]
    exact ⟨rfl, h⟩

end CursorShows

end SnapshotIndex
