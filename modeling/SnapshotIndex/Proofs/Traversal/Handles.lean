import SnapshotIndex.Index.Traversal
import SnapshotIndex.Proofs.Traversal.ArrayPlaces
import SnapshotIndex.Proofs.Traversal.TablePlaces
import SnapshotIndex.Proofs.Traversal.Walks

/-!
# Cursors and walks of an index of either kind

`CursorUse` and `WalkUse` are what one can do with a cursor and with a walk.
`EitherCursor.Shows` and `EitherWalk.Shows` relate a cursor and a walk of either
kind of index to one over a list, and whatever is done with both of them yields
the same on both sides (`Shows.use`).
-/

namespace SnapshotIndex

/-! ## Uses of cursors and walks -/

/-- What one can do with a cursor. -/
inductive CursorUse (α : Type)
  | look
  | toFirst
  | toLast
  | next
  | prev
  | moveTo (a : α)
  | visit
  | visitBack

/-- What one can do with a walk. -/
inductive WalkUse
  | look
  | next
  | nextBack
  | rest
  | restBack
  | turn

section Uses

variable {σ α : Type}

/-- The elements that a use of a cursor visits, and the cursor afterwards. -/
def ListCursor.use (c : ListCursor α) : CursorUse α → List α × ListCursor α
  | .look => ([], c)
  | .toFirst => ([], c.toFirst)
  | .toLast => ([], c.toLast)
  | .next => ([], c.next)
  | .prev => ([], c.prev)
  | .moveTo a => ([], c.moveTo a)
  | .visit => c.visit
  | .visitBack => c.visitBack

/-- The elements that a use of a walk takes, and the walk afterwards. -/
def ListWalk.use (w : ListWalk α) : WalkUse → List α × ListWalk α
  | .look => ([], w)
  | .next => (w.next.1.toList, w.next.2)
  | .nextBack => (w.nextBack.1.toList, w.nextBack.2)
  | .rest => w.rest
  | .restBack => w.restBack
  | .turn => ([], w.reversed)

section Positional

variable [Positional σ α]

def Cursor.use (c : Cursor σ) (content : σ) : CursorUse α → List α × Cursor σ
  | .look => ([], c)
  | .toFirst => ([], c.toFirst content)
  | .toLast => ([], c.toLast content)
  | .next => ([], c.next content)
  | .prev => ([], c.prev content)
  | .moveTo a => ([], c.moveTo content a)
  | .visit => c.visit content
  | .visitBack => c.visitBack content

def Walk.use (w : Walk σ) (content : σ) : WalkUse → List α × Walk σ
  | .look => ([], w)
  | .next => ((w.next content).1.toList, (w.next content).2)
  | .nextBack => ((w.nextBack content).1.toList, (w.nextBack content).2)
  | .rest => w.rest content
  | .restBack => w.restBack content
  | .turn => ([], w.reversed)

end Positional

variable [Identified α]

def EitherCursor.use (c : EitherCursor α) (content : EitherStore α) :
    CursorUse α → List α × EitherCursor α
  | .look => ([], c)
  | .toFirst => ([], c.toFirst content)
  | .toLast => ([], c.toLast content)
  | .next => ([], c.next content)
  | .prev => ([], c.prev content)
  | .moveTo a => ([], c.moveTo content a)
  | .visit => c.visit content
  | .visitBack => c.visitBack content

def EitherWalk.use (w : EitherWalk α) (content : EitherStore α) :
    WalkUse → List α × EitherWalk α
  | .look => ([], w)
  | .next => ((w.next content).1.toList, (w.next content).2)
  | .nextBack => ((w.nextBack content).1.toList, (w.nextBack content).2)
  | .rest => w.rest content
  | .restBack => w.restBack content
  | .turn => ([], w.reversed)

end Uses

/-! ## A use does not change what is referred to -/

section Snapshot

variable {σ α : Type} [Positional σ α] {content : σ}

theorem Cursor.exists_next (c : Cursor σ) : ∃ s, c.next content = { c with standing := s } := by
  unfold next
  split
  · exact ⟨_, rfl⟩
  · exact ⟨_, rfl⟩
  · exact ⟨_, rfl⟩

theorem Cursor.exists_prev (c : Cursor σ) : ∃ s, c.prev content = { c with standing := s } := by
  unfold prev
  split
  · exact ⟨_, rfl⟩
  · exact ⟨_, rfl⟩
  · exact ⟨_, rfl⟩

theorem Cursor.exists_visitWith {move : Cursor σ → σ → Cursor σ}
    (hmove : ∀ c : Cursor σ, ∃ s, move c content = { c with standing := s }) (steps : Nat)
    (c : Cursor σ) : ∃ s, (visitWith move content steps c).2 = { c with standing := s } := by
  induction steps generalizing c with
  | zero => exact ⟨_, rfl⟩
  | succ steps ih =>
    unfold visitWith
    split
    · split
      · obtain ⟨s, hs⟩ := hmove c
        obtain ⟨s', hs'⟩ := ih { c with standing := s }
        rw [hs]
        exact ⟨s', hs'⟩
      · exact ⟨_, rfl⟩
    · exact ⟨_, rfl⟩

/-- A use of a cursor changes nothing but where it stands. -/
theorem Cursor.exists_use (c : Cursor σ) (use : CursorUse α) :
    ∃ s, (c.use content use).2 = { c with standing := s } := by
  cases use with
  | look => exact ⟨_, rfl⟩
  | toFirst => exact ⟨_, rfl⟩
  | toLast => exact ⟨_, rfl⟩
  | next => exact c.exists_next
  | prev => exact c.exists_prev
  | moveTo a =>
    change ∃ s, c.moveTo content a = { c with standing := s }
    unfold moveTo
    split
    · exact ⟨_, rfl⟩
    · exact ⟨_, rfl⟩
  | visit => exact exists_visitWith exists_next _ c
  | visitBack => exact exists_visitWith exists_prev _ c

theorem Cursor.snapshot_use (c : Cursor σ) (use : CursorUse α) :
    (c.use content use).2.snapshot = c.snapshot := by
  obtain ⟨s, hs⟩ := c.exists_use use
  rw [hs]

theorem Cursor.changes_use (c : Cursor σ) (use : CursorUse α) :
    (c.use content use).2.changes = c.changes := by
  obtain ⟨s, hs⟩ := c.exists_use use
  rw [hs]

theorem Walk.snapshot_takeLow (w : Walk σ) : (w.takeLow content).2.snapshot = w.snapshot := by
  unfold takeLow
  split
  · rfl
  · split <;> rfl

theorem Walk.snapshot_takeHigh (w : Walk σ) : (w.takeHigh content).2.snapshot = w.snapshot := by
  unfold takeHigh
  split
  · rfl
  · split <;> rfl

theorem Walk.snapshot_next (w : Walk σ) : (w.next content).2.snapshot = w.snapshot := by
  unfold next
  split
  · exact w.snapshot_takeHigh
  · exact w.snapshot_takeLow

theorem Walk.snapshot_nextBack (w : Walk σ) : (w.nextBack content).2.snapshot = w.snapshot := by
  unfold nextBack
  split
  · exact w.snapshot_takeLow
  · exact w.snapshot_takeHigh

omit [Positional σ α] in
theorem Walk.snapshot_drainWith {step : Walk σ → σ → Option α × Walk σ}
    (hstep : ∀ w : Walk σ, (step w content).2.snapshot = w.snapshot) (steps : Nat)
    (w : Walk σ) : (drainWith step content steps w).2.snapshot = w.snapshot := by
  induction steps generalizing w with
  | zero => rfl
  | succ steps ih =>
    have hone := hstep w
    unfold drainWith
    rcases hdone : step w content with ⟨taken, w'⟩
    rw [hdone] at hone
    cases taken with
    | none => exact hone
    | some a => exact (ih w').trans hone

theorem Walk.snapshot_use (w : Walk σ) (use : WalkUse) :
    (w.use content use).2.snapshot = w.snapshot := by
  cases use with
  | look => rfl
  | next => exact w.snapshot_next
  | nextBack => exact w.snapshot_nextBack
  | rest => exact snapshot_drainWith snapshot_next _ w
  | restBack => exact snapshot_drainWith snapshot_nextBack _ w
  | turn => rfl

end Snapshot

/-! ## Cursors and walks over the same list -/

section Uses

variable {σ α : Type} [Positional σ α] {content : σ}

theorem CursorShows.use {c : Cursor σ} {places : List Nat} {l : ListCursor α}
    (h : CursorShows c content places l) (use : CursorUse α) :
    (c.use content use).1 = (l.use use).1 ∧
      CursorShows (c.use content use).2 content places (l.use use).2 := by
  cases use with
  | look => exact ⟨rfl, h⟩
  | toFirst => exact ⟨rfl, h.toFirst⟩
  | toLast => exact ⟨rfl, h.toLast⟩
  | next => exact ⟨rfl, h.next⟩
  | prev => exact ⟨rfl, h.prev⟩
  | moveTo a => exact ⟨rfl, h.moveTo a⟩
  | visit => exact h.visit
  | visitBack => exact h.visitBack

theorem WalkShows.use {w : Walk σ} {l : ListWalk α} (h : WalkShows w content l)
    (use : WalkUse) :
    (w.use content use).1 = (l.use use).1 ∧
      WalkShows (w.use content use).2 content (l.use use).2 := by
  cases use with
  | look => exact ⟨rfl, h⟩
  | next => exact ⟨congrArg Option.toList h.next.1, h.next.2⟩
  | nextBack => exact ⟨congrArg Option.toList h.nextBack.1, h.nextBack.2⟩
  | rest => exact h.rest
  | restBack => exact h.restBack
  | turn => exact ⟨rfl, h.reversed⟩

end Uses

variable {α : Type} [Identified α]

/-- A cursor of either kind is one over a list. -/
inductive EitherCursor.Shows : EitherCursor α → EitherStore α → ListCursor α → Prop
  | bag {c : Cursor (IdentTable α)} {t : IdentTable α} {places : List Nat} {l : ListCursor α}
    (h : CursorShows c t places l) : Shows (.bag c) (.bag t) l
  | sorted {c : Cursor (SortedArray α)} {xs : SortedArray α} {places : List Nat}
    {l : ListCursor α} (h : CursorShows c xs places l) : Shows (.sorted c) (.sorted xs) l

/-- A walk of either kind is one over a list. -/
inductive EitherWalk.Shows : EitherWalk α → EitherStore α → ListWalk α → Prop
  | bag {w : Walk (IdentTable α)} {t : IdentTable α} {l : ListWalk α} (h : WalkShows w t l) :
    Shows (.bag w) (.bag t) l
  | sorted {w : Walk (SortedArray α)} {xs : SortedArray α} {l : ListWalk α}
    (h : WalkShows w xs l) : Shows (.sorted w) (.sorted xs) l

namespace EitherCursor

variable {c : EitherCursor α} {content : EitherStore α} {l : ListCursor α}

theorem use_bag (c : Cursor (IdentTable α)) (t : IdentTable α) (use : CursorUse α) :
    (bag c).use (.bag t) use = ((c.use t use).1, .bag (c.use t use).2) := by
  cases use <;> rfl

theorem use_sorted (c : Cursor (SortedArray α)) (xs : SortedArray α) (use : CursorUse α) :
    (sorted c).use (.sorted xs) use = ((c.use xs use).1, .sorted (c.use xs use).2) := by
  cases use <;> rfl

/-- A use of a cursor does not change what it remembers of its index, whatever
it is given to read. -/
theorem snapshot_changes_use (c : EitherCursor α) (content : EitherStore α) (use : CursorUse α) :
    (c.use content use).2.snapshot = c.snapshot ∧ (c.use content use).2.changes = c.changes := by
  cases c with
  | bag c =>
    cases content with
    | bag t =>
      rw [use_bag]
      exact ⟨congrArg EitherSnapshot.bag (c.snapshot_use use), c.changes_use use⟩
    | sorted xs => cases use <;> exact ⟨rfl, rfl⟩
  | sorted c =>
    cases content with
    | bag t => cases use <;> exact ⟨rfl, rfl⟩
    | sorted xs =>
      rw [use_sorted]
      exact ⟨congrArg EitherSnapshot.sorted (c.snapshot_use use), c.changes_use use⟩

theorem Shows.use (h : c.Shows content l) (use : CursorUse α) :
    (c.use content use).1 = (l.use use).1 ∧ (c.use content use).2.Shows content (l.use use).2 ∧
      (c.use content use).2.snapshot = c.snapshot := by
  cases h with
  | bag h =>
    obtain ⟨hvisited, hshows⟩ := h.use use
    rw [use_bag]
    exact ⟨hvisited, .bag hshows, congrArg EitherSnapshot.bag (Cursor.snapshot_use _ use)⟩
  | sorted h =>
    obtain ⟨hvisited, hshows⟩ := h.use use
    rw [use_sorted]
    exact ⟨hvisited, .sorted hshows, congrArg EitherSnapshot.sorted (Cursor.snapshot_use _ use)⟩

theorem Shows.isValid_eq (h : c.Shows content l) : c.isValid content = l.isValid := by
  cases h with
  | bag h => exact h.isValid_eq
  | sorted h => exact h.isValid_eq

theorem Shows.get_eq (h : c.Shows content l) : c.get content = l.get := by
  cases h with
  | bag h => exact h.get_eq
  | sorted h => exact h.get_eq

theorem Shows.size_eq (h : c.Shows content l) : c.size = l.elements.length := by
  cases h with
  | bag h => exact h.size_eq
  | sorted h => exact h.size_eq

end EitherCursor

namespace EitherWalk

variable {w : EitherWalk α} {content : EitherStore α} {l : ListWalk α}

theorem use_bag (w : Walk (IdentTable α)) (t : IdentTable α) (use : WalkUse) :
    (bag w).use (.bag t) use = ((w.use t use).1, .bag (w.use t use).2) := by
  cases use <;> rfl

theorem use_sorted (w : Walk (SortedArray α)) (xs : SortedArray α) (use : WalkUse) :
    (sorted w).use (.sorted xs) use = ((w.use xs use).1, .sorted (w.use xs use).2) := by
  cases use <;> rfl

theorem snapshot_use (w : EitherWalk α) (content : EitherStore α) (use : WalkUse) :
    (w.use content use).2.snapshot = w.snapshot := by
  cases w with
  | bag w =>
    cases content with
    | bag t =>
      rw [use_bag]
      exact congrArg EitherSnapshot.bag (w.snapshot_use use)
    | sorted xs => cases use <;> rfl
  | sorted w =>
    cases content with
    | bag t => cases use <;> rfl
    | sorted xs =>
      rw [use_sorted]
      exact congrArg EitherSnapshot.sorted (w.snapshot_use use)

theorem Shows.use (h : w.Shows content l) (use : WalkUse) :
    (w.use content use).1 = (l.use use).1 ∧ (w.use content use).2.Shows content (l.use use).2 ∧
      (w.use content use).2.snapshot = w.snapshot := by
  cases h with
  | bag h =>
    obtain ⟨htaken, hshows⟩ := h.use use
    rw [use_bag]
    exact ⟨htaken, .bag hshows, congrArg EitherSnapshot.bag (Walk.snapshot_use _ use)⟩
  | sorted h =>
    obtain ⟨htaken, hshows⟩ := h.use use
    rw [use_sorted]
    exact ⟨htaken, .sorted hshows, congrArg EitherSnapshot.sorted (Walk.snapshot_use _ use)⟩

theorem Shows.remaining_eq (h : w.Shows content l) : w.remaining = l.left.length := by
  cases h with
  | bag h => exact h.remaining_eq
  | sorted h => exact h.remaining_eq

end EitherWalk

end SnapshotIndex
