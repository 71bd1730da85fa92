import SnapshotIndex.Snapshot.Backing

/-!
# Stores with a count of changes

Every index is a backing store together with the number of changes made to its
content.  An operation that leaves the content as it is leaves the whole index
as it is; any other goes through `edit` or, when everything is dropped,
through `renew`.  Where the content itself tells whether it has changed, an
operation goes through `attempt`, which counts what the content tells.
-/

namespace SnapshotIndex

/-- A backing store and the number of changes to it. -/
structure Tracked (σ : Type) where
  store : Backing σ
  changes : Nat

namespace Tracked

variable {σ : Type}

def of (content : σ) : Tracked σ := ⟨.of content, 0⟩

def content (t : Tracked σ) : σ := t.store.content

/-- How often the content was copied for the sake of a snapshot. -/
def copies (t : Tracked σ) : Nat := t.store.copies

def snapshot (t : Tracked σ) : Snapshot σ := t.store.snapshot

/-- What a snapshot reads, if it has not been let go. -/
def read? (t : Tracked σ) (s : Snapshot σ) : Option σ := t.store.read? s

/-- The number of holders of a snapshot. -/
def holders (t : Tracked σ) (s : Snapshot σ) : Nat := t.store.holders s

/-- Whether a snapshot still shows the present content. -/
def isCurrent (t : Tracked σ) (s : Snapshot σ) : Bool := t.store.isCurrent s

/-- Counts one more holder of a snapshot. -/
def hold (t : Tracked σ) (s : Snapshot σ) : Tracked σ := { t with store := t.store.hold s }

/-- Counts one holder of a snapshot less. -/
def release (t : Tracked σ) (s : Snapshot σ) : Tracked σ :=
  { t with store := t.store.release s }

/-- Changes the content once. -/
def edit (t : Tracked σ) (f : σ → σ) : Tracked σ := ⟨t.store.write f, t.changes + 1⟩

/-- Carries out an operation that says whether it has changed the content, and
counts a change if it says so. -/
def attempt (t : Tracked σ) (f : σ → Bool × σ) : Bool × Tracked σ :=
  let changed := (f t.content).1
  (changed,
    ⟨t.store.write fun content => (f content).2,
      if changed then t.changes + 1 else t.changes⟩)

/-- Drops the content: a store that nobody else holds is emptied in place, and
a shared one is exchanged for a fresh one. -/
def renew (t : Tracked σ) (emptied : σ → σ) (fresh : σ) : Tracked σ :=
  ⟨if t.store.isShared then t.store.replace fresh else t.store.write emptied, t.changes + 1⟩

@[simp] theorem content_of (content : σ) : (of content).content = content := rfl

@[simp] theorem content_hold (t : Tracked σ) (s : Snapshot σ) :
    (t.hold s).content = t.content := by simp [hold, Tracked.content]

@[simp] theorem content_release (t : Tracked σ) (s : Snapshot σ) :
    (t.release s).content = t.content := by simp [release, Tracked.content]

@[simp] theorem content_edit (t : Tracked σ) (f : σ → σ) :
    (t.edit f).content = f t.content := by simp [edit, Tracked.content]

@[simp] theorem content_attempt (t : Tracked σ) (f : σ → Bool × σ) :
    (t.attempt f).2.content = (f t.content).2 := by simp [attempt, Tracked.content]

/-- What happens to the store does not depend on what the operation says. -/
theorem store_attempt (t : Tracked σ) (f : σ → Bool × σ) :
    (t.attempt f).2.store = (t.edit fun content => (f content).2).store := rfl

/-- An operation that says it has changed the content is an edit. -/
theorem attempt_eq_edit {t : Tracked σ} {f : σ → Bool × σ} (h : (f t.content).1 = true) :
    t.attempt f = (true, t.edit fun content => (f content).2) := by
  simp only [attempt, edit, h, if_true]

/-- It only matters what becomes of the content that is there. -/
theorem edit_congr {t : Tracked σ} {f g : σ → σ} (h : f t.content = g t.content) :
    t.edit f = t.edit g := by
  have hcontent : f t.store.content = g t.store.content := h
  simp only [edit, Backing.write, hcontent]

theorem content_renew (t : Tracked σ) (emptied : σ → σ) (fresh : σ) :
    (t.renew emptied fresh).content = if t.store.isShared then fresh else emptied t.content := by
  unfold renew Tracked.content
  dsimp only
  split
  · exact t.store.content_replace fresh
  · exact t.store.content_write emptied

@[simp] theorem changes_edit (t : Tracked σ) (f : σ → σ) :
    (t.edit f).changes = t.changes + 1 := rfl

@[simp] theorem changes_renew (t : Tracked σ) (emptied : σ → σ) (fresh : σ) :
    (t.renew emptied fresh).changes = t.changes + 1 := rfl

end Tracked

end SnapshotIndex
