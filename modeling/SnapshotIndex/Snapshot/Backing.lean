import SnapshotIndex.Assoc

/-!
# Backing stores and snapshots

A `Backing` is a store that its owner changes while others read what it held
before.  A snapshot does not carry content: it refers to a version of the
store, and whoever reads it reads what the store has under that version.  It
is for the store to see to it that this stays the same.

* **Versions.**  The owner works on the latest version.  A change goes to the
  content of that version itself, where every snapshot of it would see the
  change, unless a snapshot of it is held; then the owner first leaves the
  version to those who hold it and goes on with a new one.
* **Holders.**  `hold` and `release` keep count of the snapshots of each
  version that are held.  A version that the owner has left is let go with
  the last of them.
* **Copies.**  `write` derives new content from the old and so has to copy
  what is shared.  `replace` does not read the old content and copies nothing.
-/

namespace SnapshotIndex

/-- A reference to what a store held at one moment. -/
@[ext] structure Snapshot (σ : Type) where
  version : Nat

instance {σ : Type} : DecidableEq (Snapshot σ) := fun _ _ =>
  decidable_of_iff' _ Snapshot.ext_iff

/-- A version that its owner has left, and the number of snapshots of it that
are held. -/
structure Cell (σ : Type) where
  content : σ
  holders : Nat

/-- A store whose content may be shared with snapshots. -/
structure Backing (σ : Type) where
  /-- The content of the latest version. -/
  content : σ
  /-- The latest version: how often shared content was left behind. -/
  version : Nat
  /-- The number of snapshots of the latest version that are held. -/
  outstanding : Nat
  /-- How often shared content was copied. -/
  copies : Nat
  /-- The earlier versions of which snapshots are held. -/
  past : Assoc Nat (Cell σ)

/-- Whether two snapshots of one store share their content. -/
def Snapshot.sameContent {σ : Type} (s t : Snapshot σ) : Bool := s.version == t.version

namespace Backing

variable {σ : Type}

/-- A store that nobody else holds. -/
def of (content : σ) : Backing σ := ⟨content, 0, 0, 0, .empty⟩

/-- Whether a snapshot of the present content is held. -/
def isShared (b : Backing σ) : Bool := 0 < b.outstanding

def snapshot (b : Backing σ) : Snapshot σ := ⟨b.version⟩

/-- Whether nothing has happened to the content since a snapshot was taken. -/
def isCurrent (b : Backing σ) (s : Snapshot σ) : Bool := s.version == b.version

/-- What a snapshot reads, if it has not been let go. -/
def read? (b : Backing σ) (s : Snapshot σ) : Option σ :=
  if b.isCurrent s then some b.content else (b.past.get? s.version).map Cell.content

/-- The number of holders of a snapshot. -/
def holders (b : Backing σ) (s : Snapshot σ) : Nat :=
  if b.isCurrent s then b.outstanding else ((b.past.get? s.version).map Cell.holders).getD 0

/-! ## Holding and releasing -/

/-- Counts one more holder of a snapshot. -/
def hold (b : Backing σ) (s : Snapshot σ) : Backing σ :=
  if b.isCurrent s then { b with outstanding := b.outstanding + 1 }
  else { b with past := b.past.modify s.version fun c => { c with holders := c.holders + 1 } }

/-- Counts one holder of a snapshot less. -/
def release (b : Backing σ) (s : Snapshot σ) : Backing σ :=
  if b.isCurrent s then { b with outstanding := b.outstanding - 1 }
  else if b.holders s ≤ 1 then { b with past := b.past.erase s.version }
  else { b with past := b.past.modify s.version fun c => { c with holders := c.holders - 1 } }

/-- Takes a snapshot and holds it. -/
def capture (b : Backing σ) : Snapshot σ × Backing σ := (b.snapshot, b.hold b.snapshot)

/-! ## Changing the content -/

/-- Leaves the latest version to those who hold it and goes on with other
content. -/
def leave (b : Backing σ) (content : σ) : Backing σ :=
  { b with
    content := content
    version := b.version + 1
    outstanding := 0
    past := b.past.insert b.version ⟨b.content, b.outstanding⟩ }

/-- Changes the content, in a copy if it is shared. -/
def write (b : Backing σ) (f : σ → σ) : Backing σ :=
  if b.isShared then { b.leave (f b.content) with copies := b.copies + 1 }
  else { b with content := f b.content }

/-- Puts other content in place of the present one. -/
def replace (b : Backing σ) (content : σ) : Backing σ :=
  if b.isShared then b.leave content else { b with content := content }

@[simp] theorem content_of (content : σ) : (of content).content = content := rfl

@[simp] theorem read?_snapshot (b : Backing σ) : b.read? b.snapshot = some b.content := by
  simp [read?, isCurrent, snapshot]

@[simp] theorem content_hold (b : Backing σ) (s : Snapshot σ) :
    (b.hold s).content = b.content := by
  unfold hold; split <;> rfl

@[simp] theorem content_release (b : Backing σ) (s : Snapshot σ) :
    (b.release s).content = b.content := by
  unfold release; split
  · rfl
  · split <;> rfl

@[simp] theorem content_write (b : Backing σ) (f : σ → σ) :
    (b.write f).content = f b.content := by
  unfold write; split <;> rfl

@[simp] theorem content_replace (b : Backing σ) (content : σ) :
    (b.replace content).content = content := by
  unfold replace; split <;> rfl

end Backing

end SnapshotIndex
