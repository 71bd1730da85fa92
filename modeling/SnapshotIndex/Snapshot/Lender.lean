import SnapshotIndex.Assoc
import SnapshotIndex.Snapshot.Backing

/-!
# Lending snapshots under names

A lender is a backing store together with the snapshots of it that are held,
each under a name.  A snapshot that takes the name of another one is captured
before the other one is released.
-/

namespace SnapshotIndex

/-- A backing store and the snapshots that are held of it. -/
structure Lender (σ : Type) where
  store : Backing σ
  held : Assoc String (Snapshot σ) := .empty

namespace Lender

variable {σ : Type}

/-- A store of which no snapshots are held. -/
def of (content : σ) : Lender σ := { store := .of content }

/-- The snapshot of a name. -/
def get? (l : Lender σ) (name : String) : Option (Snapshot σ) := l.held.get? name

/-- What the snapshot of a name reads. -/
def read? (l : Lender σ) (name : String) : Option σ := (l.get? name).bind l.store.read?

/-- Tells the store that a snapshot is no longer held, if it was. -/
def release (l : Lender σ) : Option (Snapshot σ) → Lender σ
  | none => l
  | some snapshot => { l with store := l.store.release snapshot }

/-- Holds a snapshot under a name. -/
def keep (l : Lender σ) (name : String) (snapshot : Snapshot σ) : Lender σ :=
  { l with store := l.store.hold snapshot, held := l.held.insert name snapshot }.release
    (l.get? name)

/-- Captures the present content under a name. -/
def capture (l : Lender σ) (name : String) : Lender σ := l.keep name l.store.snapshot

/-- Drops the snapshot of a name. -/
def drop (l : Lender σ) (name : String) : Lender σ :=
  { l with held := l.held.erase name }.release (l.get? name)

/-- Changes the content. -/
def write (l : Lender σ) (f : σ → σ) : Lender σ := { l with store := l.store.write f }

/-- Puts other content in place of the present one. -/
def replace (l : Lender σ) (content : σ) : Lender σ :=
  { l with store := l.store.replace content }

end Lender

end SnapshotIndex
