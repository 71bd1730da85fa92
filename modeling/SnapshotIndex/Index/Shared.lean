import SnapshotIndex.Index

/-!
# Shared indexes

A shared index is one index behind any number of handles.  It does not matter
through which handle an operation comes: readers see the index as it is, and a
writer has it alone for the time of one operation.
-/

namespace SnapshotIndex

/-- An index and the number of handles on it. -/
structure Shared (α : Type) where
  index : Index α
  handles : Nat

namespace Shared

variable {α ρ : Type}

/-- Puts an index behind a first handle. -/
def of (index : Index α) : Shared α := ⟨index, 1⟩

/-- Makes another handle on the same index. -/
def share (s : Shared α) : Shared α := { s with handles := s.handles + 1 }

def read (s : Shared α) (f : Index α → ρ) : ρ := f s.index

def write (s : Shared α) (f : Index α → ρ × Index α) : ρ × Shared α :=
  let (result, index) := f s.index
  (result, { s with index := index })

end Shared

end SnapshotIndex
