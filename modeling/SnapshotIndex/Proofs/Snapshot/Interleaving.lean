import SnapshotIndex.Proofs.Run
import SnapshotIndex.Snapshot.Tracked

/-!
# Captures in the midst of other operations

Snapshots are taken and let go at any time between the operations of an index.
A run with such captures is one of a machine with two more operations:
`Tracked.interleave` adds them to a machine on tracked stores, and
`uninterleaved` lets a machine without snapshots pass over them.
-/

namespace SnapshotIndex

universe u v

/-- An operation, or a change in who holds a snapshot. -/
inductive Interleaved (σ : Type) (ω : Type u)
  | act (op : ω)
  | hold (s : Snapshot σ)
  | release (s : Snapshot σ)

variable {σ : Type} {τ : Type} {ω : Type u} {ρ : Type v}

/-- A machine on tracked stores, of which snapshots are held and let go. -/
def Tracked.interleave (step : Tracked σ → ω → ρ × Tracked σ) (t : Tracked σ) :
    Interleaved σ ω → Option ρ × Tracked σ
  | .act op => (some (step t op).1, (step t op).2)
  | .hold s => (none, t.hold s)
  | .release s => (none, t.release s)

/-- A machine without snapshots, which is not concerned with them. -/
def uninterleaved (step : τ → ω → ρ × τ) (x : τ) : Interleaved σ ω → Option ρ × τ
  | .act op => (some (step x op).1, (step x op).2)
  | .hold _ => (none, x)
  | .release _ => (none, x)

/-- Captures do not come between two machines whose relation only looks at the
present content. -/
theorem interleave_simulates {step : Tracked σ → ω → ρ × Tracked σ} {step' : τ → ω → ρ × τ}
    {Rel : σ → τ → Prop}
    (hstep : ∀ t x op, Rel t.content x →
      (step t op).1 = (step' x op).1 ∧ Rel (step t op).2.content (step' x op).2)
    (t : Tracked σ) (x : τ) (op : Interleaved σ ω) (h : Rel t.content x) :
    (t.interleave step op).1 = (uninterleaved step' x op).1 ∧
      Rel (t.interleave step op).2.content (uninterleaved step' x op).2 := by
  cases op with
  | act op =>
    obtain ⟨hanswer, hrel⟩ := hstep t x op h
    exact ⟨congrArg some hanswer, hrel⟩
  | hold s => exact ⟨rfl, by simpa [Tracked.interleave, uninterleaved] using h⟩
  | release s => exact ⟨rfl, by simpa [Tracked.interleave, uninterleaved] using h⟩

end SnapshotIndex
