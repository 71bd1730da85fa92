/-!
# Bisection

`bisect` finds where a test that holds of the numbers below some point, and of
none from there on, stops holding.  It asks about one number for each halving
of what is left.
-/

namespace SnapshotIndex

/-- The point between `lo` and `hi` where the test stops holding, found in at
most `fuel` halvings. -/
def bisectWithin (below : Nat → Bool) : (fuel lo hi : Nat) → Nat
  | 0, lo, _ => lo
  | fuel + 1, lo, hi =>
    if lo < hi then
      let mid := (lo + hi) / 2
      if below mid then bisectWithin below fuel (mid + 1) hi else bisectWithin below fuel lo mid
    else lo

/-- The number of leading numbers under `n` of which the test holds, if it
holds of no number after one of which it fails. -/
def bisect (below : Nat → Bool) (n : Nat) : Nat := bisectWithin below n 0 n

end SnapshotIndex
