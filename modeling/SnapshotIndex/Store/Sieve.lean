/-!
# Sieves

A sieve says of each element whether to keep it, and may remember something
from one element to the next.  Its memory is passed from question to question
in the order of the elements.
-/

namespace SnapshotIndex

/-- A test with a memory: from an element and the memory so far, whether to
keep the element and the memory afterwards. -/
def Sieve (σ α : Type) : Type := α → σ → Bool × σ

namespace Sieve

variable {σ α : Type}

/-- The sieve of a test without a memory. -/
def ofTest (keep : α → Bool) : Sieve σ α := fun a state => (keep a, state)

/-- Asks about every element in order and keeps those that pass. -/
def strain (sieve : Sieve σ α) : List α → σ → List α × σ
  | [], state => ([], state)
  | a :: rest, state =>
    let (keep, state) := sieve a state
    let (kept, state) := sieve.strain rest state
    (if keep then a :: kept else kept, state)

/-- Asks about the elements in order up to the first that does not pass, and
gives its index; none if all pass. -/
def firstRefused (sieve : Sieve σ α) : List α → σ → Option Nat × σ
  | [], state => (none, state)
  | a :: rest, state =>
    match sieve a state with
    | (false, state) => (some 0, state)
    | (true, state) =>
      let (refused, state) := sieve.firstRefused rest state
      (refused.map (· + 1), state)

/-- A sieve that has been asked up to the element that it refused, when all
elements are gone through once more.  It counts them, knows its answers up to
that element, and asks about those after it. -/
def resume (sieve : Sieve σ α) (refused : Nat) : Sieve (Nat × σ) α := fun a (index, state) =>
  match Ord.compare index refused with
  | .lt => (true, (index + 1, state))
  | .eq => (false, (index + 1, state))
  | .gt =>
    let (keep, state) := sieve a state
    (keep, (index + 1, state))

end Sieve

end SnapshotIndex
