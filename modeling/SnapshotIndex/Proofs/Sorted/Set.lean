import SnapshotIndex.Proofs.Sorted.Span

/-!
# Sorted sets

What sorted indexes and sorted arrays are meant to be: an increasing list, and
operations that are said by filters, without indexes, bisection or spans.
`SortedOp` are the operations that change an index, those through range views
among them, and `ArrayOp` those that change an array.  `setPerform` and
`setPerformArray` carry them out on a list.
-/

namespace SnapshotIndex

/-- The operations that change a sorted index. -/
inductive SortedOp (α : Type) : Type 1
  | add (a : α)
  | remove (a : α)
  | pollFirst
  | pollLast
  | retain {σ : Type} (sieve : Sieve σ α) (state : σ)
  | addAll (as : List α)
  | removeAll (as : List α)
  | clear
  | viewAdd (v : RangeView α) (a : α)
  | viewRemove (v : RangeView α) (a : α)
  | viewPollFirst (v : RangeView α)
  | viewPollLast (v : RangeView α)
  | viewClear (v : RangeView α)

/-- The operations that change a sorted array. -/
inductive ArrayOp (α : Type) : Type 1
  | add (a : α)
  | remove (a : α)
  | removeAt (i : Nat)
  | removeSpan (s : Span)
  | retain {σ : Type} (sieve : Sieve σ α) (state : σ)
  | clear

/-- What an operation answers. -/
inductive SortedAnswer (α : Type) : Type 1
  | silent
  /-- Whether the content has changed. -/
  | changed (yes : Bool)
  /-- Whether the content has changed, unless the operation is refused. -/
  | attempted (result : Except Fault Bool)
  /-- How many elements were added or removed. -/
  | counted (n : Nat)
  /-- How many elements were removed, and what a sieve remembers in the end. -/
  | strained {σ : Type} (removed : Nat) (state : σ)
  /-- The element that was removed. -/
  | element (a : Option α)

variable {α : Type} [Identified α]

/-! ## The operations of indexes and arrays -/

/-- Carries out one operation on a sorted index. -/
def SortedIndex.perform (s : SortedIndex α) : SortedOp α → SortedAnswer α × SortedIndex α
  | .add a => (.changed (s.add a).1, (s.add a).2)
  | .remove a => (.changed (s.remove a).1, (s.remove a).2)
  | .pollFirst => (.element s.pollFirst.1, s.pollFirst.2)
  | .pollLast => (.element s.pollLast.1, s.pollLast.2)
  | .retain sieve state =>
    (.strained (s.retain sieve state).1.1 (s.retain sieve state).2, (s.retain sieve state).1.2)
  | .addAll as => (.counted (s.addAll as).1, (s.addAll as).2)
  | .removeAll as => (.counted (s.removeAll as).1, (s.removeAll as).2)
  | .clear => (.silent, s.clear)
  | .viewAdd v a => (.attempted (v.add s a).1, (v.add s a).2)
  | .viewRemove v a => (.changed (v.remove s a).1, (v.remove s a).2)
  | .viewPollFirst v => (.element (v.pollFirst s).1, (v.pollFirst s).2)
  | .viewPollLast v => (.element (v.pollLast s).1, (v.pollLast s).2)
  | .viewClear v => (.silent, v.clear s)

/-- Carries out one operation on a sorted array. -/
def SortedArray.perform (xs : SortedArray α) : ArrayOp α → SortedAnswer α × SortedArray α
  | .add a => (.changed (xs.add a).1, (xs.add a).2)
  | .remove a => (.element (xs.remove a).1, (xs.remove a).2)
  | .removeAt i => (.element (xs.removeAt i).1, (xs.removeAt i).2)
  | .removeSpan s =>
    match xs.removeSpan? s with
    | some ys => (.changed true, ys)
    | none => (.changed false, xs)
  | .retain sieve state =>
    (.strained (xs.retain sieve state).1.1 (xs.retain sieve state).2, (xs.retain sieve state).1.2)
  | .clear => (.silent, xs.clear)

/-! ## The operations of a set -/

/-- The elements that a view of an increasing list shows, in the order of the
view. -/
def RangeView.shown (order : KeyOrder α) (v : RangeView α) (xs : List α) : List α :=
  if v.descending then (xs.filter (v.inRange order)).reverse else xs.filter (v.inRange order)

section Set

variable (order : KeyOrder α)

/-- Adds an element unless one is the same, and says whether it did. -/
def setAdd (xs : List α) (a : α) : Bool × List α :=
  if xs.any (order.same · a) then (false, xs) else (true, SortedArray.placed order a xs)

/-- Removes the element that is the same, and says whether there was one. -/
def setRemove (xs : List α) (a : α) : Bool × List α :=
  (xs.any (order.same · a), SortedArray.without order a xs)

/-- Removes an element of the set, if one is given, and gives it back. -/
def setPoll (xs : List α) (a : Option α) : Option α × List α :=
  (a, match a with
    | none => xs
    | some a => SortedArray.without order a xs)

/-- Keeps what passes a sieve. -/
def setRetain {σ : Type} (xs : List α) (sieve : Sieve σ α) (state : σ) :
    SortedAnswer α × List α :=
  (.strained (xs.length - (sieve.strain xs state).1.length) (sieve.strain xs state).2,
    (sieve.strain xs state).1)

/-- Does an operation for each element of a list, and counts how often it says
yes. -/
def setCountEach (op : List α → α → Bool × List α) : List α → List α → Nat × List α
  | [], xs => (0, xs)
  | a :: rest, xs =>
    let (done, xs) := op xs a
    let (count, xs) := setCountEach op rest xs
    (if done then count + 1 else count, xs)

/-- One operation of a sorted index, carried out on a set. -/
def setPerform (xs : List α) : SortedOp α → SortedAnswer α × List α
  | .add a => (.changed (setAdd order xs a).1, (setAdd order xs a).2)
  | .remove a => (.changed (setRemove order xs a).1, (setRemove order xs a).2)
  | .pollFirst => (.element xs.head?, (setPoll order xs xs.head?).2)
  | .pollLast => (.element xs.getLast?, (setPoll order xs xs.getLast?).2)
  | .retain sieve state => setRetain xs sieve state
  | .addAll as =>
    (.counted (setCountEach (setAdd order) as xs).1, (setCountEach (setAdd order) as xs).2)
  | .removeAll as =>
    (.counted (setCountEach (setRemove order) as xs).1, (setCountEach (setRemove order) as xs).2)
  | .clear => (.silent, [])
  | .viewAdd v a =>
    if v.inRange order a then
      (.attempted (.ok (setAdd order xs a).1), (setAdd order xs a).2)
    else (.attempted (.error .keyOutOfRange), xs)
  | .viewRemove v a =>
    if v.inRange order a then (.changed (setRemove order xs a).1, (setRemove order xs a).2)
    else (.changed false, xs)
  | .viewPollFirst v =>
    (.element (v.shown order xs).head?, (setPoll order xs (v.shown order xs).head?).2)
  | .viewPollLast v =>
    (.element (v.shown order xs).getLast?, (setPoll order xs (v.shown order xs).getLast?).2)
  | .viewClear v => (.silent, xs.filter fun a => !v.inRange order a)

/-- One operation of a sorted array, carried out on a set. -/
def setPerformArray (xs : List α) : ArrayOp α → SortedAnswer α × List α
  | .add a => (.changed (setAdd order xs a).1, (setAdd order xs a).2)
  | .remove a => (.element (xs.find? (order.same · a)), (setRemove order xs a).2)
  | .removeAt i => (.element xs[i]?, xs.eraseIdx i)
  | .removeSpan s =>
    if s.start ≤ s.stop ∧ s.stop ≤ xs.length then
      (.changed true, xs.take s.start ++ xs.drop s.stop)
    else (.changed false, xs)
  | .retain sieve state => setRetain xs sieve state
  | .clear => (.silent, [])

end Set

end SnapshotIndex
