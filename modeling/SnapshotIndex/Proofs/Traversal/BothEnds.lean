import SnapshotIndex.Proofs.Snapshot.Captures
import SnapshotIndex.Proofs.Snapshot.Reached
import SnapshotIndex.Proofs.Sorted.Refinement

/-!
# Walks lose nothing and repeat nothing

A walk keeps the places of both ends and the number of elements left, and a
turn exchanges which end a call takes from.  `takenFrom` sorts what the calls
have answered by the end that it came from, where the direction at each call
depends on nothing but the number of turns so far.

What was taken from the low end, what is left, and what was taken from the
high end, the last first, always make up the elements of the range
(`ListWalk.run_parts`).  Everything else follows from this: when calls are
answered, what a walk says to have left, and what draining it yields
(`walk_from_both_ends`).
-/

namespace SnapshotIndex

variable {α : Type}

/-! ## Calls -/

/-- The calls on a walk. -/
inductive WalkCall
  | next
  | nextBack
  | turn
deriving DecidableEq

namespace WalkCall

/-- Whether a call takes from the high end, if it takes anything. -/
def takesHigh? (descending : Bool) : WalkCall → Option Bool
  | .next => some descending
  | .nextBack => some (!descending)
  | .turn => none

/-- The direction after a call. -/
def heading (descending : Bool) : WalkCall → Bool
  | .turn => !descending
  | _ => descending

/-- The direction after some calls: a walk is turned around if the number of
turns is odd. -/
def headingAfter (descending : Bool) (calls : List WalkCall) : Bool :=
  descending ^^ decide (calls.count .turn % 2 = 1)

theorem headingAfter_cons (descending : Bool) (call : WalkCall) (calls : List WalkCall) :
    headingAfter descending (call :: calls) = headingAfter (call.heading descending) calls := by
  unfold headingAfter
  cases call with
  | next => simp [heading]
  | nextBack => simp [heading]
  | turn =>
    have hparity : decide ((calls.count .turn + 1) % 2 = 1) =
        !decide (calls.count .turn % 2 = 1) := by
      rw [← decide_not, decide_eq_decide]
      omega
    rw [List.count_cons_self, hparity, heading]
    cases descending <;> simp

end WalkCall

/-- What the calls on a walk have taken from one end. -/
def takenFrom (high : Bool) : (descending : Bool) → List WalkCall → List (Option α) → List α
  | descending, call :: calls, answer :: answers =>
    (if call.takesHigh? descending = some high then answer.toList else []) ++
      takenFrom high (call.heading descending) calls answers
  | _, _, _ => []

/-! ## Walks over a list -/

namespace ListWalk

def call (w : ListWalk α) : WalkCall → Option α × ListWalk α
  | .next => w.next
  | .nextBack => w.nextBack
  | .turn => (none, w.reversed)

theorem descending_call (w : ListWalk α) (call : WalkCall) :
    (w.call call).2.descending = call.heading w.descending := by
  obtain ⟨left, descending⟩ := w
  cases call <;> cases descending <;> rfl

theorem low_parts (xs : List α) : xs = xs.head?.toList ++ xs.tail := by
  cases xs <;> rfl

theorem high_parts (xs : List α) : xs = xs.dropLast ++ xs.getLast?.toList.reverse := by
  rcases List.eq_nil_or_concat xs with rfl | ⟨rest, a, rfl⟩ <;> simp

/-- What a call takes from an end stands next to what it leaves. -/
theorem call_parts (w : ListWalk α) (call : WalkCall) :
    w.left = (if call.takesHigh? w.descending = some false then (w.call call).1.toList else []) ++
      (w.call call).2.left ++
        (if call.takesHigh? w.descending = some true then (w.call call).1.toList else []).reverse
      := by
  obtain ⟨left, descending⟩ := w
  cases call with
  | next =>
    cases descending with
    | true => exact high_parts left
    | false => exact (low_parts left).trans (List.append_nil _).symm
  | nextBack =>
    cases descending with
    | true => exact (low_parts left).trans (List.append_nil _).symm
    | false => exact high_parts left
  | turn => exact (List.append_nil left).symm

/-- After any calls, what was taken from the low end, what is left, and what
was taken from the high end make up the list. -/
theorem run_parts (w : ListWalk α) (calls : List WalkCall) :
    let run := runAll call w calls
    w.left = takenFrom false w.descending calls run.1 ++ run.2.left ++
        (takenFrom true w.descending calls run.1).reverse ∧
      run.2.descending = WalkCall.headingAfter w.descending calls := by
  induction calls generalizing w with
  | nil => simp [takenFrom, WalkCall.headingAfter]
  | cons c calls ih =>
    obtain ⟨hparts, hheading⟩ := ih (w.call c).2
    rw [descending_call] at hparts hheading
    simp only [runAll_cons, takenFrom, WalkCall.headingAfter_cons]
    refine ⟨?_, hheading⟩
    have hcall := w.call_parts c
    rw [hparts] at hcall
    simpa only [List.reverse_append, List.append_assoc] using hcall

/-- A walk that has nothing left answers no call, now or later. -/
theorem run_done {w : ListWalk α} (h : w.left = []) (calls : List WalkCall) :
    ∀ answer ∈ (runAll call w calls).1, answer = none := by
  let Inv (w : ListWalk α) : Prop := w.left = []
  let Good (answer : Option α) : Prop := answer = none
  have hstep : ∀ w c, Inv w → Good (w.call c).1 ∧ Inv (w.call c).2 := by
    intro w c hw
    obtain ⟨left, descending⟩ := w
    obtain rfl : left = [] := hw
    cases c <;> cases descending <;> exact ⟨rfl, rfl⟩
  exact runAll_answers hstep h calls

theorem isSome_next_iff (w : ListWalk α) : w.next.1.isSome = true ↔ 0 < w.left.length := by
  obtain ⟨left, descending⟩ := w
  cases descending <;> cases left <;> simp [next, takeLow, takeHigh]

theorem isSome_nextBack_iff (w : ListWalk α) : w.nextBack.1.isSome = true ↔ 0 < w.left.length := by
  obtain ⟨left, descending⟩ := w
  cases descending <;> cases left <;> simp [nextBack, takeLow, takeHigh]

end ListWalk

/-! ## Captured walks -/

variable [Identified α]

namespace EitherWalk

def call (content : EitherStore α) (w : EitherWalk α) : WalkCall → Option α × EitherWalk α
  | .next => w.next content
  | .nextBack => w.nextBack content
  | .turn => (none, w.reversed)

/-- What holds of a walk over a list once `lows` and `highs` were taken from
its ends, and a walk in this direction has `left` between them. -/
structure Accounts (w : EitherWalk α) (content : EitherStore α) (xs lows left highs : List α)
    (descending : Bool) : Prop where
  parts : xs = lows ++ left ++ highs.reverse
  remaining_eq : w.remaining = xs.length - (lows.length + highs.length)
  next_eq : (w.next content).1 = if descending then left.getLast? else left.head?
  nextBack_eq : (w.nextBack content).1 = if descending then left.head? else left.getLast?
  next_iff : (w.next content).1.isSome = true ↔ lows.length + highs.length < xs.length
  nextBack_iff : (w.nextBack content).1.isSome = true ↔ lows.length + highs.length < xs.length
  /-- Once everything was taken no call is answered any more. -/
  done : lows.length + highs.length = xs.length →
    ∀ calls, ∀ answer ∈ (runAll (call content) w calls).1, answer = none
  rest_eq : (w.rest content).1 = if descending then left.reverse else left
  /-- To drain a walk backwards is to drain it forwards and reverse. -/
  restBack_eq : (w.restBack content).1 = (w.rest content).1.reverse

variable {w : EitherWalk α} {content : EitherStore α} {l : ListWalk α}

theorem Shows.call (h : w.Shows content l) (c : WalkCall) :
    (w.call content c).1 = (l.call c).1 ∧ (w.call content c).2.Shows content (l.call c).2 := by
  cases h with
  | bag h =>
    cases c with
    | next => exact ⟨h.next.1, .bag h.next.2⟩
    | nextBack => exact ⟨h.nextBack.1, .bag h.nextBack.2⟩
    | turn => exact ⟨rfl, .bag h.reversed⟩
  | sorted h =>
    cases c with
    | next => exact ⟨h.next.1, .sorted h.next.2⟩
    | nextBack => exact ⟨h.nextBack.1, .sorted h.nextBack.2⟩
    | turn => exact ⟨rfl, .sorted h.reversed⟩

theorem Shows.calls (h : w.Shows content l) (calls : List WalkCall) :
    (runAll (EitherWalk.call content) w calls).1 = (runAll ListWalk.call l calls).1 ∧
      (runAll (EitherWalk.call content) w calls).2.Shows content
        (runAll ListWalk.call l calls).2 := by
  let Rel (w : EitherWalk α) (l : ListWalk α) : Prop := w.Shows content l
  have hstep : ∀ w l c, Rel w l →
      (w.call content c).1 = (l.call c).1 ∧ Rel (w.call content c).2 (l.call c).2 :=
    fun _ _ c hwl => hwl.call c
  exact runAll_simulates hstep h calls

theorem Shows.accounts (h : w.Shows content l) {xs lows highs : List α}
    (hparts : xs = lows ++ l.left ++ highs.reverse) :
    w.Accounts content xs lows l.left highs l.descending := by
  have hlength : xs.length = lows.length + l.left.length + highs.length := by
    rw [hparts, List.length_append, List.length_append, List.length_reverse]
  have hnext : (w.next content).1 = l.next.1 := (h.call .next).1
  have hnextBack : (w.nextBack content).1 = l.nextBack.1 := (h.call .nextBack).1
  have hrest : (w.rest content).1 = l.rest.1 := (h.use .rest).1
  have hrestBack : (w.restBack content).1 = l.restBack.1 := (h.use .restBack).1
  refine ⟨hparts, ?_, ?_, ?_, ?_, ?_, fun hall calls => ?_, hrest, ?_⟩
  · rw [h.remaining_eq]
    omega
  · rw [hnext, ListWalk.next]
    split <;> rfl
  · rw [hnextBack, ListWalk.nextBack]
    split <;> rfl
  · rw [hnext, l.isSome_next_iff]
    omega
  · rw [hnextBack, l.isSome_nextBack_iff]
    omega
  · have hleft : l.left = [] := List.length_eq_zero_iff.mp (by omega)
    rw [(h.calls calls).1]
    exact ListWalk.run_done hleft calls
  · rw [hrestBack, hrest]
    cases hdescending : l.descending <;> simp [ListWalk.rest, ListWalk.restBack, hdescending]

/-- After any calls everything is accounted for, on a walk over a list that
begins in this direction. -/
def Accountable (w : EitherWalk α) (content : EitherStore α) (xs : List α)
    (descending : Bool) : Prop :=
  ∀ calls, ∃ left,
    (runAll (call content) w calls).2.Accounts content xs
      (takenFrom false descending calls (runAll (call content) w calls).1) left
      (takenFrom true descending calls (runAll (call content) w calls).1)
      (WalkCall.headingAfter descending calls)

theorem Shows.accountable (h : w.Shows content l) :
    w.Accountable content l.left l.descending := by
  intro calls
  obtain ⟨hanswers, hend⟩ := h.calls calls
  obtain ⟨hparts, hheading⟩ := l.run_parts calls
  rw [← hanswers] at hparts
  rw [← hheading]
  exact ⟨_, hend.accounts hparts⟩

end EitherWalk

namespace Index

/-- A walk that is captured of a range goes through the elements of the range
from both ends, and so does its reversal. -/
def WalksBothEnds (i : Index α) (r : Range α) (xs : List α) : Prop :=
  ∃ w, i.walk? r = some w ∧ i.read? w.snapshot = some i.content ∧
    w.Accountable i.content xs r.descending ∧
    w.reversed.Accountable i.content xs (!r.descending)

theorem walksBothEnds_of_elements {i : Index α} {r : Range α} {xs : List α} (h : i.Sound)
    (helements : i.elements? r = some xs) : i.WalksBothEnds r xs := by
  have hcapture := shows_walk? h r
  unfold listWalk? at hcapture
  rw [helements, Option.map_some] at hcapture
  generalize hw : i.walk? r = walk at hcapture
  rcases hcapture with ⟨hsame, hshows⟩
  rename_i w
  have hturned := (hshows.call .turn).2
  exact ⟨w, hw, by rw [hsame, read?_snapshot], hshows.accountable, hturned.accountable⟩

end Index

/-- Walks in both directions lose nothing and repeat nothing, over bags, over
sorted indexes and over their views, whatever happened before.  What a view of
a sorted index has to walk over is what lies between its bounds. -/
theorem walk_from_both_ends :
    (∀ (capacity load : Nat) (ops : List (TableOp α)) (actions : List (Action α)),
      let i := (Index.bagOver capacity load ops).after actions
      i.WalksBothEnds .whole i.toList) ∧
      ∀ (order : KeyOrder α) (ops : List (ArrayOp α)) (actions : List (Action α)),
        let i := (Index.sortedOver order ops).after actions
        (∀ r, ∃ xs, i.elements? r = some xs ∧ i.WalksBothEnds r xs) ∧
          i.elements? .whole = some i.toList ∧
          (Std.TransCmp order.keys →
            ∀ v, i.elements? (.view v) = some (i.toList.filter (v.inRange order))) := by
  refine ⟨fun capacity load ops actions => ?_, fun order ops actions => ⟨?_, rfl, ?_⟩⟩
  · have hsound := Index.sound_after (Index.sound_bagOver capacity load ops) actions
    exact Index.walksBothEnds_of_elements hsound rfl
  · have hsound := Index.sound_after (Index.sound_sortedOver order ops) actions
    obtain ⟨s, hs⟩ := Index.exists_sorted_after order ops actions
    rw [hs] at hsound ⊢
    intro r
    cases r with
    | whole => exact ⟨_, rfl, Index.walksBothEnds_of_elements hsound rfl⟩
    | view v => exact ⟨_, rfl, Index.walksBothEnds_of_elements hsound rfl⟩
  · intro hlaws v
    exact Index.elements?_view order ops actions v

/-- A descending view of records by tens, one of which came while a snapshot
was held. -/
theorem walk_from_both_ends_bucket :
    Std.TransCmp RecordOrder.bucket.keyOrder.keys ∧
      let i := (Index.sortedOver RecordOrder.bucket.keyOrder
        [.add ⟨⟨2⟩, 11, ⟨1⟩, ""⟩, .add ⟨⟨7⟩, 14, ⟨1⟩, ""⟩]).after
          [.snapshot "s", .change (.insert ⟨⟨3⟩, 19, ⟨1⟩, ""⟩)]
      let v : RangeView Record := ⟨.unbounded, .excluding ⟨⟨7⟩, 14, ⟨1⟩, ""⟩, true⟩
      (∃ xs, i.elements? (.view v) = some xs ∧ i.WalksBothEnds (.view v) xs) ∧
        i.elements? (.view v) = some [⟨⟨2⟩, 11, ⟨1⟩, ""⟩, ⟨⟨3⟩, 19, ⟨1⟩, ""⟩] := by
  refine ⟨inferInstance, (walk_from_both_ends.2 _ _ _).1 _, ?_⟩
  exact ((walk_from_both_ends.2 RecordOrder.bucket.keyOrder _ _).2.2 inferInstance _).trans rfl

end SnapshotIndex
