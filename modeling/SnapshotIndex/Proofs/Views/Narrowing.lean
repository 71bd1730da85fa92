import SnapshotIndex.Proofs.Views.Reading

/-!
# Narrower views

A view is narrowed by two bounds that are given in its own order, and the new
bounds take the place of its old ones.  That the old ones may be forgotten is
due to the check on the endpoints: what is admitted by a bound in the view is
admitted by the view's own bound on this side, and this is where an inclusive
endpoint has to lie between the bounds while an exclusive one may also be a
bound (`admitsAbove_of_admits`, `admitsBelow_of_admits`).

In a descending view the first of the two bounds is the upper one.  `Crosses`,
`Leaves` and `requested` say what a request means in the order of the view, and
none of the results below have to tell the two directions apart.

* `Answers`: when a request is refused, and with which fault.
* `narrow_shows_requested`: a narrower view shows what the view shows of the
  request.
* `narrow_is_intersection`: both of them, and what a chain of requests can show.
-/

namespace SnapshotIndex

variable {α : Type} [Identified α]

/-! ## Requests in the order of a view -/

namespace RangeView

variable (order : KeyOrder α) (v : RangeView α)

/-- Whether an element is not left out before the start of a request. -/
def isFrom (start : Bound α) (a : α) : Bool :=
  match start with
  | .unbounded => true
  | .including b => (v.compare order a b).isGE
  | .excluding b => (v.compare order a b).isGT

/-- Whether an element is not left out after the end of a request. -/
def isUpTo (stop : Bound α) (a : α) : Bool :=
  match stop with
  | .unbounded => true
  | .including b => (v.compare order a b).isLE
  | .excluding b => (v.compare order a b).isLT

/-- Whether an element is asked for. -/
def requested (start stop : Bound α) (a : α) : Bool :=
  v.isFrom order start a && v.isUpTo order stop a

/-- Both ends of a request are given, and the first comes after the last. -/
def Crosses (start stop : Bound α) : Prop :=
  ∃ a b, start.endpoint? = some a ∧ stop.endpoint? = some b ∧ v.compare order a b = .gt

/-- An inclusive end of a request is not between the bounds of a view, or an
exclusive one not even between its bounds with these themselves. -/
def Leaves (start stop : Bound α) : Prop :=
  ∃ b, (b = start ∨ b = stop) ∧
    ((∃ a, b = .including a ∧ v.inRange order a = false) ∨
      ∃ a, b = .excluding a ∧ v.inClosedRange order a = false)

/-- How a view answers a request for a narrower one. -/
structure Answers (start stop : Bound α) : Prop where
  invalidRange_iff :
    v.narrow order start stop = .error .invalidRange ↔ v.Crosses order start stop
  keyOutOfRange_iff : v.narrow order start stop = .error .keyOutOfRange ↔
    ¬ v.Crosses order start stop ∧ v.Leaves order start stop
  ok_iff : (∃ w, v.narrow order start stop = .ok w) ↔
    ¬ v.Crosses order start stop ∧ ¬ v.Leaves order start stop

end RangeView

/-! ## When a request is refused -/

section Refusal

variable {order : KeyOrder α} {v : RangeView α} {start stop : Bound α}

theorem Bound.crossed_iff {lo hi : Bound α} : Bound.crossed order lo hi = true ↔
    ∃ a b, lo.endpoint? = some a ∧ hi.endpoint? = some b ∧ order.compare a b = .gt := by
  unfold crossed
  cases lo.endpoint? <;> cases hi.endpoint? <;> simp [Ordering.isGT_iff_eq_gt]

/-- Bounds cross in the order of the index if they do in that of the view. -/
theorem crossed_iff_crosses : Bound.crossed order (if v.descending then stop else start)
    (if v.descending then start else stop) = true ↔ v.Crosses order start stop := by
  rw [Bound.crossed_iff]
  unfold RangeView.Crosses RangeView.compare
  cases v.descending with
  | false => rfl
  | true =>
    constructor
    · rintro ⟨a, b, ha, hb, hgt⟩
      exact ⟨b, a, hb, ha, hgt⟩
    · rintro ⟨a, b, ha, hb, hgt⟩
      exact ⟨b, a, hb, ha, hgt⟩

theorem admits_eq_false_iff {b : Bound α} : v.admits order b = false ↔
    (∃ a, b = .including a ∧ v.inRange order a = false) ∨
      ∃ a, b = .excluding a ∧ v.inClosedRange order a = false := by
  cases b <;> simp [RangeView.admits]

theorem admits_and_iff : (v.admits order (if v.descending then stop else start) &&
    v.admits order (if v.descending then start else stop)) = true ↔
      ¬ v.Leaves order start stop := by
  have hboth : (v.admits order (if v.descending then stop else start) &&
      v.admits order (if v.descending then start else stop)) =
      (v.admits order start && v.admits order stop) := by
    cases v.descending with
    | false => rfl
    | true => exact Bool.and_comm _ _
  have hleaves : v.Leaves order start stop ↔
      v.admits order start = false ∨ v.admits order stop = false := by
    unfold RangeView.Leaves
    simp only [← admits_eq_false_iff, or_and_right, exists_or, exists_eq_left]
  rw [hboth, hleaves, Bool.and_eq_true]
  simp

theorem narrow_of_crosses (h : v.Crosses order start stop) :
    v.narrow order start stop = .error .invalidRange :=
  if_pos (crossed_iff_crosses.mpr h)

theorem narrow_of_leaves (h : ¬ v.Crosses order start stop) (hout : v.Leaves order start stop) :
    v.narrow order start stop = .error .keyOutOfRange := by
  unfold RangeView.narrow
  dsimp only
  rw [if_neg (mt crossed_iff_crosses.mp h), if_neg (mt admits_and_iff.mp (not_not.mpr hout))]

/-- A view narrowed without any check. -/
def RangeView.cut (v : RangeView α) (start stop : Bound α) : RangeView α where
  lo := (if v.descending then stop else start).orElse v.lo
  hi := (if v.descending then start else stop).orElse v.hi
  descending := v.descending

theorem narrow_of_not_leaves (h : ¬ v.Crosses order start stop)
    (hin : ¬ v.Leaves order start stop) :
    v.narrow order start stop = .ok (v.cut start stop) := by
  unfold RangeView.narrow
  dsimp only
  rw [if_neg (mt crossed_iff_crosses.mp h), if_pos (admits_and_iff.mpr hin)]
  rfl

/-- A request is refused for one reason or the other, or is granted. -/
theorem narrow_cases (order : KeyOrder α) (v : RangeView α) (start stop : Bound α) :
    (v.Crosses order start stop ∧ v.narrow order start stop = .error .invalidRange) ∨
      (¬ v.Crosses order start stop ∧ v.Leaves order start stop ∧
        v.narrow order start stop = .error .keyOutOfRange) ∨
      (¬ v.Crosses order start stop ∧ ¬ v.Leaves order start stop ∧
        v.narrow order start stop = .ok (v.cut start stop)) := by
  by_cases hcrosses : v.Crosses order start stop
  · exact .inl ⟨hcrosses, narrow_of_crosses hcrosses⟩
  · by_cases hleaves : v.Leaves order start stop
    · exact .inr (.inl ⟨hcrosses, hleaves, narrow_of_leaves hcrosses hleaves⟩)
    · exact .inr (.inr ⟨hcrosses, hleaves, narrow_of_not_leaves hcrosses hleaves⟩)

theorem narrow_answers (order : KeyOrder α) (v : RangeView α) (start stop : Bound α) :
    v.Answers order start stop := by
  rcases narrow_cases order v start stop with
    ⟨hcrosses, heq⟩ | ⟨hcrosses, hleaves, heq⟩ | ⟨hcrosses, hleaves, heq⟩
  · constructor <;> simp [heq, hcrosses]
  · constructor <;> simp [heq, hcrosses, hleaves]
  · constructor <;> simp [heq, hcrosses, hleaves]

end Refusal

/-! ## What a narrower view shows -/

section Granted

variable {order : KeyOrder α} [Std.TransCmp order.keys] {v : RangeView α} {a b : α}

theorem Bound.admitsAbove_of_isGE {lo : Bound α} (hb : lo.admitsAbove order b = true)
    (hab : (order.compare a b).isGE = true) : lo.admitsAbove order a = true := by
  cases lo with
  | unbounded => rfl
  | including c => exact Std.TransCmp.isGE_trans hab hb
  | excluding c =>
    exact Ordering.isGT_iff_eq_gt.mpr
      (Std.TransCmp.gt_of_isGE_of_gt hab (Ordering.isGT_iff_eq_gt.mp hb))

theorem Bound.admitsAbove_of_isGT {lo : Bound α} (hb : lo.closed.admitsAbove order b = true)
    (hab : (order.compare a b).isGT = true) : lo.admitsAbove order a = true := by
  have hgt : order.compare a b = .gt := Ordering.isGT_iff_eq_gt.mp hab
  cases lo with
  | unbounded => rfl
  | including c =>
    have hb : (Bound.including c).admitsAbove order b = true := hb
    exact Bound.admitsAbove_of_isGE hb (by rw [hgt]; rfl)
  | excluding c => exact Ordering.isGT_iff_eq_gt.mpr (Std.TransCmp.gt_of_gt_of_isGE hgt hb)

theorem Bound.admitsBelow_of_isLE {hi : Bound α} (hb : hi.admitsBelow order b = true)
    (hab : (order.compare a b).isLE = true) : hi.admitsBelow order a = true := by
  cases hi with
  | unbounded => rfl
  | including c => exact Std.TransCmp.isLE_trans hab hb
  | excluding c =>
    exact Ordering.isLT_iff_eq_lt.mpr
      (Std.TransCmp.lt_of_isLE_of_lt hab (Ordering.isLT_iff_eq_lt.mp hb))

theorem Bound.admitsBelow_of_isLT {hi : Bound α} (hb : hi.closed.admitsBelow order b = true)
    (hab : (order.compare a b).isLT = true) : hi.admitsBelow order a = true := by
  have hlt : order.compare a b = .lt := Ordering.isLT_iff_eq_lt.mp hab
  cases hi with
  | unbounded => rfl
  | including c =>
    have hb : (Bound.including c).admitsBelow order b = true := hb
    exact Bound.admitsBelow_of_isLE hb (by rw [hlt]; rfl)
  | excluding c => exact Ordering.isLT_iff_eq_lt.mpr (Std.TransCmp.lt_of_lt_of_isLE hlt hb)

/-- What a lower bound in a view admits, the view's own one does. -/
theorem admitsAbove_of_admits {lo : Bound α} (hlo : v.admits order lo = true)
    (hbounded : lo ≠ .unbounded) (ha : lo.admitsAbove order a = true) :
    v.lo.admitsAbove order a = true := by
  cases lo with
  | unbounded => exact absurd rfl hbounded
  | including b => exact Bound.admitsAbove_of_isGE (Bool.and_eq_true_iff.mp hlo).1 ha
  | excluding b => exact Bound.admitsAbove_of_isGT (Bool.and_eq_true_iff.mp hlo).1 ha

theorem admitsBelow_of_admits {hi : Bound α} (hhi : v.admits order hi = true)
    (hbounded : hi ≠ .unbounded) (ha : hi.admitsBelow order a = true) :
    v.hi.admitsBelow order a = true := by
  cases hi with
  | unbounded => exact absurd rfl hbounded
  | including b => exact Bound.admitsBelow_of_isLE (Bool.and_eq_true_iff.mp hhi).2 ha
  | excluding b => exact Bound.admitsBelow_of_isLT (Bool.and_eq_true_iff.mp hhi).2 ha

/-- So it may take the place of the view's own bound. -/
theorem admitsAbove_orElse {lo : Bound α} (hlo : v.admits order lo = true) (a : α) :
    (lo.orElse v.lo).admitsAbove order a =
      (v.lo.admitsAbove order a && lo.admitsAbove order a) := by
  cases lo with
  | unbounded => exact (Bool.and_true _).symm
  | including b | excluding b =>
    rw [Bool.eq_iff_iff, Bool.and_eq_true]
    exact ⟨fun ha => ⟨admitsAbove_of_admits hlo (by simp) ha, ha⟩, fun ha => ha.2⟩

theorem admitsBelow_orElse {hi : Bound α} (hhi : v.admits order hi = true) (a : α) :
    (hi.orElse v.hi).admitsBelow order a =
      (v.hi.admitsBelow order a && hi.admitsBelow order a) := by
  cases hi with
  | unbounded => exact (Bool.and_true _).symm
  | including b | excluding b =>
    rw [Bool.eq_iff_iff, Bool.and_eq_true]
    exact ⟨fun ha => ⟨admitsBelow_of_admits hhi (by simp) ha, ha⟩, fun ha => ha.2⟩

/-- What is asked for in the order of a view lies between the bounds as they are
in the order of the index. -/
theorem requested_eq (v : RangeView α) (start stop : Bound α) (a : α) :
    v.requested order start stop a =
      ((if v.descending then stop else start).admitsAbove order a &&
        (if v.descending then start else stop).admitsBelow order a) := by
  unfold RangeView.requested
  cases hdesc : v.descending with
  | false =>
    have hfrom : v.isFrom order start a = start.admitsAbove order a := by
      cases start <;> simp [RangeView.isFrom, RangeView.compare, hdesc, Bound.admitsAbove]
    have hto : v.isUpTo order stop a = stop.admitsBelow order a := by
      cases stop <;> simp [RangeView.isUpTo, RangeView.compare, hdesc, Bound.admitsBelow]
    rw [hfrom, hto]
    rfl
  | true =>
    have hfrom : v.isFrom order start a = start.admitsBelow order a := by
      cases start <;> simp [RangeView.isFrom, RangeView.compare, hdesc, Bound.admitsBelow,
        order.compare_swap _ a]
    have hto : v.isUpTo order stop a = stop.admitsAbove order a := by
      cases stop <;> simp [RangeView.isUpTo, RangeView.compare, hdesc, Bound.admitsAbove,
        order.compare_swap _ a]
    rw [hfrom, hto]
    exact Bool.and_comm _ _

variable {start stop : Bound α}

/-- What is between the bounds of a narrower view is what is asked for of what is
between those of the view. -/
theorem inRange_cut (hin : ¬ v.Leaves order start stop) (a : α) :
    (v.cut start stop).inRange order a =
      (v.inRange order a && v.requested order start stop a) := by
  obtain ⟨hlo, hhi⟩ := Bool.and_eq_true_iff.mp (admits_and_iff.mpr hin)
  rw [requested_eq, RangeView.inRange, RangeView.inRange, RangeView.cut, admitsAbove_orElse hlo,
    admitsBelow_orElse hhi]
  ac_rfl

theorem shown_cut (hin : ¬ v.Leaves order start stop) (xs : List α) :
    (v.cut start stop).shown order xs =
      (v.shown order xs).filter (v.requested order start stop) := by
  have hfilter : xs.filter ((v.cut start stop).inRange order) =
      (xs.filter (v.inRange order)).filter (v.requested order start stop) := by
    rw [List.filter_filter]
    refine List.filter_congr fun a _ => ?_
    rw [inRange_cut hin, Bool.and_comm]
  have hdescending : (v.cut start stop).descending = v.descending := rfl
  unfold RangeView.shown
  rw [hfilter, hdescending]
  split
  · exact List.filter_reverse.symm
  · rfl

/-- A narrower view has the direction of the view and shows, whatever is in the
index, what the view shows of the request. -/
theorem narrow_shows_requested {w : RangeView α} (h : v.narrow order start stop = .ok w) :
    w.descending = v.descending ∧
      (∀ a, w.inRange order a = (v.inRange order a && v.requested order start stop a)) ∧
      ∀ past, w.toList (SortedIndex.reached order past) =
        (v.toList (SortedIndex.reached order past)).filter (v.requested order start stop) := by
  obtain ⟨-, hin⟩ := (narrow_answers order v start stop).ok_iff.mp ⟨w, h⟩
  obtain rfl : w = v.cut start stop := by
    rcases narrow_cases order v start stop with ⟨-, heq⟩ | ⟨-, -, heq⟩ | ⟨-, -, heq⟩
    · exact absurd (heq.symm.trans h) (by simp)
    · exact absurd (heq.symm.trans h) (by simp)
    · exact (Except.ok.inj (heq.symm.trans h)).symm
  refine ⟨rfl, inRange_cut hin, fun past => ?_⟩
  have hshows := shows_reached order past
  rw [(hshows.reads (v.cut start stop)).toList_eq, (hshows.reads v).toList_eq, shown_cut hin]

end Granted

/-! ## Chains of requests -/

/-- What one can ask of a view. -/
inductive ViewRequest (α : Type)
  | narrow (start stop : Bound α)
  | reverse

/-- Asks something of a view and goes on with the new view, or with the old one
if the request is refused. -/
def RangeView.ask (order : KeyOrder α) (v : RangeView α) :
    ViewRequest α → Option Fault × RangeView α
  | .narrow start stop =>
    match v.narrow order start stop with
    | .ok w => (none, w)
    | .error fault => (some fault, v)
  | .reverse => (none, v.reversed)

section Chain

variable {order : KeyOrder α} {v : RangeView α}

theorem ask_of_ok {start stop : Bound α} {w : RangeView α}
    (h : v.narrow order start stop = .ok w) : v.ask order (.narrow start stop) = (none, w) := by
  simp only [RangeView.ask, h]

theorem ask_of_error {start stop : Bound α} {fault : Fault}
    (h : v.narrow order start stop = .error fault) :
    v.ask order (.narrow start stop) = (some fault, v) := by
  simp only [RangeView.ask, h]

/-- A refused request leaves the view as it is. -/
theorem ask_of_fault {request : ViewRequest α} {fault : Fault}
    (h : (v.ask order request).1 = some fault) : (v.ask order request).2 = v := by
  cases request with
  | reverse => exact absurd h (Option.some_ne_none fault).symm
  | narrow start stop =>
    cases hnarrow : v.narrow order start stop with
    | error fault' => rw [ask_of_error hnarrow]
    | ok w =>
      rw [ask_of_ok hnarrow] at h
      exact absurd h (Option.some_ne_none fault).symm

/-- A view that is narrowed or turned around has nothing new between its bounds. -/
theorem inRange_of_ask [Std.TransCmp order.keys] {request : ViewRequest α} {a : α}
    (ha : (v.ask order request).2.inRange order a = true) : v.inRange order a = true := by
  cases request with
  | reverse => exact ha
  | narrow start stop =>
    cases hnarrow : v.narrow order start stop with
    | error fault =>
      rw [ask_of_error hnarrow] at ha
      exact ha
    | ok w =>
      rw [ask_of_ok hnarrow] at ha
      have hboth : (v.inRange order a && v.requested order start stop a) = true :=
        ((narrow_shows_requested hnarrow).2.1 a).symm.trans ha
      exact (Bool.and_eq_true_iff.mp hboth).1

/-- Nor has the last view of a chain. -/
theorem inRange_of_chain [Std.TransCmp order.keys] (requests : List (ViewRequest α)) {a : α}
    (ha : (runAll (RangeView.ask order) v requests).2.inRange order a = true) :
    v.inRange order a = true := by
  let Inv (w : RangeView α) : Prop := ∀ a, w.inRange order a = true → v.inRange order a = true
  have hstep : ∀ w request, Inv w → Inv (w.ask order request).2 :=
    fun _ _ hw b hb => hw b (inRange_of_ask hb)
  have hend : Inv (runAll (RangeView.ask order) v requests).2 :=
    runAll_invariant hstep (fun _ hb => hb) requests
  exact hend a ha

end Chain

/-- To narrow a view is to intersect it.  It is refused exactly where its ends
cross or leave the view, which then stays as it is.  Else, if the key order is a
total preorder, the narrower view has the direction of the view and shows, over
every past of the index, the elements of the view that were asked for; and no
chain of requests, granted or refused, leads to an element that the first view
does not show. -/
theorem narrow_is_intersection (order : KeyOrder α) (v : RangeView α) :
    (∀ start stop, v.Answers order start stop) ∧
      (∀ request fault, (v.ask order request).1 = some fault → (v.ask order request).2 = v) ∧
      ∀ [Std.TransCmp order.keys],
        (∀ start stop w, v.narrow order start stop = .ok w →
          w.descending = v.descending ∧ ∀ past, w.toList (SortedIndex.reached order past) =
            (v.toList (SortedIndex.reached order past)).filter (v.requested order start stop)) ∧
          ∀ requests past, ∀ a ∈ (runAll (RangeView.ask order) v requests).2.toList
            (SortedIndex.reached order past), a ∈ v.toList (SortedIndex.reached order past) := by
  refine ⟨narrow_answers order v, fun request fault => ask_of_fault, ?_⟩
  intro _
  constructor
  · intro start stop w h
    obtain ⟨hdescending, -, hlist⟩ := narrow_shows_requested h
    exact ⟨hdescending, hlist⟩
  · intro requests past a ha
    have hshows := shows_reached order past
    rw [(hshows.reads _).toList_eq, RangeView.mem_shown] at ha ⊢
    exact ⟨ha.1, inRange_of_chain requests ha.2⟩

/-- A descending view that leaves its upper bound out is narrowed from this bound,
left out again, down to a record that is taken in. -/
theorem narrow_is_intersection_bucket :
    Std.TransCmp RecordOrder.bucket.keyOrder.keys ∧
      let v : RangeView Record := ⟨.unbounded, .excluding ⟨⟨7⟩, 15, ⟨1⟩, ""⟩, true⟩
      let w : RangeView Record :=
        ⟨.including ⟨⟨2⟩, 10, ⟨1⟩, ""⟩, .excluding ⟨⟨7⟩, 15, ⟨1⟩, ""⟩, true⟩
      v.narrow RecordOrder.bucket.keyOrder (.excluding ⟨⟨7⟩, 15, ⟨1⟩, ""⟩)
          (.including ⟨⟨2⟩, 10, ⟨1⟩, ""⟩) = .ok w ∧
        w.toList (SortedIndex.reached RecordOrder.bucket.keyOrder
          [.act (.add ⟨⟨2⟩, 11, ⟨1⟩, ""⟩), .act (.add ⟨⟨7⟩, 14, ⟨1⟩, ""⟩),
            .act (.add ⟨⟨3⟩, 19, ⟨1⟩, ""⟩), .act (.add ⟨⟨1⟩, 12, ⟨1⟩, ""⟩)]) =
          [⟨⟨3⟩, 19, ⟨1⟩, ""⟩, ⟨⟨2⟩, 11, ⟨1⟩, ""⟩] := by
  refine ⟨inferInstance, ?_⟩
  intro v w
  have hnarrow : v.narrow RecordOrder.bucket.keyOrder (.excluding ⟨⟨7⟩, 15, ⟨1⟩, ""⟩)
      (.including ⟨⟨2⟩, 10, ⟨1⟩, ""⟩) = .ok w := rfl
  have hgranted := (narrow_is_intersection RecordOrder.bucket.keyOrder v).2.2.1
  exact ⟨hnarrow, ((hgranted _ _ w hnarrow).2 _).trans rfl⟩

end SnapshotIndex
