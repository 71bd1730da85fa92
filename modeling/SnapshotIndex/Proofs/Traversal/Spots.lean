import SnapshotIndex.Proofs.Snapshot.Captures
import SnapshotIndex.Proofs.Snapshot.Reached
import SnapshotIndex.Proofs.Snapshot.Shelves
import SnapshotIndex.Proofs.Sorted.Refinement

/-!
# Cursors are machines of `n + 2` states

Over `n` elements a cursor stands on one of them, or is unpositioned, or is
exhausted: it is at a `Spot`.  The moves of spots are told in a few lines and
know nothing of slots, windows or sentinels, and every cursor that is captured
of a bag, of a sorted index or of a range view goes from spot to spot with
them, and so does every copy of it (`cursor_simulates_spot`).

A cursor over a list is already close to this.  What is left is where a search
leads: in a bag to the element of an identity, and in an array, which looks
for the place by bisection over all of it and then corrects it to the window,
to the first element of the window whose keys are not smaller
(`numberIn_eq_findIdx?`).
-/

namespace SnapshotIndex

open Identified (ident)

variable {α : Type}

/-! ## Spots -/

/-- Where a cursor over `n` elements can be. -/
inductive Spot (n : Nat)
  | unpositioned
  | on (i : Fin n)
  | exhausted
deriving DecidableEq

/-- The moves of a cursor. -/
inductive CursorMove (α : Type)
  | toFirst
  | toLast
  | next
  | prev
  | moveTo (a : α)

namespace Spot

variable {n : Nat}

/-- On the element of a number, or past the end if there is none. -/
def ofNat (n i : Nat) : Spot n := if h : i < n then .on ⟨i, h⟩ else .exhausted

def first (n : Nat) : Spot n := ofNat n 0

def last (n : Nat) : Spot n := ofNat n (n - 1)

/-- One element on. -/
def next : Spot n → Spot n
  | .unpositioned => first n
  | .on i => ofNat n (i + 1)
  | .exhausted => .exhausted

/-- One element back. -/
def prev : Spot n → Spot n
  | .unpositioned => last n
  | .on ⟨0, _⟩ => .exhausted
  | .on ⟨i + 1, h⟩ => .on ⟨i, Nat.lt_of_succ_lt h⟩
  | .exhausted => .exhausted

/-- The first element that passes a test. -/
def seek (xs : List α) (passes : α → Bool) : Spot xs.length :=
  match xs.findFinIdx? passes with
  | some i => .on i
  | none => .exhausted

/-- One move over a list, where a search for `a` leads to the first `b` with
`leads a b`. -/
def move (xs : List α) (leads : α → α → Bool) (spot : Spot xs.length) :
    CursorMove α → Spot xs.length
  | .toFirst => first xs.length
  | .toLast => last xs.length
  | .next => spot.next
  | .prev => spot.prev
  | .moveTo a => seek xs (leads a)

/-- The element at a spot. -/
def get (xs : List α) : Spot xs.length → Except Fault α
  | .unpositioned => .error (.precondition "cursor is not positioned")
  | .on i => .ok xs[i]
  | .exhausted => .error (.precondition "cursor is exhausted")

/-- The spot as a cursor over a list has it. -/
def standing : Spot n → ListStanding
  | .unpositioned => .unpositioned
  | .on i => .on i
  | .exhausted => .exhausted

theorem standing_ofNat (n i : Nat) :
    (ofNat n i).standing = if i < n then .on i else .exhausted := by
  unfold ofNat
  split <;> rfl

theorem standing_seek (xs : List α) (passes : α → Bool) :
    (seek xs passes).standing =
      match xs.findIdx? passes with
      | some i => .on i
      | none => .exhausted := by
  rw [List.findIdx?_eq_map_findFinIdx?_val]
  unfold seek
  cases xs.findFinIdx? passes <;> rfl

end Spot

/-! ## Cursors over a list -/

/-- A move as a use of a cursor. -/
def CursorMove.use : CursorMove α → CursorUse α
  | .toFirst => .toFirst
  | .toLast => .toLast
  | .next => .next
  | .prev => .prev
  | .moveTo a => .moveTo a

/-- A cursor over a list is at a spot, and searches the list in order. -/
structure ListCursor.At (l : ListCursor α) (xs : List α) (leads : α → α → Bool)
    (spot : Spot xs.length) : Prop where
  elements_eq : l.elements = xs
  seek_eq : ∀ a, l.seek a = xs.findIdx? (leads a)
  standing_eq : l.standing = spot.standing

namespace ListCursor.At

variable {l : ListCursor α} {xs : List α} {leads : α → α → Bool} {spot : Spot xs.length}

theorem settle (h : l.At xs leads spot) (i : Nat) :
    (l.settle i).At xs leads (.ofNat xs.length i) where
  elements_eq := h.elements_eq
  seek_eq := h.seek_eq
  standing_eq := by
    rw [Spot.standing_ofNat, ← h.elements_eq]
    rfl

theorem exhaust (h : l.At xs leads spot) :
    ListCursor.At { l with standing := .exhausted } xs leads .exhausted :=
  ⟨h.elements_eq, h.seek_eq, rfl⟩

theorem toLast (h : l.At xs leads spot) : l.toLast.At xs leads (.last xs.length) := by
  have hlast := h.settle (xs.length - 1)
  unfold ListCursor.toLast
  rw [h.elements_eq]
  exact hlast

theorem next (h : l.At xs leads spot) : l.next.At xs leads spot.next := by
  have hstanding := h.standing_eq
  unfold ListCursor.next
  cases spot with
  | unpositioned =>
    rw [hstanding]
    exact h.settle 0
  | on i =>
    rw [hstanding]
    exact h.settle (i + 1)
  | exhausted =>
    rw [hstanding]
    exact h

theorem prev (h : l.At xs leads spot) : l.prev.At xs leads spot.prev := by
  have hstanding := h.standing_eq
  unfold ListCursor.prev
  cases spot with
  | unpositioned =>
    rw [hstanding]
    exact h.toLast
  | on i =>
    rcases i with ⟨_ | i, hi⟩
    · rw [hstanding]
      exact h.exhaust
    · -- a spot before another one is never past the end
      have hback := h.settle i
      rw [Spot.ofNat, dif_pos (Nat.lt_of_succ_lt hi)] at hback
      rw [hstanding]
      exact hback
  | exhausted =>
    rw [hstanding]
    exact h

theorem moveTo (h : l.At xs leads spot) (a : α) :
    (l.moveTo a).At xs leads (.seek xs (leads a)) := by
  have hstanding := Spot.standing_seek xs (leads a)
  unfold ListCursor.moveTo
  rw [h.seek_eq a]
  cases hfound : xs.findIdx? (leads a) with
  | none =>
    rw [hfound] at hstanding
    exact ⟨h.elements_eq, h.seek_eq, hstanding.symm⟩
  | some i =>
    rw [hfound] at hstanding
    obtain ⟨hi, -⟩ := List.findIdx?_eq_some_iff_getElem.mp hfound
    refine ⟨h.elements_eq, h.seek_eq, ?_⟩
    rw [hstanding, (h.settle i).standing_eq, Spot.standing_ofNat, if_pos hi]

/-- A move of a cursor over a list is one from spot to spot. -/
theorem move (h : l.At xs leads spot) (m : CursorMove α) :
    (l.use m.use).2.At xs leads (spot.move xs leads m) := by
  cases m with
  | toFirst => exact h.settle 0
  | toLast => exact h.toLast
  | next => exact h.next
  | prev => exact h.prev
  | moveTo a => exact h.moveTo a

theorem isValid_iff (h : l.At xs leads spot) : l.isValid = true ↔ ∃ i, spot = .on i := by
  have hstanding := h.standing_eq
  unfold ListCursor.isValid
  cases spot <;> rw [hstanding] <;> simp [Spot.standing]

theorem get_eq (h : l.At xs leads spot) : l.get = spot.get xs := by
  have hstanding := h.standing_eq
  unfold ListCursor.get
  cases spot with
  | unpositioned =>
    rw [hstanding]
    rfl
  | on i =>
    rw [hstanding, h.elements_eq]
    simp [Spot.standing, Spot.get]
  | exhausted =>
    rw [hstanding]
    rfl

end ListCursor.At

/-! ## Where a search leads -/

/-- The first number from which on a test holds. -/
theorem findIdx?_of_threshold {xs : List α} {p : α → Bool} {k : Nat}
    (h : ∀ (i : Nat) b, xs[i]? = some b → (p b = true ↔ k ≤ i)) :
    xs.findIdx? p = if k < xs.length then some k else none := by
  split
  · rename_i hk
    rw [List.findIdx?_eq_some_iff_getElem]
    refine ⟨hk, (h k _ (List.getElem?_eq_getElem hk)).mpr (Nat.le_refl k), fun j hj => ?_⟩
    rw [h j _ (List.getElem?_eq_getElem (by omega))]
    omega
  · rename_i hk
    rw [List.findIdx?_eq_none_iff]
    intro b hb
    obtain ⟨i, hi⟩ := List.mem_iff_getElem?.mp hb
    have hlt := (List.getElem?_eq_some_iff.mp hi).1
    rw [Bool.eq_false_iff, Ne, h i b hi]
    omega

section Sorted

variable [Identified α] {order : KeyOrder α} [Std.TransCmp order.keys] {c : SortedArray α}

/-- The elements with smaller keys are those before the point of bisection. -/
theorem Shows.lt_partitionByKeys_iff {xs : List α} (h : Shows order c xs) (a : α) {i : Nat} {b : α}
    (hb : xs[i]? = some b) : order.keys b a = .lt ↔ i < c.partitionByKeys a := by
  obtain ⟨rfl, rfl, hinc⟩ := h
  have hdown : ∀ (i j : Nat) b d, i ≤ j → c.toList[i]? = some b → c.toList[j]? = some d →
      (c.order.keys d a).isLT = true → (c.order.keys b a).isLT = true := by
    intro i j b d hij hb hd hless
    rw [Ordering.isLT_iff_eq_lt] at hless ⊢
    rcases Nat.lt_or_eq_of_le hij with hlt | rfl
    · exact Std.TransCmp.lt_of_isLE_of_lt (hinc.keys_isLE hlt hb hd) hless
    · obtain rfl : b = d := Option.some.inj (hb.symm.trans hd)
      exact hless
  have hpoint := c.partitionPoint_spec hdown i b hb
  rwa [Ordering.isLT_iff_eq_lt] at hpoint

/-- Bisection over all of an array leads, within a span, to the first element
whose keys are not smaller. -/
theorem Shows.numberIn_eq_findIdx? {xs : List α} (h : Shows order c xs) {s : Span}
    (hstop : s.stop ≤ c.size) (a : α) :
    c.numberIn s a = (c.slice s).findIdx? fun b => (order.keys b a).isGE := by
  have hthreshold : ∀ (i : Nat) b, (c.slice s)[i]? = some b →
      ((order.keys b a).isGE = true ↔ max (c.partitionByKeys a) s.start - s.start ≤ i) := by
    intro i b hb
    have hi : i < s.size := by
      rw [← SortedArray.length_slice hstop]
      exact (List.getElem?_eq_some_iff.mp hb).1
    rw [c.getElem?_slice hi, h.toList_eq] at hb
    have hless := h.lt_partitionByKeys_iff a hb
    cases hkeys : order.keys b a <;> simp [hkeys] at hless ⊢ <;> omega
  rw [findIdx?_of_threshold hthreshold, SortedArray.length_slice hstop]
  rfl

end Sorted

/-! ## Cursors and their copies -/

/-- What happens to cursors that are kept under names. -/
inductive CursorAct (α : Type)
  | move (name : String) (m : CursorMove α)
  | copy (source name : String)

/-- What is kept after one act, when `step` makes the moves. -/
def CursorAct.carryOut {κ : Type} (step : κ → CursorMove α → κ) (kept : Assoc String κ) :
    CursorAct α → Assoc String κ
  | .move name m => kept.modify name fun c => step c m
  | .copy source name =>
    match kept.get? source with
    | none => kept
    | some c => kept.insert name c

section CarryOut

variable {κ τ : Type} {R : κ → τ → Prop} {step : κ → CursorMove α → κ}
  {step' : τ → CursorMove α → τ} {kept : Assoc String κ} {kept' : Assoc String τ}

/-- What goes together before an act goes together after it. -/
theorem related_carryOut (hstep : ∀ c d m, R c d → R (step c m) (step' d m))
    (h : kept.Related R kept') (act : CursorAct α) :
    (act.carryOut step kept).Related R (act.carryOut step' kept') := by
  cases act with
  | move name m => exact h.modify_all name fun c d hcd => hstep c d m hcd
  | copy source name =>
    simp only [CursorAct.carryOut]
    cases hget : kept.get? source with
    | none =>
      rw [h.eq_none hget]
      exact h
    | some c =>
      obtain ⟨d, hd, hcd⟩ := h.exists_right hget
      rw [hd]
      exact h.insert name hcd

theorem related_foldl (hstep : ∀ c d m, R c d → R (step c m) (step' d m))
    (h : kept.Related R kept') (acts : List (CursorAct α)) :
    (acts.foldl (CursorAct.carryOut step) kept).Related R
      (acts.foldl (CursorAct.carryOut step') kept') := by
  induction acts generalizing kept kept' with
  | nil => exact h
  | cons act rest ih => exact ih (related_carryOut hstep h act)

end CarryOut

/-! ## Captured cursors -/

variable [Identified α]

/-- One move of a cursor over what its snapshot reads. -/
def EitherCursor.move (c : EitherCursor α) (content : EitherStore α) :
    CursorMove α → EitherCursor α
  | .toFirst => c.toFirst content
  | .toLast => c.toLast content
  | .next => c.next content
  | .prev => c.prev content
  | .moveTo a => c.moveTo content a

/-- What can be seen of a cursor that is at a spot of a list. -/
structure EitherCursor.IsAt (c : EitherCursor α) (content : EitherStore α) (xs : List α)
    (spot : Spot xs.length) : Prop where
  unpositioned_iff : c.standing = .unpositioned ↔ spot = .unpositioned
  exhausted_iff : c.standing = .exhausted ↔ spot = .exhausted
  isValid_iff : c.isValid content = true ↔ ∃ i, spot = .on i
  get_eq : c.get content = spot.get xs
  get_ne : c.get content ≠ .error (.precondition "cursor position holds no element")
  size_eq : c.size = xs.length

namespace EitherCursor

variable {c : EitherCursor α} {content : EitherStore α} {l : ListCursor α}

theorem Shows.move (h : c.Shows content l) (m : CursorMove α) :
    (c.move content m).Shows content (l.use m.use).2 := by
  obtain ⟨-, hafter, -⟩ := h.use m.use
  cases m <;> exact hafter

theorem Shows.stands (h : c.Shows content l) : ∃ places, Stands places c.standing l.standing := by
  cases h with
  | bag h => exact ⟨_, h.stands⟩
  | sorted h => exact ⟨_, h.stands⟩

/-- A cursor that is one over a list is where that one is. -/
theorem Shows.isAt {xs : List α} {leads : α → α → Bool} {spot : Spot xs.length}
    (h : c.Shows content l) (hat : l.At xs leads spot) : c.IsAt content xs spot := by
  obtain ⟨places, hstands⟩ := h.stands
  rw [hat.standing_eq] at hstands
  have hget : c.get content = spot.get xs := h.get_eq.trans hat.get_eq
  refine ⟨?_, ?_, ?_, hget, ?_, ?_⟩
  · cases spot <;> generalize c.standing = standing at hstands <;> cases hstands <;> simp
  · cases spot <;> generalize c.standing = standing at hstands <;> cases hstands <;> simp
  · rw [h.isValid_eq, hat.isValid_iff]
  · rw [hget]
    cases spot <;> simp [Spot.get]
  · rw [h.size_eq, hat.elements_eq]

end EitherCursor

namespace Index

/-- A cursor that is captured of a range, and every copy that is made of it and
of its copies at any time, goes from spot to spot of a list, where a search for
`a` leads to the first `b` with `leads a b`. -/
def CursorSimulates (i : Index α) (r : Range α) (xs : List α) (leads : α → α → Bool) : Prop :=
  ∃ c, i.cursor? r = some c ∧ i.read? c.snapshot = some i.content ∧
    ∀ (name : String) (acts : List (CursorAct α)),
      (acts.foldl (CursorAct.carryOut fun c m => c.move i.content m)
        (Assoc.empty.insert name c)).Related
      (fun c spot => c.IsAt i.content xs spot)
      (acts.foldl (CursorAct.carryOut (Spot.move xs leads))
        (Assoc.empty.insert name .unpositioned))

theorem CursorSimulates.of_elements {i : Index α} {r : Range α} {xs : List α}
    {leads : α → α → Bool} (h : i.Sound) (helements : i.elements? r = some xs)
    (hnumber : ∀ a, i.numberIn r a = xs.findIdx? (leads a)) : i.CursorSimulates r xs leads := by
  have hcapture := shows_cursor? h r
  unfold listCursor? at hcapture
  rw [helements, Option.map_some] at hcapture
  generalize hc : i.cursor? r = cursor at hcapture
  rcases hcapture with ⟨hsame, hshows⟩
  rename_i c
  refine ⟨c, hc, by rw [hsame, read?_snapshot], fun name acts => ?_⟩
  -- in between there is a cursor over the list
  let R (c : EitherCursor α) (spot : Spot xs.length) : Prop :=
    ∃ l : ListCursor α, c.Shows i.content l ∧ l.At xs leads spot
  have hstart : R c .unpositioned := ⟨_, hshows, rfl, hnumber, rfl⟩
  have hstep : ∀ c spot m, R c spot → R (c.move i.content m) (Spot.move xs leads spot m) := by
    rintro c spot m ⟨l, hl, hat⟩
    exact ⟨_, hl.move m, hat.move m⟩
  have hrun := related_foldl hstep (Assoc.Related.empty.insert name hstart) acts
  refine hrun.mono ?_
  rintro - c spot - ⟨l, hl, hat⟩
  exact hl.isAt hat

end Index

/-- Every cursor is a list cursor.  Over a bag, over any table that can be
reached and after any actions, it goes through the elements slot by slot and
finds the one of an identity.  Over a sorted index, over any array that can be
reached and after any actions, and over what a view of it shows, it goes
through the elements in order and finds the first one whose keys are not
smaller. -/
theorem cursor_simulates_spot :
    (∀ (capacity load : Nat) (ops : List (TableOp α)) (actions : List (Action α)),
      let i := (Index.bagOver capacity load ops).after actions
      i.CursorSimulates .whole i.toList fun a b => decide (ident b = ident a)) ∧
      ∀ (order : KeyOrder α) [Std.TransCmp order.keys] (ops : List (ArrayOp α))
        (actions : List (Action α)),
        let i := (Index.sortedOver order ops).after actions
        let leads := fun a b => (order.keys b a).isGE
        i.CursorSimulates .whole i.toList leads ∧
          ∀ v : RangeView α, i.CursorSimulates (.view v) (i.toList.filter (v.inRange order)) leads
      := by
  refine ⟨fun capacity load ops actions => ?_, fun order _ ops actions => ?_⟩
  · have hsound := Index.sound_after (Index.sound_bagOver capacity load ops) actions
    obtain ⟨b, hb, -⟩ := Index.bag_after capacity load ops actions
    rw [hb] at hsound ⊢
    exact .of_elements hsound rfl fun a => rfl
  · have hsound := Index.sound_after (Index.sound_sortedOver order ops) actions
    obtain ⟨s, hs, hshows⟩ := Index.sorted_after order ops actions
    rw [hs] at hsound ⊢
    constructor
    · refine .of_elements hsound rfl fun a => ?_
      have hwhole := hshows.numberIn_eq_findIdx? (s := s.content.wholeSpan) (Nat.le_refl _) a
      rwa [SortedArray.slice_whole] at hwhole
    · intro v
      refine .of_elements hsound (congrArg some (hshows.slice_span v)) fun a => ?_
      have hview := hshows.numberIn_eq_findIdx? (s.content.span_le v).2 a
      rwa [hshows.slice_span v] at hview

/-- Sent to the key 15, a cursor over a view of records by tens comes to the
first record of the tens that the view shows, and reads it. -/
theorem cursor_simulates_spot_bucket :
    Std.TransCmp RecordOrder.bucket.keyOrder.keys ∧
      let i := (Index.sortedOver RecordOrder.bucket.keyOrder
        [.add ⟨⟨2⟩, 11, ⟨1⟩, ""⟩, .add ⟨⟨7⟩, 14, ⟨1⟩, ""⟩]).after
          [.snapshot "s", .change (.insert ⟨⟨3⟩, 19, ⟨1⟩, ""⟩)]
      let v : RangeView Record := ⟨.excluding ⟨⟨2⟩, 11, ⟨1⟩, ""⟩, .unbounded, false⟩
      let leads := fun a b => (RecordOrder.bucket.keyOrder.keys b a).isGE
      i.CursorSimulates (.view v) (i.toList.filter (v.inRange RecordOrder.bucket.keyOrder)) leads ∧
        (Spot.seek (i.toList.filter (v.inRange RecordOrder.bucket.keyOrder))
          (leads ⟨⟨1⟩, 15, ⟨1⟩, ""⟩)).get _ = .ok ⟨⟨3⟩, 19, ⟨1⟩, ""⟩ :=
  ⟨inferInstance, (cursor_simulates_spot.2 RecordOrder.bucket.keyOrder _ _).2 _, rfl⟩

end SnapshotIndex
