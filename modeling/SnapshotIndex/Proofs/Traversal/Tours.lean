import SnapshotIndex.Proofs.Traversal.Marks
import SnapshotIndex.Proofs.Traversal.TablePlaces

/-!
# Touring a bag that changes

A tour of a bag starts at the mark of the first element and moves on from mark
to mark.  Between two moves anything may happen to the bag.  The slot under the
mark may lose its element, or be filled with another one, and the table may be
copied because of a snapshot.  None of this matters to the tour, because a move
looks at nothing but the slots after the one where it stands.

* As long as no elements are moved to other slots, the tour stands on a slot, and
  a move leads to the nearest occupied slot after it or to the end of the table
  (`Stands.stride`).  So it comes by the slot of every element that stays, once
  (`Stands.filter_visits`), and reaches the end after as many moves as there are
  slots (`Stands.ended`).
* Once elements are moved, the mark is stale and so is every later one
  (`stale_stride`).  The tour is over, although it may have missed some elements,
  and it never meets one that it has met before (`Stands.onward`).

`tour_of_live_bag` says so of every tour of every bag.
-/

namespace SnapshotIndex

open Identified (ident)

variable {α : Type} [Identified α]

namespace Bag

/-! ## Tours -/

/-- A tour moves on to the next mark, after what has happened to the bag
meanwhile. -/
def stride (stop : Bag α × Mark) (events : List (BagEvent α)) : Bag α × Mark :=
  (events.foldl undergo stop.1, (events.foldl undergo stop.1).next stop.2)

/-- The marks at which a tour arrives, each with the bag at that moment. -/
def stops (stop : Bag α × Mark) : List (List (BagEvent α)) → List (Bag α × Mark)
  | [] => [stop]
  | events :: batches => stop :: stops (stride stop events) batches

/-- Where a tour begins. -/
def outset (b : Bag α) : Bag α × Mark := (b, b.first)

/-- The elements that are read on arrival. -/
def visits (stop : Bag α × Mark) (batches : List (List (BagEvent α))) : List α :=
  (stops stop batches).filterMap fun s => s.1.get? s.2

/-- Whether an element is in a bag at every moment of what happens to it. -/
def Keeps (b : Bag α) (x : α) (events : List (BagEvent α)) : Prop :=
  ∀ past, past <+: events → x ∈ (past.foldl undergo b).toList

variable {b : Bag α} {stop : Bag α × Mark} {events : List (BagEvent α)}
  {batches : List (List (BagEvent α))}

theorem visits_nil : visits stop [] = (stop.1.get? stop.2).toList := by
  unfold visits
  rw [stops, List.filterMap_cons]
  cases stop.1.get? stop.2 <;> rfl

theorem visits_cons : visits stop (events :: batches) =
    (stop.1.get? stop.2).toList ++ visits (stride stop events) batches := by
  unfold visits
  rw [stops, List.filterMap_cons]
  cases stop.1.get? stop.2 <;> rfl

theorem foldl_stride_mem_stops (stop : Bag α × Mark) (batches : List (List (BagEvent α))) :
    batches.foldl stride stop ∈ stops stop batches := by
  induction batches generalizing stop with
  | nil => exact List.mem_singleton_self stop
  | cons events batches ih => exact List.mem_cons_of_mem _ (ih (stride stop events))

/-! ## What happens between two moves -/

theorem wellFormed_events (h : b.content.WellFormed) (events : List (BagEvent α)) :
    (events.foldl undergo b).content.WellFormed := by
  induction events generalizing b with
  | nil => exact h
  | cons event events ih => exact ih (wellFormed_undergo h event)

theorem relocations_append (b : Bag α) (events later : List (BagEvent α)) :
    b.relocations (events ++ later) =
      b.relocations events + (events.foldl undergo b).relocations later := by
  have hall := b.generation_run (events ++ later)
  have hfirst := b.generation_run events
  have hthen := (events.foldl undergo b).generation_run later
  rw [List.foldl_append] at hall
  omega

/-- A table has as many slots as before, unless the elements are moved. -/
theorem size_perform {op : BagOp α} (hstays : b.relocates op = false) :
    (b.perform op).content.size = b.content.size := by
  cases op with
  | insert a =>
    simp only [perform, insert]
    split
    · rfl
    · rw [Tracked.content_attempt]
      exact IdentTable.size_insert hstays
  | remove a =>
    simp only [perform, remove]
    split
    · rw [Tracked.content_attempt]
      exact b.content.size_take (ident a)
    · rfl
  | clear =>
    simp only [perform, clear]
    split
    · rfl
    · rename_i hfull
      simp only [relocates, Bool.eq_false_iff.mpr hfull, Bool.not_false, Bool.true_and,
        Bool.or_eq_false_iff, decide_eq_false_iff_not] at hstays
      obtain ⟨hunshared, hgrown⟩ := hstays
      rw [Tracked.content_renew, hunshared, if_neg Bool.false_ne_true]
      exact IdentTable.size_clear hgrown

theorem size_events (hstays : b.relocations events = 0) :
    (events.foldl undergo b).content.size = b.content.size := by
  induction events generalizing b with
  | nil => rfl
  | cons event events ih =>
    cases event with
    | act op =>
      obtain ⟨hhere, hrest⟩ := Nat.add_eq_zero_iff.mp hstays
      exact (ih hrest).trans (size_perform (Bool.toNat_eq_zero.mp hhere))
    | hold s => exact (ih hstays).trans (congrArg IdentTable.size (Tracked.content_hold b s))
    | release s => exact (ih hstays).trans (congrArg IdentTable.size (Tracked.content_release b s))

/-- An operation after which an element is still there does not remove it. -/
theorem not_removes_of_mem (h : b.content.WellFormed) {op : BagOp α} {x : α}
    (hx : x ∈ b.toList) (hstill : x ∈ (b.perform op).toList) : ¬ op.Removes x := by
  intro hremoves
  cases op with
  | insert a => exact hremoves
  | remove a =>
    have hheld : b.contains a = true := (h.contains_iff a).mpr ⟨x, hx, hremoves.symm⟩
    simp only [perform, remove, if_pos hheld, toList, Tracked.content_attempt] at hstill
    change x ∈ (b.content.take (ident a)).2.toList at hstill
    rw [(h.take (ident a)).2, List.mem_filter] at hstill
    exact of_decide_eq_true hstill.2 hremoves.symm
  | clear =>
    simp only [perform, clear] at hstill
    split at hstill
    · rename_i hempty
      have hcount : b.content.toList.length = 0 := by
        rw [← h.count_eq]
        exact beq_iff_eq.mp hempty
      exact absurd (List.length_pos_of_mem hx) (by rw [toList, hcount]; exact Nat.lt_irrefl 0)
    · rw [toList, Tracked.content_renew] at hstill
      split at hstill
      · rw [h.emptyLike.2] at hstill
        exact List.not_mem_nil hstill
      · rw [h.clear.2] at hstill
        exact List.not_mem_nil hstill

theorem Keeps.now {x : α} (h : b.Keeps x events) : x ∈ b.toList :=
  h [] List.nil_prefix

theorem Keeps.left {x : α} {later : List (BagEvent α)} (h : b.Keeps x (events ++ later)) :
    b.Keeps x events :=
  fun past hpast => h past (hpast.trans (List.prefix_append events later))

theorem Keeps.right {x : α} {later : List (BagEvent α)} (h : b.Keeps x (events ++ later)) :
    (events.foldl undergo b).Keeps x later := by
  intro past hpast
  rw [← List.foldl_append]
  exact h (events ++ past) ((List.prefix_append_right_inj events).mpr hpast)

theorem Keeps.not_removes {x : α} (h : b.Keeps x events) (hwell : b.content.WellFormed) :
    ∀ op, .act op ∈ events → ¬ op.Removes x := by
  intro op hop
  obtain ⟨done, rest, rfl⟩ := List.append_of_mem hop
  have hbefore : x ∈ (done.foldl undergo b).toList := h.right.now
  have hafter : x ∈ ((done.foldl undergo b).perform op).toList :=
    h.right [.act op] (List.prefix_append [.act op] rest)
  exact not_removes_of_mem (wellFormed_events hwell done) hbefore hafter

/-! ## Tours that are over -/

/-- A stale mark stays stale however the tour goes on. -/
theorem stale_stride
    (h : stop.2.generation < (events.foldl undergo stop.1).content.generation) :
    (stride stop events).2.generation < (stride stop events).1.content.generation :=
  @stale_follow _ _ (events.foldl undergo stop.1) stop.2 h (.move .next) trivial

theorem stale_stops (h : stop.2.generation < stop.1.content.generation) :
    ∀ s ∈ stops stop batches, s.1.isValid s.2 = false ∧ s.1.get? s.2 = none := by
  induction batches generalizing stop with
  | nil =>
    intro s hs
    obtain rfl := List.mem_singleton.mp hs
    exact get?_of_ne (Nat.ne_of_lt h)
  | cons events batches ih =>
    intro s hs
    rcases List.mem_cons.mp hs with rfl | hlater
    · exact get?_of_ne (Nat.ne_of_lt h)
    · refine ih (stale_stride ?_) s hlater
      rw [generation_run]
      exact Nat.lt_add_right _ h

/-- Once elements are moved the tour is over. -/
theorem Marked.over (h : stop.1.Marked stop.2) (hmoved : stop.1.relocations events ≠ 0) :
    ∀ s ∈ stops (stride stop events) batches, s.1.isValid s.2 = false ∧ s.1.get? s.2 = none := by
  refine stale_stops (stale_stride ?_)
  have hle := h.generation_le
  rw [generation_run]
  omega

theorem Marked.stride (h : stop.1.Marked stop.2) (events : List (BagEvent α)) :
    (Bag.stride stop events).1.Marked (Bag.stride stop events).2 := by
  have hlater : (events.foldl undergo stop.1).Marked stop.2 := by
    refine ⟨wellFormed_events h.wellFormed events, ?_⟩
    rw [generation_run]
    exact Nat.le_add_right_of_le h.generation_le
  exact hlater.move .next

theorem Marked.foldl_stride (h : stop.1.Marked stop.2) (batches : List (List (BagEvent α))) :
    (batches.foldl Bag.stride stop).1.Marked (batches.foldl Bag.stride stop).2 := by
  induction batches generalizing stop with
  | nil => exact h
  | cons events batches ih => exact ih (h.stride events)

/-! ## Tours under way -/

/-- On arrival a tour stands on an occupied slot or at the end of the table. -/
structure Stands (stop : Bag α × Mark) (p : Nat) : Prop where
  wellFormed : stop.1.content.WellFormed
  mark_eq : stop.2 = stop.1.mark (.nth p)
  place : p ∈ stop.1.content.places ∨ p = stop.1.content.size

namespace Stands

variable {p : Nat}

theorem marked (h : Stands stop p) : stop.1.Marked stop.2 := by
  refine ⟨h.wellFormed, ?_⟩
  rw [h.mark_eq]
  exact Nat.le_refl _

theorem get?_eq (h : Stands stop p) : stop.1.get? stop.2 = stop.1.content.element? p := by
  rw [h.mark_eq, get?, place?, mark, if_pos rfl]
  rfl

theorem isValid_iff (h : Stands stop p) :
    stop.1.isValid stop.2 = true ↔ p < stop.1.content.size := by
  have hread : stop.1.isValid stop.2 = true ↔ p ∈ stop.1.content.places := by
    rw [isValid, h.get?_eq, IdentTable.mem_places]
    rfl
  rw [hread]
  constructor
  · exact IdentTable.lt_size_of_mem_places
  · intro hlt
    exact h.place.resolve_right (Nat.ne_of_lt hlt)

/-- A tour begins at the first occupied slot. -/
theorem outset (h : b.content.WellFormed) :
    ∃ p, Stands b.outset p ∧ ∀ s ∈ b.content.places, p ≤ s := by
  obtain ⟨p, hp, hplace, hnearest⟩ := b.content.placeFrom_nearest 0
  refine ⟨p, ⟨h, congrArg b.mark hp, hplace.imp_left And.left⟩, ?_⟩
  intro s hs
  exact hnearest s hs (Nat.zero_le s)

/-- As long as no elements are moved, a tour goes on to the nearest occupied
slot after the one where it stands, or to the end. -/
theorem stride (h : Stands stop p) (hstays : stop.1.relocations events = 0) :
    ∃ q, Stands (Bag.stride stop events) q ∧ (p < q ∨ q = stop.1.content.size) ∧
      ∀ s ∈ (Bag.stride stop events).1.content.places, p < s → q ≤ s := by
  let t := events.foldl undergo stop.1
  have hsize : t.content.size = stop.1.content.size := size_events hstays
  -- the mark is of this generation still, and a move starts from its slot
  have hplace : t.place? stop.2 = some (.nth p) := by
    have hgeneration : t.content.generation = stop.1.content.generation := by
      rw [stop.1.generation_run events, hstays, Nat.add_zero]
    rw [h.mark_eq, place?, mark, if_pos hgeneration.symm]
  obtain ⟨q, hq, hnext, hnearest⟩ := t.content.placeFrom_nearest (p + 1)
  have hmark : t.next stop.2 = t.mark (.nth q) := by
    rw [next, hplace]
    exact congrArg t.mark hq
  refine ⟨q, ⟨wellFormed_events h.wellFormed events, hmark, hnext.imp_left And.left⟩, ?_, ?_⟩
  · rcases hnext with ⟨-, hlt⟩ | hend
    · exact .inl hlt
    · exact .inr (hend.trans hsize)
  · intro s hs hlt
    exact hnearest s hs hlt

/-- A stop at an element is not before the slot where the tour has come to, and
the tour has not come to the end. -/
theorem rank_lt (h : Stands stop p) {s : Bag α × Mark} (hs : s ∈ stops stop batches)
    (hvalid : s.1.isValid s.2 = true) : p < stop.1.content.size ∧ p < s.2.slot.rank := by
  induction batches generalizing stop p with
  | nil =>
    obtain rfl := List.mem_singleton.mp hs
    refine ⟨h.isValid_iff.mp hvalid, ?_⟩
    rw [h.mark_eq]
    exact Nat.lt_succ_self p
  | cons events batches ih =>
    rcases List.mem_cons.mp hs with rfl | hlater
    · refine ⟨h.isValid_iff.mp hvalid, ?_⟩
      rw [h.mark_eq]
      exact Nat.lt_succ_self p
    · by_cases hstays : stop.1.relocations events = 0
      · obtain ⟨q, hq, hpq, -⟩ := h.stride hstays
        obtain ⟨hqsize, hqs⟩ := ih hq hlater
        have hsize : (Bag.stride stop events).1.content.size = stop.1.content.size :=
          size_events hstays
        omega
      · obtain ⟨hinvalid, -⟩ := h.marked.over hstays s hlater
        exact absurd hvalid (Bool.eq_false_iff.mp hinvalid)

/-- Before a stop at an element there are stops at elements alone, all of them
in earlier slots. -/
theorem onward (h : Stands stop p) : (stops stop batches).Pairwise fun s t =>
    t.1.isValid t.2 = true → s.1.isValid s.2 = true ∧ s.2.slot.rank < t.2.slot.rank := by
  induction batches generalizing stop p with
  | nil => exact List.pairwise_singleton _ stop
  | cons events batches ih =>
    rw [stops, List.pairwise_cons]
    by_cases hstays : stop.1.relocations events = 0
    · obtain ⟨q, hq, hpq, -⟩ := h.stride hstays
      refine ⟨?_, ih hq⟩
      intro t ht hvalid
      obtain ⟨hqsize, hqt⟩ := hq.rank_lt ht hvalid
      have hsize : (Bag.stride stop events).1.content.size = stop.1.content.size :=
        size_events hstays
      have hlt : p < q := by omega
      refine ⟨h.isValid_iff.mpr (by omega), ?_⟩
      rw [h.mark_eq]
      exact Nat.lt_of_le_of_lt hlt hqt
    · -- no stop after this one is at an element
      have hover : ∀ t ∈ stops (Bag.stride stop events) batches, t.1.isValid t.2 ≠ true :=
        fun t ht => Bool.eq_false_iff.mp (h.marked.over hstays t ht).1
      refine ⟨fun t ht hvalid => absurd hvalid (hover t ht), ?_⟩
      rw [List.pairwise_iff_getElem]
      intro i j _ hj _ hvalid
      exact absurd hvalid (hover _ (List.getElem_mem hj))

/-- The end of the table is reached after as many moves as there are slots. -/
theorem ended (h : Stands stop p) (hmoves : stop.1.content.size ≤ p + batches.length) :
    (batches.foldl Bag.stride stop).1.isValid (batches.foldl Bag.stride stop).2 = false := by
  induction batches generalizing stop p with
  | nil =>
    rw [Bool.eq_false_iff]
    intro hvalid
    exact absurd (h.isValid_iff.mp hvalid) (Nat.not_lt.mpr hmoves)
  | cons events batches ih =>
    by_cases hstays : stop.1.relocations events = 0
    · obtain ⟨q, hq, hpq, -⟩ := h.stride hstays
      have hsize : (Bag.stride stop events).1.content.size = stop.1.content.size :=
        size_events hstays
      refine ih hq ?_
      rw [List.length_cons] at hmoves
      omega
    · exact (h.marked.over hstays _ (foldl_stride_mem_stops _ batches)).1

/-- What is read at a stop is the element of an identity if it is in that slot, and
one of another identity if it is in another slot. -/
theorem filter_get? (h : Stands stop p) {x : α} {i : Nat}
    (hx : stop.1.content.element? i = some x) :
    (stop.1.get? stop.2).toList.filter (fun y => ident y = ident x) =
      if p = i then [x] else [] := by
  rw [h.get?_eq]
  split
  · rename_i hsame
    rw [hsame, hx, Option.toList_some, List.filter_cons_of_pos (by simp), List.filter_nil]
  · rename_i hother
    rw [List.filter_eq_nil_iff]
    intro y hy
    have hread := Option.mem_toList.mp hy
    have hne : ident y ≠ ident x := fun hid =>
      hother (h.wellFormed.unique p i y x hread hx hid)
    simpa using hne

/-- An element that stays is met once by a tour that has not come past its slot,
and not at all by one that has. -/
theorem filter_visits (h : Stands stop p) {x : α} {i : Nat}
    (hx : stop.1.content.element? i = some x) (hstays : stop.1.relocations batches.flatten = 0)
    (hkept : stop.1.Keeps x batches.flatten)
    (hended : (batches.foldl Bag.stride stop).1.isValid (batches.foldl Bag.stride stop).2 = false) :
    (visits stop batches).filter (fun y => ident y = ident x) = if p ≤ i then [x] else [] := by
  induction batches generalizing stop p with
  | nil =>
    have hsize := IdentTable.lt_size_of_element? hx
    have hpast : ¬ p < stop.1.content.size := by
      rw [← h.isValid_iff]
      exact Bool.eq_false_iff.mp hended
    rw [visits_nil, h.filter_get? hx, if_neg (by omega), if_neg (by omega)]
  | cons events batches ih =>
    rw [List.flatten_cons] at hkept hstays
    rw [relocations_append] at hstays
    obtain ⟨hfirst, hthen⟩ := Nat.add_eq_zero_iff.mp hstays
    obtain ⟨q, hq, hpq, hnearest⟩ := h.stride hfirst
    have hsame : (Bag.stride stop events).1.content.element? i = some x :=
      element?_run h.wellFormed hx (hkept.left.not_removes h.wellFormed) hfirst
    have hplace : i ∈ (Bag.stride stop events).1.content.places :=
      IdentTable.mem_places.mpr (IdentTable.isOccupied_iff.mpr ⟨x, hsame⟩)
    have hrest := ih hq hsame hthen hkept.right hended
    have hsize := IdentTable.lt_size_of_element? hx
    rw [visits_cons, List.filter_append, h.filter_get? hx, hrest]
    rcases Nat.lt_trichotomy p i with hlt | rfl | hgt
    · -- the element is still ahead, and the next stop is not beyond it
      have hahead : q ≤ i := hnearest i hplace hlt
      rw [if_neg (Nat.ne_of_lt hlt), if_pos hahead, if_pos (Nat.le_of_lt hlt)]
      rfl
    · -- the tour is at the element and leaves it behind
      have hbehind : ¬ q ≤ p := by omega
      rw [if_pos rfl, if_neg hbehind, if_pos (Nat.le_refl p)]
      rfl
    · have hbehind : ¬ q ≤ i := by omega
      rw [if_neg (Nat.ne_of_gt hgt), if_neg hbehind, if_neg (Nat.not_le.mpr hgt)]
      rfl

end Stands

/-! ## Every tour -/

/-- What a tour of a bag is like that begins at the first element, if such and such
happens between its moves. -/
structure Tour (b : Bag α) (batches : List (List (BagEvent α))) : Prop where
  /-- What is read on arrival is in the bag at that moment. -/
  present : ∀ s ∈ stops b.outset batches, ∀ x, s.1.get? s.2 = some x → x ∈ s.1.toList
  /-- Before a stop at an element there are stops at elements alone, all of them
  in earlier slots. -/
  onward : (stops b.outset batches).Pairwise fun s t =>
    t.1.isValid t.2 = true → s.1.isValid s.2 = true ∧ s.2.slot.rank < t.2.slot.rank
  /-- After as many moves as there were slots in the beginning the tour is over. -/
  ended : b.content.size ≤ batches.length →
    (batches.foldl stride b.outset).1.isValid (batches.foldl stride b.outset).2 = false
  /-- A tour that comes to its end without any elements having been moved has read
  every element that was there all the time, and has read it once. -/
  once : b.relocations batches.flatten = 0 →
    (batches.foldl stride b.outset).1.isValid (batches.foldl stride b.outset).2 = false →
      ∀ x, b.Keeps x batches.flatten →
        (visits b.outset batches).filter (fun y => ident y = ident x) = [x]
  /-- If elements are moved between two moves, the second of them leads to no
  element, and nor do those after it. -/
  halted : ∀ done events rest, batches = done ++ events :: rest →
    (done.foldl stride b.outset).1.relocations events ≠ 0 →
      ∀ s ∈ stops (stride (done.foldl stride b.outset) events) rest,
        s.1.isValid s.2 = false ∧ s.1.get? s.2 = none

theorem tour (h : b.content.WellFormed) (batches : List (List (BagEvent α))) :
    b.Tour batches := by
  obtain ⟨p, hp, hnearest⟩ := Stands.outset h
  constructor
  · intro s _ x hread
    obtain ⟨-, i, -, hx⟩ := get?_eq_some_iff.mp hread
    exact IdentTable.mem_toList.mpr ⟨i, hx⟩
  · exact hp.onward
  · intro hmoves
    exact hp.ended (Nat.le_add_left_of_le hmoves)
  · intro hstays hended x hkept
    obtain ⟨i, hx⟩ := IdentTable.mem_toList.mp hkept.now
    have hplace : i ∈ b.content.places :=
      IdentTable.mem_places.mpr (IdentTable.isOccupied_iff.mpr ⟨x, hx⟩)
    have hvisits := hp.filter_visits hx hstays hkept hended
    rw [if_pos (hnearest i hplace)] at hvisits
    exact hvisits
  · intro done events rest _ hmoved
    exact (hp.marked.foldl_stride done).over hmoved

end Bag

/-- A tour of a bag that changes on the way meets every element that stays once,
and no element that is not there, unless elements are moved, when it is over.  This
holds of every bag, whatever was done to it, with snapshots of it held as you
like. -/
theorem tour_of_live_bag (capacity load : Nat) (ops : List (TableOp α))
    (before : List (BagEvent α)) (batches : List (List (BagEvent α))) :
    let start : Bag α := .of (runAll IdentTable.perform (.withLoad capacity load) ops).2
    (before.foldl Bag.undergo start).Tour batches := by
  intro start
  have hstart : start.content.WellFormed := (IdentTable.wellFormed_of_run capacity load ops).1
  exact Bag.tour (Bag.wellFormed_events hstart before) batches

end SnapshotIndex
