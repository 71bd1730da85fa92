import SnapshotIndex.Proofs.Snapshot.InStep
import SnapshotIndex.Proofs.Sorted.Refinement
import SnapshotIndex.Proofs.Table.FiniteMap

/-!
# Bags and sorted indexes agree

A `Request` is what callers may ask of an index whose kind they do not know.
A bag tells elements apart by identity alone and a sorted index by keys as
well, so the two can only agree on elements whose keys are equal whenever
their identities are (`KeyOrder.Consistent`).  On requests with such elements a
table and an array hold the same (`SameElements`): what one adds or removes,
the other one does, and neither changes unless the other does.

How both count does not depend on what they hold, and so they go in step from
there: changes, copies and holders follow from `Tracked.InStep`, and who is
copied for whom from `Session.InStep`.

* `inStep_serve`: one request, by cases.
* `kinds_agree`: over every run of such requests both give the same replies, and
  hold and export the same elements after each of them.
-/

namespace SnapshotIndex

open Identified (ident)

/-! ## Requests -/

/-- What callers ask of an index whose kind they do not know. -/
inductive Request (α : Type) : Type 1
  | contains (a : α)
  | act (action : Action α)

/-- What a request gives back. -/
inductive Result
  | done
  /-- Whether an element was there, or whether the index has changed. -/
  | answer (yes : Bool)
  /-- The number of elements captured, if the range is one of the index. -/
  | captured (size? : Option Nat)
deriving DecidableEq

/-- What callers see of a request: what it gives back, and the counts of the
index afterwards. -/
structure Reply where
  result : Result
  size : Nat
  changes : Nat
  copies : Nat
deriving DecidableEq

namespace Request

variable {α : Type}

/-- The element that a request hands to the index. -/
def element? : Request α → Option α
  | .contains a => some a
  | .act (.change (.insert a)) => some a
  | .act (.change (.remove a)) => some a
  | .act _ => none

/-- Whether indexes of both kinds serve a request. -/
def IsShared : Request α → Prop
  | .contains _ => True
  | .act (.change (.sorted _)) => False
  | .act action => action.IsWhole

end Request

section Serve

variable {α : Type} [Identified α]

/-- What an index gives back to a request. -/
def Index.result (i : Index α) : Request α → Result
  | .contains a => .answer (i.contains a)
  | .act (.change (.insert a)) => .answer (i.insert a).1
  | .act (.change (.remove a)) => .answer (i.remove a).1
  | .act (.cursor _ r) => .captured ((i.cursor? r).map EitherCursor.size)
  | .act (.iterator _) => .captured (some i.iterator.size)
  | .act (.walk _ r) => .captured ((i.walk? r).map EitherWalk.remaining)
  | .act _ => .done

/-- A session after a request. -/
def Session.request (s : Session (Index α) α) : Request α → Session (Index α) α
  | .contains _ => s
  | .act action => (s.act action).2

/-- One request to a session, and the reply. -/
def Session.serve (s : Session (Index α) α) (request : Request α) :
    Reply × Session (Index α) α :=
  let t := s.request request
  (⟨s.host.result request, t.host.size, t.host.changes, t.host.copies⟩, t)

end Serve

/-! ## Elements -/

/-- Elements of one identity have equal keys. -/
def KeyOrder.Consistent {α : Type} [Identified α] (order : KeyOrder α) (as : List α) : Prop :=
  ∀ a ∈ as, ∀ b ∈ as, ident a = ident b → order.keys a b = .eq

variable {α : Type} [Identified α] {order : KeyOrder α} {as : List α}

/-- A table and an array with the same elements, all of which are known. -/
structure SameElements (order : KeyOrder α) (as : List α) (t : IdentTable α)
    (c : SortedArray α) : Prop where
  wellFormed : t.WellFormed
  shows : Shows order c c.toList
  perm : t.toList.Perm c.toList
  known : ∀ a ∈ c.toList, a ∈ as

/-- Where no two elements have one identity, a search by identity finds the one
that is there. -/
theorem find?_ident_of_mem {xs : List α} (h : (xs.map ident).Nodup) {a : α} (ha : a ∈ xs) :
    xs.find? (ident · = ident a) = some a := by
  induction xs with
  | nil => exact absurd ha List.not_mem_nil
  | cons b rest ih =>
    rw [List.map_cons] at h
    obtain ⟨hfirst, hrest⟩ := List.nodup_cons.mp h
    rcases List.mem_cons.mp ha with rfl | hlater
    · exact List.find?_cons_of_pos (decide_eq_true rfl)
    · have hne : ident b ≠ ident a := fun hid => hfirst (hid ▸ List.mem_map_of_mem hlater)
      rw [List.find?_cons_of_neg (by simpa using hne)]
      exact ih hrest hlater

theorem find?_ident_iff {xs : List α} (h : (xs.map ident).Nodup) {id : Ident} {a : α} :
    xs.find? (ident · = id) = some a ↔ a ∈ xs ∧ ident a = id := by
  constructor
  · intro hfind
    have hid := List.find?_some hfind
    exact ⟨List.mem_of_find?_eq_some hfind, of_decide_eq_true hid⟩
  · rintro ⟨hmem, rfl⟩
    exact find?_ident_of_mem h hmem

namespace SameElements

variable {t : IdentTable α} {c : SortedArray α}

theorem of_empty (h : t.WellFormed ∧ t.toList = []) : SameElements order as t (.empty order) where
  wellFormed := h.1
  shows := shows_empty
  perm := by
    rw [h.2]
    exact List.Perm.nil
  known := fun _ ha => absurd ha List.not_mem_nil

theorem count_eq (h : SameElements order as t c) : t.count = c.size := by
  rw [h.wellFormed.count_eq, h.perm.length_eq, c.length_toList]

theorem emptied (h : SameElements order as t c) : SameElements order as t.clear c.clear := by
  have hclear : c.clear = .empty order := congrArg SortedArray.empty h.shows.order_eq
  rw [hclear]
  exact of_empty h.wellFormed.clear

theorem fresh (h : SameElements order as t c) :
    SameElements order as t.emptyLike (.empty c.order) := by
  rw [h.shows.order_eq]
  exact of_empty h.wellFormed.emptyLike

section Consistent

variable (hconsistent : order.Consistent as)

include hconsistent

theorem same_eq {a b : α} (ha : a ∈ as) (hb : b ∈ as) :
    order.same b a = decide (ident b = ident a) := by
  unfold KeyOrder.same
  rw [decide_eq_decide]
  constructor
  · intro h
    exact h.2
  · intro h
    exact ⟨hconsistent b hb a ha h, h⟩

theorem nodup (h : SameElements order as t c) : (c.toList.map ident).Nodup := by
  refine List.pairwise_map.mpr ?_
  refine List.Pairwise.imp_of_mem ?_ h.shows.increasing.pairwise_not_same
  intro a b ha hb hnot
  rw [same_eq hconsistent (h.known b hb) (h.known a ha)] at hnot
  exact of_decide_eq_false hnot

variable [Std.TransCmp order.keys] {a : α}

theorem contains_eq (h : SameElements order as t c) (ha : a ∈ as) :
    t.contains a = c.contains a := by
  rw [Bool.eq_iff_iff, h.wellFormed.contains_iff, h.shows.contains_iff]
  constructor
  · rintro ⟨b, hb, hid⟩
    have hmem := h.perm.mem_iff.mp hb
    refine ⟨b, hmem, ?_⟩
    rw [same_eq hconsistent ha (h.known b hmem)]
    exact decide_eq_true hid
  · rintro ⟨b, hb, hsame⟩
    rw [same_eq hconsistent ha (h.known b hb)] at hsame
    exact ⟨b, h.perm.mem_iff.mpr hb, of_decide_eq_true hsame⟩

/-- What is new to both is put in an empty slot by one and between the lesser
and the greater elements by the other. -/
theorem insert (h : SameElements order as t c) (ha : a ∈ as) {i : Nat}
    (hsearch : c.search a = .missing i) :
    SameElements order as (t.insert a).2 (c.insertAt i a) := by
  have hnew : t.contains a = false := by
    rw [h.contains_eq hconsistent ha, SortedArray.contains, hsearch]
    rfl
  obtain ⟨hwell, -, -, htable⟩ := h.wellFormed.insert a
  rw [hnew, if_neg Bool.false_ne_true] at htable
  have hshows := h.shows.insertAt hsearch
  have hperm : (t.insert a).2.toList.Perm (c.insertAt i a).toList := by
    rw [hshows.toList_eq]
    calc (t.insert a).2.toList
      List.Perm _ (a :: t.toList) := htable
      List.Perm _ (a :: c.toList) := h.perm.cons a
      List.Perm _ (a :: (c.toList.filter _ ++ c.toList.filter _)) :=
        ((List.filter_append_perm _ c.toList).symm).cons a
      List.Perm _ (SortedArray.placed order a c.toList) := List.perm_middle.symm
  refine ⟨hwell, hshows.self, hperm, ?_⟩
  intro b hb
  have hbefore : b ∈ a :: t.toList := htable.mem_iff.mp (hperm.mem_iff.mpr hb)
  rcases List.mem_cons.mp hbefore with rfl | hold
  · exact ha
  · exact h.known b (h.perm.mem_iff.mp hold)

/-- The one element of an identity is the one with its keys. -/
theorem remove (h : SameElements order as t c) (ha : a ∈ as) {i : Nat}
    (hsearch : c.search a = .found i) :
    SameElements order as (t.remove a).2 (c.removeAt i).2 := by
  obtain ⟨b, hb, hsame⟩ := SortedArray.search_eq_found hsearch
  rw [h.shows.order_eq] at hsame
  obtain ⟨hwell, htable⟩ := h.wellFormed.take (ident a)
  have hshows := h.shows.removeAt hb hsame
  have hwithout : SortedArray.without order a c.toList = c.toList.filter (ident · ≠ ident a) := by
    refine List.filter_congr ?_
    intro d hd
    rw [same_eq hconsistent ha (h.known d hd), ← decide_not]
  refine ⟨hwell, hshows.self, ?_, ?_⟩
  · change (t.take (ident a)).2.toList.Perm _
    rw [htable, hshows.toList_eq, hwithout]
    exact h.perm.filter _
  · intro d hd
    rw [hshows.toList_eq] at hd
    exact h.known d (List.mem_of_mem_filter hd)

end Consistent

end SameElements

/-! ## Operations -/

/-- What is found is removed at its place. -/
theorem SortedIndex.remove_of_found {s : SortedIndex α} {a : α} {i : Nat}
    (hsearch : s.content.search a = .found i) :
    s.remove a = (true, s.edit fun xs => (xs.removeAt i).2) := by
  obtain ⟨b, hb, -⟩ := SortedArray.search_eq_found hsearch
  have hi : i < s.size := by
    have hlt := (List.getElem?_eq_some_iff.mp hb).1
    rwa [SortedArray.length_toList] at hlt
  have hget : s.content.get? i = some b := by
    rw [SortedArray.get?_eq]
    exact hb
  unfold SortedIndex.remove SortedIndex.removeAt
  rw [hsearch]
  simp only [if_pos hi, hget, Option.isSome_some]

section Operations

variable {b : Bag α} {s : SortedIndex α}

theorem inStep_clear (h : b.InStep (SameElements order as) s) :
    b.clear.InStep (SameElements order as) s.clear := by
  have hempty : b.isEmpty = s.isEmpty := congrArg (· == 0) h.content.count_eq
  unfold Bag.clear SortedIndex.clear
  rw [hempty]
  split
  · exact h
  · exact h.renew h.content.emptied h.content.fresh

variable [Std.TransCmp order.keys] (hconsistent : order.Consistent as) {a : α}

include hconsistent

theorem inStep_insert (h : b.InStep (SameElements order as) s) (ha : a ∈ as) :
    (b.insert a).1 = (s.add a).1 ∧
      (b.insert a).2.InStep (SameElements order as) (s.add a).2 := by
  have hcontains := h.content.contains_eq hconsistent ha
  rw [Bag.insert_eq h.content.wellFormed]
  unfold SortedIndex.add Bag.contains
  rw [hcontains, SortedArray.contains]
  cases hsearch : s.content.search a with
  | found i => exact ⟨rfl, h⟩
  | missing i => exact ⟨rfl, h.edit (h.content.insert hconsistent ha hsearch)⟩

theorem inStep_remove (h : b.InStep (SameElements order as) s) (ha : a ∈ as) :
    (b.remove a).1 = (s.remove a).1 ∧
      (b.remove a).2.InStep (SameElements order as) (s.remove a).2 := by
  have hcontains := h.content.contains_eq hconsistent ha
  rw [Bag.remove_eq]
  unfold Bag.contains
  rw [hcontains, SortedArray.contains]
  cases hsearch : s.content.search a with
  | found i =>
    rw [SortedIndex.remove_of_found hsearch]
    exact ⟨rfl, h.edit (h.content.remove hconsistent ha hsearch)⟩
  | missing i =>
    unfold SortedIndex.remove
    rw [hsearch]
    exact ⟨rfl, h⟩

end Operations

/-! ## Replies -/

section Replies

variable [Std.TransCmp order.keys] (hconsistent : order.Consistent as) {i j : Index α}
  {s t : Session (Index α) α}

omit [Std.TransCmp order.keys] in
theorem Index.InStep.counts_eq (h : i.InStep (SameElements order as) j) :
    i.size = j.size ∧ i.changes = j.changes ∧ i.copies = j.copies := by
  cases h with
  | of h => exact ⟨h.content.count_eq, h.changes_eq, h.store.copies_eq⟩

omit [Std.TransCmp order.keys] in
/-- What is captured of two indexes in step has as many elements. -/
theorem Index.InStep.captured_eq (h : i.InStep (SameElements order as) j) :
    i.cursor.size = j.cursor.size ∧ i.iterator.size = j.iterator.size ∧
      i.walk.remaining = j.walk.remaining := by
  cases h with
  | of h =>
    have hsize := h.content.count_eq
    exact ⟨hsize, hsize, hsize⟩

include hconsistent

/-- Two indexes in step answer a request alike. -/
theorem Index.InStep.result_eq (h : i.InStep (SameElements order as) j) {request : Request α}
    (hshared : request.IsShared) (hknown : ∀ a ∈ request.element?, a ∈ as) :
    i.result request = j.result request := by
  obtain ⟨hcursor, hiterator, hwalk⟩ := h.captured_eq
  cases request with
  | contains a =>
    cases h with
    | of h => exact congrArg Result.answer (h.content.contains_eq hconsistent (hknown a rfl))
  | act action =>
    cases action with
    | change op =>
      cases h with
      | of h =>
        cases op with
        | insert a =>
          exact congrArg Result.answer (inStep_insert hconsistent h (hknown a rfl)).1
        | remove a =>
          exact congrArg Result.answer (inStep_remove hconsistent h (hknown a rfl)).1
        | clear => rfl
        | sorted op => exact absurd hshared id
    | cursor name r =>
      obtain rfl : r = .whole := hshared
      exact congrArg (Result.captured ∘ some) hcursor
    | iterator name => exact congrArg (Result.captured ∘ some) hiterator
    | walk name r =>
      obtain rfl : r = .whole := hshared
      exact congrArg (Result.captured ∘ some) hwalk
    | _ => rfl

/-- Two indexes in step stay so at an operation that both have. -/
theorem Index.InStep.perform (h : i.InStep (SameElements order as) j) {op : IndexOp α}
    (hshared : (Request.act (.change op)).IsShared)
    (hknown : ∀ a ∈ (Request.act (.change op)).element?, a ∈ as) :
    (i.perform op).InStep (SameElements order as) (j.perform op) := by
  cases h with
  | of h =>
    cases op with
    | insert a => exact .of (inStep_insert hconsistent h (hknown a rfl)).2
    | remove a => exact .of (inStep_remove hconsistent h (hknown a rfl)).2
    | clear => exact .of (inStep_clear h)
    | sorted op => exact absurd hshared id

theorem inStep_request (h : s.InStep (SameElements order as) t) {request : Request α}
    (hshared : request.IsShared) (hknown : ∀ a ∈ request.element?, a ∈ as) :
    (s.request request).InStep (SameElements order as) (t.request request) := by
  cases request with
  | contains a => exact h
  | act action =>
    cases hop : action.op? with
    | none =>
      have hwhole : action.IsWhole := by
        cases action with
        | change op => exact absurd hop (Option.some_ne_none op)
        | _ => exact hshared
      exact inStep_of_capture h hop hwhole
    | some op =>
      obtain rfl := action.eq_change_of_op? hop
      exact ⟨h.host.perform hconsistent hshared hknown, h.cursors, h.walks, h.snapshots⟩

/-- Sessions in step give the same reply to a request, and stay in step. -/
theorem inStep_serve (h : s.InStep (SameElements order as) t) {request : Request α}
    (hshared : request.IsShared) (hknown : ∀ a ∈ request.element?, a ∈ as) :
    (s.serve request).1 = (t.serve request).1 ∧
      (s.serve request).2.InStep (SameElements order as) (t.serve request).2 := by
  have hafter := inStep_request hconsistent h hshared hknown
  obtain ⟨hsize, hchanges, hcopies⟩ := hafter.host.counts_eq
  refine ⟨?_, hafter⟩
  simp only [Session.serve, h.host.result_eq hconsistent hshared hknown, hsize, hchanges, hcopies]

end Replies

/-! ## Runs -/

/-- A bag and a sorted index that cannot be told apart by what both can do: they
have the same counts and store the same element under each identity, and what
they export is the same up to its order, which for the sorted one is its own. -/
structure Index.Agree (order : KeyOrder α) (i j : Index α) : Prop where
  size_eq : i.size = j.size
  changes_eq : i.changes = j.changes
  copies_eq : i.copies = j.copies
  /-- No identity is stored twice. -/
  distinct : (i.toList.map ident).Nodup ∧ (j.toList.map ident).Nodup
  stored : ∀ id, i.toList.find? (ident · = id) = j.toList.find? (ident · = id)
  /-- The bag finds by identity what the sorted index stores. -/
  found : ∀ a, i.find? a = j.toList.find? (ident · = ident a)
  exports : ∀ out, ∃ xs ys, i.exportTo out = out ++ xs ∧ j.exportTo out = out ++ ys ∧
    xs.Perm ys ∧ order.Increasing ys

theorem Index.InStep.agree (hconsistent : order.Consistent as) {i j : Index α}
    (h : i.InStep (SameElements order as) j) : i.Agree order j := by
  obtain ⟨hsize, hchanges, hcopies⟩ := h.counts_eq
  cases h with
  | @of b s h =>
    have hperm : b.toList.Perm s.toList := h.content.perm
    have hsorted : (s.toList.map ident).Nodup := h.content.nodup hconsistent
    have hbag : (b.toList.map ident).Nodup := (hperm.map ident).nodup_iff.mpr hsorted
    refine ⟨hsize, hchanges, hcopies, ⟨hbag, hsorted⟩, ?_, ?_, ?_⟩
    · intro id
      apply Option.ext
      intro a
      change b.toList.find? (ident · = id) = some a ↔ s.toList.find? (ident · = id) = some a
      rw [find?_ident_iff hbag, find?_ident_iff hsorted, hperm.mem_iff]
    · intro a
      apply Option.ext
      intro d
      change b.content.get? (ident a) = some d ↔ s.toList.find? (ident · = ident a) = some d
      rw [h.content.wellFormed.get?_eq_some_iff, find?_ident_iff hsorted]
      exact and_congr_left' hperm.mem_iff
    · intro out
      exact ⟨b.toList, s.toList, rfl, rfl, hperm, h.content.shows.increasing⟩

/-- Bags and sorted indexes agree.  A bag of any size and load share and a
sorted index of any key order that is a total preorder are asked the same:
insertions, removals, clearing, questions, captures of everything, uses,
copies and drops, in any order.  If elements of one identity have equal keys,
both give the same reply to every request, and after each request they hold
and export the same elements. -/
theorem kinds_agree (order : KeyOrder α) [Std.TransCmp order.keys] (capacity load : Nat)
    (requests : List (Request α)) (hshared : ∀ request ∈ requests, request.IsShared)
    (hconsistent : order.Consistent (requests.filterMap Request.element?)) :
    let bag := runAll Session.serve { host := .bag (.withLoad capacity load) }
    let sorted := runAll Session.serve { host := .sorted (.empty order) }
    (bag requests).1 = (sorted requests).1 ∧
      ∀ done, done <+: requests → (bag done).2.host.Agree order (sorted done).2.host := by
  intro bag sorted
  let Rel : Session (Index α) α → Session (Index α) α → Prop :=
    Session.InStep (SameElements order (requests.filterMap Request.element?))
  have hstart : Rel { host := .bag (.withLoad capacity load) } { host := .sorted (.empty order) } :=
    .fresh (.of (.of (.of_empty (IdentTable.wellFormed_withLoad capacity load))))
  have hstep : ∀ s t, ∀ request ∈ requests, Rel s t →
      (s.serve request).1 = (t.serve request).1 ∧ Rel (s.serve request).2 (t.serve request).2 := by
    intro s t request hmem h
    refine inStep_serve hconsistent h (hshared request hmem) ?_
    intro a ha
    exact List.mem_filterMap.mpr ⟨request, hmem, ha⟩
  constructor
  · exact (runAll_simulates_of_mem hstep hstart).1
  · intro done hearlier
    have hstep' : ∀ s t, ∀ request ∈ done, Rel s t →
        (s.serve request).1 = (t.serve request).1 ∧
          Rel (s.serve request).2 (t.serve request).2 :=
      fun s t request hmem => hstep s t request (hearlier.mem hmem)
    have hend := (runAll_simulates_of_mem hstep' hstart).2
    exact hend.host.agree hconsistent

/-- Two records of one identity are in the same bucket, and a cursor is held
when the index is changed and when it is cleared. -/
theorem kinds_agree_bucket :
    let requests : List (Request Record) :=
      [.act (.change (.insert ⟨⟨1⟩, 11, ⟨1⟩, ""⟩)), .act (.cursor "c" .whole),
        .act (.change (.insert ⟨⟨1⟩, 14, ⟨1⟩, ""⟩)), .act (.change (.insert ⟨⟨2⟩, 3, ⟨1⟩, ""⟩)),
        .contains ⟨⟨1⟩, 19, ⟨1⟩, ""⟩, .act (.iterator "c"), .act (.change .clear),
        .act (.dropCursor "c"), .act (.change (.remove ⟨⟨2⟩, 5, ⟨1⟩, ""⟩))]
    let order := RecordOrder.bucket.keyOrder
    let bag := runAll Session.serve { host := .bag (.withLoad 0 70) }
    let sorted := runAll Session.serve { host := .sorted (.empty order) }
    Std.TransCmp order.keys ∧ (∀ request ∈ requests, request.IsShared) ∧
      order.Consistent (requests.filterMap Request.element?) ∧
      (bag requests).1 = (sorted requests).1 ∧
      ∀ done, done <+: requests → (bag done).2.host.Agree order (sorted done).2.host := by
  intro requests order bag sorted
  have htrans : Std.TransCmp RecordOrder.bucket.keyOrder.keys := inferInstance
  have hshared : ∀ request ∈ requests, request.IsShared := by
    simp [requests, Request.IsShared, Action.IsWhole]
  have hconsistent : order.Consistent (requests.filterMap Request.element?) := by
    unfold KeyOrder.Consistent
    decide
  exact ⟨htrans, hshared, hconsistent, kinds_agree order 0 70 requests hshared hconsistent⟩

-- Records of one identity in two buckets are one element of a bag, but two of a
-- sorted index.
example :
    let requests : List (Request Record) :=
      [.act (.change (.insert ⟨⟨1⟩, 11, ⟨1⟩, ""⟩)), .act (.change (.insert ⟨⟨1⟩, 25, ⟨1⟩, ""⟩))]
    let replies (start : Index Record) := (runAll Session.serve { host := start } requests).1
    (replies (.bag (.withLoad 0 70))).map Reply.size = [1, 1] ∧
      (replies (.sorted (.empty RecordOrder.bucket.keyOrder))).map Reply.size = [1, 2] := by
  decide

end SnapshotIndex
