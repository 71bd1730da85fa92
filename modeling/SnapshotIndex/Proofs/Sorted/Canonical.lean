import SnapshotIndex.Proofs.Sorted.Matching
import SnapshotIndex.Proofs.Traversal.Spots
import SnapshotIndex.Proofs.Views.Reading

/-!
# A sorted index is determined by its content

Two sorted indexes of one order may have been through quite different
operations.  Once each element of one has an element in the other with equal
keys and the same identity, they cannot be told apart by the identities that
one reads of them, whatever one asks (`SortedIndex.SameIds`), directly or
through a range view (`RangeView.SameIds`).

An index of either history shows its elements in increasing order, so the two
lists match, and what is left is that each question is answered by tests which
cannot tell the same elements apart.  For views this was done in terms of the
elements that they show; here it is done for the neighbours in a whole index
(`Shows.lower?_eq` and so on) and for the search by keys, which takes the first
element that bisection does not find less (`Shows.find?_eq`).
-/

namespace SnapshotIndex

open Identified (ident)

variable {α : Type} [Identified α]

/-- Each element of a list is in another one, with equal keys and the same
identity. -/
def KeyOrder.Includes (order : KeyOrder α) (ys xs : List α) : Prop :=
  ∀ a ∈ xs, ∃ b ∈ ys, order.keys a b = .eq ∧ ident a = ident b

/-- Two indexes answer every question that is asked through a view with the same
identities. -/
structure RangeView.SameIds (v : RangeView α) (s t : SortedIndex α) : Prop where
  toList_eq : (v.toList s).map ident = (v.toList t).map ident
  size_eq : v.size s.content = v.size t.content
  isEmpty_eq : v.isEmpty s.content = v.isEmpty t.content
  contains_eq : ∀ a, v.contains s.content a = v.contains t.content a
  first_eq : (v.first? s.content).map ident = (v.first? t.content).map ident
  last_eq : (v.last? s.content).map ident = (v.last? t.content).map ident
  lower_eq : ∀ a, (v.lower? s.content a).map ident = (v.lower? t.content a).map ident
  floor_eq : ∀ a, (v.floor? s.content a).map ident = (v.floor? t.content a).map ident
  ceiling_eq : ∀ a, (v.ceiling? s.content a).map ident = (v.ceiling? t.content a).map ident
  higher_eq : ∀ a, (v.higher? s.content a).map ident = (v.higher? t.content a).map ident
  walk_eq : ∀ steps,
    (Walk.drainWith Walk.next s.content steps (v.walk s)).1.map ident =
      (Walk.drainWith Walk.next t.content steps (v.walk t)).1.map ident
  cursor_eq : (((v.cursor s).toFirst s.content).visit s.content).1.map ident =
    (((v.cursor t).toFirst t.content).visit t.content).1.map ident

/-- Two indexes answer every question with the same identities, also through
views. -/
structure SortedIndex.SameIds (s t : SortedIndex α) : Prop where
  toList_eq : s.toList.map ident = t.toList.map ident
  hash_eq : s.contentHash = t.contentHash
  size_eq : s.size = t.size
  contains_eq : ∀ a, s.contains a = t.contains a
  /-- A search by keys finds the same one of several elements. -/
  find_eq : ∀ a, (s.find? a).map ident = (t.find? a).map ident
  first_eq : s.first?.map ident = t.first?.map ident
  last_eq : s.last?.map ident = t.last?.map ident
  lower_eq : ∀ a, (s.content.lower? a).map ident = (t.content.lower? a).map ident
  floor_eq : ∀ a, (s.content.floor? a).map ident = (t.content.floor? a).map ident
  ceiling_eq : ∀ a, (s.content.ceiling? a).map ident = (t.content.ceiling? a).map ident
  higher_eq : ∀ a, (s.content.higher? a).map ident = (t.content.higher? a).map ident
  views : ∀ v : RangeView α, v.SameIds s t

/-! ## Neighbours in a whole index -/

namespace Shows

variable {order : KeyOrder α} {c : SortedArray α} {xs : List α}

/-- The index before a number that tells a part of the elements from the rest is
that of the last one of this part. -/
theorem getLast?_eq (h : Shows order c xs) {n : Nat} (hn : n ≤ c.size) {p : α → Bool}
    (hp : ∀ (i : Nat) b, xs[i]? = some b → (p b = true ↔ i < n)) :
    (SortedArray.below? n).bind c.get? = (xs.filter p).getLast? := by
  have hbelow : SortedArray.below? n = (⟨0, n⟩ : Span).last? := by
    cases n <;> simp [SortedArray.below?, Span.last?, Span.isEmpty]
  have hplaces : ∀ (i : Nat) b, xs[i]? = some b → (p b = true ↔ 0 ≤ i ∧ i < n) := by
    intro i b hb
    rw [hp i b hb]
    omega
  rw [hbelow, ← last?_of_places (s := ⟨0, n⟩) hplaces (by rwa [h.length_eq])]
  exact Option.bind_congr fun i _ => h.get?_eq i

/-- The number itself is the index of the first one of the rest. -/
theorem head?_eq (h : Shows order c xs) {n : Nat} {p : α → Bool}
    (hp : ∀ (i : Nat) b, xs[i]? = some b → (p b = true ↔ n ≤ i)) :
    c.get? n = (xs.filter p).head? := by
  have hplaces : ∀ (i : Nat) b, xs[i]? = some b → (p b = true ↔ n ≤ i ∧ i < xs.length) := by
    intro i b hb
    have hlt := (List.getElem?_eq_some_iff.mp hb).1
    rw [hp i b hb]
    omega
  rw [← first?_of_places (s := ⟨n, xs.length⟩) hplaces, h.get?_eq]
  unfold Span.first? Span.isEmpty
  by_cases hn : xs.length ≤ n
  · rw [if_pos (decide_eq_true hn), List.getElem?_eq_none hn]
    rfl
  · rw [if_neg (by simpa using hn)]
    rfl

variable [Std.TransCmp order.keys]

theorem lower?_eq (h : Shows order c xs) (a : α) :
    c.lower? a = (xs.filter fun b => (order.compare b a).isLT).getLast? :=
  h.getLast?_eq (c.index_le_size a) fun _ _ hb => h.lt_index_iff a hb

theorem floor?_eq (h : Shows order c xs) (a : α) :
    c.floor? a = (xs.filter fun b => (order.compare b a).isLE).getLast? :=
  h.getLast?_eq (c.indexPast_le_size a) fun _ _ hb => h.lt_indexPast_iff a hb

theorem ceiling?_eq (h : Shows order c xs) (a : α) :
    c.ceiling? a = (xs.filter fun b => (order.compare b a).isGE).head? :=
  (c.within?_bind_get? _).trans (h.head?_eq fun _ _ hb => h.index_le_iff a hb)

theorem higher?_eq (h : Shows order c xs) (a : α) :
    c.higher? a = (xs.filter fun b => (order.compare b a).isGT).head? :=
  (c.within?_bind_get? _).trans (h.head?_eq fun _ _ hb => h.indexPast_le_iff a hb)

/-- A search by keys takes the first element whose keys are not smaller, if they
are equal. -/
theorem find?_eq (h : Shows order c xs) (a : α) :
    c.find? a = (xs.filter fun b => (order.keys b a).isGE).head?.filter
      fun b => order.keys b a = .eq := by
  have hfirst : c.get? (c.partitionByKeys a) =
      (xs.filter fun b => (order.keys b a).isGE).head? := by
    refine h.head?_eq fun i b hb => ?_
    rw [← Nat.not_lt, ← h.lt_partitionByKeys_iff a hb]
    cases order.keys b a <;> decide
  unfold SortedArray.find? SortedArray.indexByKeys?
  dsimp only
  rw [hfirst, h.order_eq]
  cases hget : (xs.filter fun b => (order.keys b a).isGE).head? with
  | none => rfl
  | some b =>
    rw [Option.any_some, Option.filter_some]
    split
    · rw [Option.bind_some, hfirst, hget]
    · rfl

end Shows

/-! ## Matching indexes -/

namespace KeyOrder

variable {order : KeyOrder α} [Std.TransCmp order.keys] {xs ys : List α}

theorem Includes.any_eq_true (h : order.Includes ys xs) {c : α}
    (hmem : xs.any (order.same · c) = true) : ys.any (order.same · c) = true := by
  obtain ⟨a, ha, hsame⟩ := List.any_eq_true.mp hmem
  obtain ⟨b, hb, hab⟩ := h a ha
  have hab : order.same a b = true := decide_eq_true hab
  exact List.any_eq_true.mpr ⟨b, hb, by rwa [← same_congr hab]⟩

theorem Includes.any_eq (h : order.Includes ys xs) (h' : order.Includes xs ys) (c : α) :
    xs.any (order.same · c) = ys.any (order.same · c) :=
  Bool.eq_iff_iff.mpr ⟨h.any_eq_true, h'.any_eq_true⟩

/-- A view shows the same of matching lists. -/
theorem Matching.shown (h : order.Matching xs ys) (v : RangeView α) :
    order.Matching (v.shown order xs) (v.shown order ys) := by
  have hkept := h.filter (p := v.inRange order) fun hsame => RangeView.inRange_of_same hsame v
  unfold RangeView.shown
  split
  · exact hkept.reverse
  · exact hkept

/-- Elements that are the same compare alike in the order of a view. -/
theorem compare_view_congr {a b : α} (h : order.same a b = true) (v : RangeView α) (c : α) :
    v.compare order a c = v.compare order b c := by
  unfold RangeView.compare
  split
  · rw [order.compare_swap c a, order.compare_swap c b, compare_congr h]
  · exact compare_congr h c

end KeyOrder

namespace Shows

variable {order : KeyOrder α} [Std.TransCmp order.keys] {s t : SortedIndex α}

/-- Indexes with matching elements hold the same elements. -/
theorem contains_congr (hs : Shows order s.content s.toList) (ht : Shows order t.content t.toList)
    (h : order.Matching s.toList t.toList) (a : α) :
    s.content.contains a = t.content.contains a := by
  rw [SortedArray.contains, SortedArray.contains, hs.isFound_search, ht.isFound_search]
  exact h.any_eq fun hsame => KeyOrder.same_congr hsame a

theorem sameIds_view (hs : Shows order s.content s.toList) (ht : Shows order t.content t.toList)
    (h : order.Matching s.toList t.toList) (v : RangeView α) : v.SameIds s t := by
  have hshown := h.shown v
  have hbetween := h.filter (p := v.inRange order) fun hsame => RangeView.inRange_of_same hsame v
  -- of what a view shows, those on one side of an element match
  have hside : ∀ (p : Ordering → Bool) (a : α),
      order.Matching ((v.shown order s.toList).filter fun b => p (v.compare order b a))
        ((v.shown order t.toList).filter fun b => p (v.compare order b a)) :=
    fun p a => hshown.filter fun hsame => congrArg p (KeyOrder.compare_view_congr hsame v a)
  have hreads := hs.reads v
  have hreads' := ht.reads v
  exact {
    toList_eq := by rw [hreads.toList_eq, hreads'.toList_eq, hshown.ids_eq]
    size_eq := by rw [hreads.size_eq, hreads'.size_eq, hshown.length_eq]
    isEmpty_eq := by
      rw [hreads.isEmpty_eq, hreads'.isEmpty_eq, Bool.eq_iff_iff,
        List.isEmpty_iff_length_eq_zero, List.isEmpty_iff_length_eq_zero, hshown.length_eq]
    contains_eq := by
      intro a
      rw [RangeView.contains, RangeView.contains, hs.order_eq, ht.order_eq,
        contains_congr hs ht h]
    first_eq := by rw [hreads.first_eq, hreads'.first_eq, hshown.head?_ids]
    last_eq := by rw [hreads.last_eq, hreads'.last_eq, hshown.getLast?_ids]
    lower_eq := fun a => by
      rw [hreads.lower_eq, hreads'.lower_eq, (hside Ordering.isLT a).getLast?_ids]
    floor_eq := fun a => by
      rw [hreads.floor_eq, hreads'.floor_eq, (hside Ordering.isLE a).getLast?_ids]
    ceiling_eq := fun a => by
      rw [hreads.ceiling_eq, hreads'.ceiling_eq, (hside Ordering.isGE a).head?_ids]
    higher_eq := fun a => by
      rw [hreads.higher_eq, hreads'.higher_eq, (hside Ordering.isGT a).head?_ids]
    walk_eq := fun steps => by
      rw [hreads.walk_drain, hreads'.walk_drain, List.map_take, List.map_take, hshown.ids_eq]
    cursor_eq := by rw [hreads.cursor_visit, hreads'.cursor_visit, hbetween.ids_eq] }

/-- Indexes with matching elements answer all questions with the same
identities. -/
theorem sameIds (hs : Shows order s.content s.toList) (ht : Shows order t.content t.toList)
    (h : order.Matching s.toList t.toList) : s.SameIds t := by
  -- the elements on one side of another one match
  have hside : ∀ (p : Ordering → Bool) (a : α),
      order.Matching (s.toList.filter fun b => p (order.compare b a))
        (t.toList.filter fun b => p (order.compare b a)) :=
    fun p a => h.filter fun hsame => congrArg p (KeyOrder.compare_congr hsame a)
  have hread := hs.agrees
  have hread' := ht.agrees
  exact {
    toList_eq := h.ids_eq
    hash_eq := by
      have hfold : ∀ u : SortedIndex α, u.contentHash = (u.toList.map ident).foldl
          (fun hash id => (hash ^^^ id.raw) * 1099511628211) 14695981039346656037 := by
        intro u
        rw [List.foldl_map]
        rfl
      rw [hfold, hfold, h.ids_eq]
    size_eq := hread.size_eq.trans (h.length_eq.trans hread'.size_eq.symm)
    contains_eq := contains_congr hs ht h
    find_eq := fun a => by
      have hnotless := h.filter (p := fun b => (order.keys b a).isGE) fun hsame =>
        congrArg Ordering.isGE (KeyOrder.keys_congr hsame a)
      rw [SortedIndex.find?, SortedIndex.find?, hs.find?_eq, ht.find?_eq]
      refine hnotless.head?_filter_ids fun hsame => ?_
      rw [KeyOrder.keys_congr hsame a]
    first_eq := by
      rw [SortedIndex.first?, SortedIndex.first?, hread.first_eq, hread'.first_eq, h.head?_ids]
    last_eq := by
      rw [SortedIndex.last?, SortedIndex.last?, hread.last_eq, hread'.last_eq, h.getLast?_ids]
    lower_eq := fun a => by
      rw [hs.lower?_eq, ht.lower?_eq, (hside Ordering.isLT a).getLast?_ids]
    floor_eq := fun a => by
      rw [hs.floor?_eq, ht.floor?_eq, (hside Ordering.isLE a).getLast?_ids]
    ceiling_eq := fun a => by
      rw [hs.ceiling?_eq, ht.ceiling?_eq, (hside Ordering.isGE a).head?_ids]
    higher_eq := fun a => by
      rw [hs.higher?_eq, ht.higher?_eq, (hside Ordering.isGT a).head?_ids]
    views := sameIds_view hs ht h }

/-- To add some elements in any order to indexes with the same content is to add
as many, and the content is the same again. -/
theorem addAll_perm (hs : Shows order s.content s.toList) (ht : Shows order t.content t.toList)
    (h : ∀ c, s.toList.any (order.same · c) = t.toList.any (order.same · c)) {as bs : List α}
    (hperm : as.Perm bs) :
    (s.addAll as).1 = (t.addAll bs).1 ∧ (s.addAll as).2.SameIds (t.addAll bs).2 := by
  obtain ⟨hcount, hafter⟩ := shows_countEach (fun a h => shows_add h a) as hs
  obtain ⟨hcount', hafter'⟩ := shows_countEach (fun a h => shows_add h a) bs ht
  obtain ⟨hany, hlength⟩ := setCountEach_setAdd order as s.toList
  obtain ⟨hany', hlength'⟩ := setCountEach_setAdd order bs t.toList
  have hbefore := (matching_of_any_eq hs.increasing ht.increasing h).length_eq
  have hmatching := matching_of_any_eq hafter.increasing hafter'.increasing fun c => by
    rw [hany, hany', h, hperm.any_eq]
  constructor
  · -- the content has grown by as many on both sides
    have hsize := hmatching.length_eq
    change (SortedIndex.countEach _ as s).1 = (SortedIndex.countEach _ bs t).1
    omega
  · rw [← hafter.toList_eq, ← hafter'.toList_eq] at hmatching
    exact hafter.self.sameIds hafter'.self hmatching

end Shows

/-- A sorted index is determined by its content.  Whatever two indexes of one
order that is a total preorder have been through, with changes through views and
captures anywhere in between: if each element of one is in the other, with equal
keys and the same identity, then all questions are answered with the same
identities.  If some elements are then added to both, in whatever order, as many
are new to one as to the other, and it is so again. -/
theorem content_canonical (order : KeyOrder α) [Std.TransCmp order.keys]
    (ops ops' : List (Interleaved (SortedArray α) (SortedOp α)))
    (h : order.Includes (SortedIndex.reached order ops').toList
      (SortedIndex.reached order ops).toList)
    (h' : order.Includes (SortedIndex.reached order ops).toList
      (SortedIndex.reached order ops').toList) :
    (SortedIndex.reached order ops).SameIds (SortedIndex.reached order ops') ∧
      ∀ as bs : List α, as.Perm bs →
        ((SortedIndex.reached order ops).addAll as).1 =
          ((SortedIndex.reached order ops').addAll bs).1 ∧
        ((SortedIndex.reached order ops).addAll as).2.SameIds
          ((SortedIndex.reached order ops').addAll bs).2 := by
  have hs := shows_reached order ops
  have ht := shows_reached order ops'
  have hany := h.any_eq h'
  exact ⟨hs.sameIds ht (matching_of_any_eq hs.increasing ht.increasing hany),
    fun as bs hperm => hs.addAll_perm ht hany hperm⟩

/-- Two records of one bucket, which were added to one index at once and to the
other one after a detour, with other handles and a snapshot in between. -/
theorem content_canonical_bucket :
    let order := RecordOrder.bucket.keyOrder
    let ops : List (Interleaved (SortedArray Record) (SortedOp Record)) :=
      [.act (.add ⟨⟨1⟩, 14, ⟨1⟩, ""⟩), .act (.add ⟨⟨2⟩, 11, ⟨1⟩, ""⟩)]
    let ops' : List (Interleaved (SortedArray Record) (SortedOp Record)) :=
      [.act (.add ⟨⟨2⟩, 19, ⟨1⟩, ""⟩), .hold ⟨0⟩, .act (.add ⟨⟨3⟩, 40, ⟨1⟩, ""⟩),
        .act .pollLast, .act (.add ⟨⟨1⟩, 12, ⟨1⟩, ""⟩), .act (.add ⟨⟨2⟩, 11, ⟨1⟩, ""⟩)]
    Std.TransCmp order.keys ∧
      order.Includes (SortedIndex.reached order ops').toList
        (SortedIndex.reached order ops).toList ∧
      order.Includes (SortedIndex.reached order ops).toList
        (SortedIndex.reached order ops').toList ∧
      (SortedIndex.reached order ops).SameIds (SortedIndex.reached order ops') := by
  intro order ops ops'
  have htrans : Std.TransCmp RecordOrder.bucket.keyOrder.keys := inferInstance
  have hlist : (SortedIndex.reached order ops).toList =
      [⟨⟨1⟩, 14, ⟨1⟩, ""⟩, ⟨⟨2⟩, 11, ⟨1⟩, ""⟩] :=
    toList_reached RecordOrder.bucket.keyOrder ops
  have hlist' : (SortedIndex.reached order ops').toList =
      [⟨⟨1⟩, 12, ⟨1⟩, ""⟩, ⟨⟨2⟩, 19, ⟨1⟩, ""⟩] :=
    toList_reached RecordOrder.bucket.keyOrder ops'
  have hincludes : order.Includes (SortedIndex.reached order ops').toList
      (SortedIndex.reached order ops).toList := by
    rw [hlist, hlist']
    unfold KeyOrder.Includes
    decide
  have hincludes' : order.Includes (SortedIndex.reached order ops).toList
      (SortedIndex.reached order ops').toList := by
    rw [hlist, hlist']
    unfold KeyOrder.Includes
    decide
  exact ⟨htrans, hincludes, hincludes', (content_canonical order ops ops' hincludes hincludes').1⟩

end SnapshotIndex
