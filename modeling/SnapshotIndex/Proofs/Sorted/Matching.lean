import Mathlib.Data.List.Forall2
import SnapshotIndex.Proofs.Sorted.Performing

/-!
# Increasing lists that match

Two lists match if their elements are the same, one by one, in the sense of a
key order: they have equal keys and the same identity, but they may be different
handles.

An increasing list is determined by what it holds, up to matching
(`matching_of_any_eq`).  This is where the identity comes in: among elements of
equal keys it leaves only one order.  What one computes from a list by tests
that cannot tell the same elements apart comes out as the same identities for
matching lists (`Matching.filter`, `Matching.ids_eq`).
-/

namespace SnapshotIndex

open Identified (ident)

variable {α : Type} [Identified α] {order : KeyOrder α}

/-- The elements of two lists are the same, place by place. -/
def KeyOrder.Matching (order : KeyOrder α) (xs ys : List α) : Prop :=
  List.Forall₂ (fun a b => order.same a b = true) xs ys

/-! ## The same elements -/

namespace KeyOrder

theorem same_self (order : KeyOrder α) [Std.TransCmp order.keys] (a : α) :
    order.same a a = true :=
  order.compare_eq_eq_iff.mp (order.compare_self a)

theorem ident_eq_of_same {a b : α} (h : order.same a b = true) : ident a = ident b :=
  (of_decide_eq_true h).2

variable [Std.TransCmp order.keys] {a b : α}

theorem same_comm (order : KeyOrder α) [Std.TransCmp order.keys] (a b : α) :
    order.same a b = order.same b a := by
  rw [Bool.eq_iff_iff, ← order.compare_eq_eq_iff, ← order.compare_eq_eq_iff, order.compare_swap]
  cases order.compare b a <;> decide

/-- Elements that are the same compare alike. -/
theorem compare_congr (h : order.same a b = true) (c : α) :
    order.compare a c = order.compare b c :=
  Std.TransCmp.congr_left (order.compare_eq_eq_iff.mpr h)

theorem keys_congr (h : order.same a b = true) (c : α) : order.keys a c = order.keys b c :=
  Std.TransCmp.congr_left (of_decide_eq_true h).1

theorem same_congr (h : order.same a b = true) (c : α) : order.same a c = order.same b c := by
  rw [Bool.eq_iff_iff, ← order.compare_eq_eq_iff, ← order.compare_eq_eq_iff, compare_congr h]

end KeyOrder

/-! ## What an increasing list holds -/

section Increasing

variable [Std.TransCmp order.keys] {a b : α} {xs ys : List α}

/-- Nothing that comes later is the same as the first element. -/
theorem any_tail_of_same (h : order.Increasing (a :: xs)) {c : α} (hsame : order.same a c = true) :
    xs.any (order.same · c) = false := by
  rw [List.any_eq_false]
  intro d hd hdc
  have hlt : order.compare a d = .lt := (List.pairwise_cons.mp h).1 d hd
  have heq : order.compare a d = .eq := by
    rw [KeyOrder.compare_congr hsame d, order.compare_eq_eq_iff, order.same_comm]
    exact hdc
  exact absurd (hlt.symm.trans heq) (by decide)

/-- What comes later is greater than the first element. -/
theorem lt_of_any_tail (h : order.Increasing (b :: ys)) (hmem : ys.any (order.same · a) = true) :
    order.compare b a = .lt := by
  obtain ⟨d, hd, hsame⟩ := List.any_eq_true.mp hmem
  have hlt : order.compare b d = .lt := (List.pairwise_cons.mp h).1 d hd
  exact Std.TransCmp.lt_of_lt_of_eq hlt (order.compare_eq_eq_iff.mpr hsame)

/-- The least elements of two lists with the same content are the same. -/
theorem same_heads (hxs : order.Increasing (a :: xs)) (hys : order.Increasing (b :: ys))
    (h : ∀ c, (a :: xs).any (order.same · c) = (b :: ys).any (order.same · c)) :
    order.same a b = true := by
  have ha : order.same b a = true ∨ ys.any (order.same · a) = true := by
    have hmem := h a
    rw [List.any_cons, List.any_cons, order.same_self, Bool.true_or] at hmem
    rw [← Bool.or_eq_true]
    exact hmem.symm
  have hb : order.same a b = true ∨ xs.any (order.same · b) = true := by
    have hmem := h b
    rw [List.any_cons, List.any_cons, order.same_self, Bool.true_or] at hmem
    rw [← Bool.or_eq_true]
    exact hmem
  rcases hb with hsame | hlater
  · exact hsame
  rcases ha with hsame | hlater'
  · rwa [order.same_comm]
  · -- each of them would be less than the other one
    have hab := lt_of_any_tail hxs hlater
    rw [order.compare_swap, lt_of_any_tail hys hlater'] at hab
    exact absurd hab (by decide)

/-- Two increasing lists with the same content match. -/
theorem matching_of_any_eq (hxs : order.Increasing xs) (hys : order.Increasing ys)
    (h : ∀ c, xs.any (order.same · c) = ys.any (order.same · c)) : order.Matching xs ys := by
  induction xs generalizing ys with
  | nil =>
    cases ys with
    | nil => exact List.Forall₂.nil
    | cons b ys =>
      have hb := h b
      rw [List.any_cons, order.same_self] at hb
      exact absurd hb nofun
  | cons a xs ih =>
    cases ys with
    | nil =>
      have ha := h a
      rw [List.any_cons, order.same_self] at ha
      exact absurd ha nofun
    | cons b ys =>
      have hsame := same_heads hxs hys h
      have htails : ∀ c, xs.any (order.same · c) = ys.any (order.same · c) := by
        intro c
        cases hc : order.same a c with
        | true =>
          -- it is in both lists, but at their heads
          have hbc : order.same b c = true := by rwa [← KeyOrder.same_congr hsame]
          rw [any_tail_of_same hxs hc, any_tail_of_same hys hbc]
        | false =>
          have hbc : order.same b c = false := by rwa [← KeyOrder.same_congr hsame]
          have hboth := h c
          rwa [List.any_cons, List.any_cons, hc, hbc, Bool.false_or, Bool.false_or] at hboth
      exact .cons hsame (ih (List.pairwise_cons.mp hxs).2 (List.pairwise_cons.mp hys).2 htails)

end Increasing

/-! ## What is computed from matching lists -/

namespace KeyOrder.Matching

variable {xs ys : List α} {p : α → Bool}

theorem length_eq (h : order.Matching xs ys) : xs.length = ys.length := List.Forall₂.length_eq h

theorem ids_eq (h : order.Matching xs ys) : xs.map ident = ys.map ident := by
  rw [← List.forall₂_eq_eq_eq, List.forall₂_map_left_iff, List.forall₂_map_right_iff]
  exact h.imp fun _ _ hsame => ident_eq_of_same hsame

theorem reverse (h : order.Matching xs ys) : order.Matching xs.reverse ys.reverse :=
  List.forall₂_reverse_iff.mpr h

/-- A test that cannot tell the same elements apart lets matching lists pass. -/
theorem filter (h : order.Matching xs ys)
    (hp : ∀ {a b}, order.same a b = true → p a = p b) :
    order.Matching (xs.filter p) (ys.filter p) := by
  refine List.rel_filter ?_ h
  intro a b hsame
  change p a = true ↔ p b = true
  rw [hp hsame]

theorem head?_ids (h : order.Matching xs ys) : xs.head?.map ident = ys.head?.map ident := by
  rw [← List.head?_map, ← List.head?_map, h.ids_eq]

theorem getLast?_ids (h : order.Matching xs ys) :
    xs.getLast?.map ident = ys.getLast?.map ident := by
  rw [← List.getLast?_map, ← List.getLast?_map, h.ids_eq]

/-- If some element of one passes such a test, then so does one of the other. -/
theorem any_eq (h : order.Matching xs ys) (hp : ∀ {a b}, order.same a b = true → p a = p b) :
    xs.any p = ys.any p := by
  induction h with
  | nil => rfl
  | cons hsame _ ih => rw [List.any_cons, List.any_cons, hp hsame, ih]

/-- The first elements pass such a test alike. -/
theorem head?_filter_ids (h : order.Matching xs ys)
    (hp : ∀ {a b}, order.same a b = true → p a = p b) :
    (xs.head?.filter p).map ident = (ys.head?.filter p).map ident := by
  cases h with
  | nil => rfl
  | cons hsame _ =>
    rw [List.head?_cons, List.head?_cons, Option.filter_some, Option.filter_some, hp hsame]
    split
    · exact congrArg some (ident_eq_of_same hsame)
    · rfl

end KeyOrder.Matching

/-! ## Additions to a set -/

section Additions

variable [Std.TransCmp order.keys] {xs : List α}

/-- After an addition a set holds what it held before and the new element. -/
theorem any_setAdd (a c : α) :
    (setAdd order xs a).2.any (order.same · c) = (xs.any (order.same · c) || order.same a c) := by
  unfold setAdd
  split
  · rename_i hthere
    obtain ⟨b, hb, hsame⟩ := List.any_eq_true.mp hthere
    -- what is the same as the new element is the same as one that is there
    cases hc : order.same a c with
    | false => rw [Bool.or_false]
    | true =>
      rw [Bool.or_true, List.any_eq_true]
      exact ⟨b, hb, by rwa [KeyOrder.same_congr hsame]⟩
  · dsimp only [SortedArray.placed]
    rw [List.any_append, List.any_cons, Bool.or_left_comm, ← List.any_append,
      (List.filter_append_perm _ xs).any_eq, Bool.or_comm]

omit [Std.TransCmp order.keys] in
theorem length_setAdd (xs : List α) (a : α) :
    (setAdd order xs a).2.length = xs.length + if (setAdd order xs a).1 then 1 else 0 := by
  unfold setAdd
  split
  · rfl
  · have hperm := (List.filter_append_perm (fun b => (order.compare b a).isLT) xs).length_eq
    rw [List.length_append] at hperm
    dsimp only [SortedArray.placed]
    rw [List.length_append, List.length_cons, if_pos rfl]
    omega

/-- After several additions it holds all the elements that were given, and has
grown by as many as were counted. -/
theorem setCountEach_setAdd (order : KeyOrder α) [Std.TransCmp order.keys] (as xs : List α) :
    (∀ c, (setCountEach (setAdd order) as xs).2.any (order.same · c) =
      (xs.any (order.same · c) || as.any (order.same · c))) ∧
      (setCountEach (setAdd order) as xs).2.length =
        xs.length + (setCountEach (setAdd order) as xs).1 := by
  induction as generalizing xs with
  | nil => exact ⟨fun c => (Bool.or_false _).symm, rfl⟩
  | cons a rest ih =>
    obtain ⟨hany, hlength⟩ := ih (setAdd order xs a).2
    simp only [setCountEach]
    constructor
    · intro c
      rw [hany c, any_setAdd, List.any_cons, Bool.or_assoc]
    · rw [hlength, length_setAdd]
      split <;> omega

end Additions

end SnapshotIndex
