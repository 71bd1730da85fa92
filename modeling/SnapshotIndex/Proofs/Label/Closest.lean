import Mathlib.Order.Lattice.Nat
import SnapshotIndex.Proofs.Label.Distance

/-!
# The label that is suggested

A suggestion is looked for in two passes: labels too far from the one asked for are
left out, and of the others the first of the closest is taken.  What is left out is
farther than all that is kept, so that it could as well be left out afterwards
(`leastBy_filter`): the first of the closest of all labels is suggested, if it is
close enough.  This separates the two concerns.  What is the first of the closest is
a matter of `leastBy` alone (`leastBy_eq_some_iff`), with ties settled in favour of
the label that comes first.

The distances themselves are lengths of shortest scripts (`distance_eq`), and a label
that differs in no more than upper and lower case is at distance zero, at which
none is closer and every budget suffices.
-/

namespace SnapshotIndex.Label

/-- The least number of edits that turn one text into another. -/
noncomputable def fewestEdits (a b : List Char) : Nat := sInf {n | Edits n a b}

/-- An element that costs less than all before it, and no more than any after it. -/
def FirstOfLeast {α : Type} (cost : α → Nat) (xs : List α) (x : α) : Prop :=
  ∃ before after, xs = before ++ x :: after ∧
    (∀ y ∈ before, cost x < cost y) ∧ ∀ y ∈ after, cost x ≤ cost y

/-! ## The first of the least -/

section Least

variable {α : Type} {cost : α → Nat} {xs : List α} {x : α}

theorem leastBy_eq_none_iff : leastBy cost xs = none ↔ xs = [] := by
  cases xs with
  | nil => exact iff_of_true rfl rfl
  | cons a rest =>
    refine iff_of_false ?_ (List.cons_ne_nil a rest)
    unfold leastBy
    split
    · exact Option.some_ne_none a
    · split
      · exact Option.some_ne_none a
      · exact Option.some_ne_none _

theorem FirstOfLeast.le (h : FirstOfLeast cost xs x) {y : α} (hy : y ∈ xs) : cost x ≤ cost y := by
  obtain ⟨before, after, rfl, hbefore, hafter⟩ := h
  rcases List.mem_append.mp hy with hy | hy
  · exact (hbefore y hy).le
  · rcases List.mem_cons.mp hy with rfl | hy
    · exact le_rfl
    · exact hafter y hy

theorem firstOfLeast_of_leastBy (h : leastBy cost xs = some x) : FirstOfLeast cost xs x := by
  induction xs generalizing x with
  | nil => exact absurd h.symm (Option.some_ne_none x)
  | cons a rest ih =>
    rw [leastBy] at h
    split at h
    · rename_i hnone
      obtain rfl := Option.some.inj h
      obtain rfl := leastBy_eq_none_iff.mp hnone
      exact ⟨[], [], rfl, List.forall_mem_nil _, List.forall_mem_nil _⟩
    · rename_i b hb
      have hleast := ih hb
      split at h
      · rename_i hle
        obtain rfl := Option.some.inj h
        exact ⟨[], rest, rfl, List.forall_mem_nil _, fun y hy => hle.trans (hleast.le hy)⟩
      · rename_i hlt
        obtain rfl := Option.some.inj h
        obtain ⟨before, after, rfl, hbefore, hafter⟩ := hleast
        refine ⟨a :: before, after, rfl, ?_, hafter⟩
        exact List.forall_mem_cons.mpr ⟨Nat.lt_of_not_le hlt, hbefore⟩

/-- Elements that cost more do not change the least when they are put in front. -/
theorem leastBy_append {before : List α} (h : leastBy cost xs = some x)
    (hbefore : ∀ y ∈ before, cost x < cost y) : leastBy cost (before ++ xs) = some x := by
  induction before with
  | nil => exact h
  | cons a before ih =>
    obtain ⟨ha, hrest⟩ := List.forall_mem_cons.mp hbefore
    rw [List.cons_append, leastBy, ih hrest]
    exact if_neg (Nat.not_le_of_lt ha)

theorem leastBy_eq_some_iff : leastBy cost xs = some x ↔ FirstOfLeast cost xs x := by
  refine ⟨firstOfLeast_of_leastBy, ?_⟩
  rintro ⟨before, after, rfl, hbefore, hafter⟩
  refine leastBy_append ?_ hbefore
  rw [leastBy]
  split
  · rfl
  · rename_i b hb
    obtain ⟨front, back, rfl, -⟩ := firstOfLeast_of_leastBy hb
    exact if_pos (hafter b (List.mem_append_right _ List.mem_cons_self))

/-- Whether what is too costly is left out before or after makes no difference. -/
theorem leastBy_filter (cost : α → Nat) (budget : Nat) (xs : List α) :
    leastBy cost (xs.filter fun y => cost y ≤ budget) =
      (leastBy cost xs).filter fun y => cost y ≤ budget := by
  induction xs with
  | nil => rfl
  | cons a rest ih =>
    by_cases ha : cost a ≤ budget
    · -- what is left out of the rest costs more than `a`
      rw [List.filter_cons, if_pos (decide_eq_true ha), leastBy, leastBy, ih]
      cases leastBy cost rest with
      | none => exact (if_pos (decide_eq_true ha)).symm
      | some b => grind
    · -- if `a` is the least, then the rest is left out with it
      rw [List.filter_cons, if_neg (by simpa using ha), leastBy, ih]
      cases leastBy cost rest with
      | none => exact (if_neg (by simpa using ha)).symm
      | some b => grind

end Least

/-! ## Labels -/

theorem editDistance_eq_fewestEdits (a b : List Char) : editDistance a b = fewestEdits a b :=
  (isLeast_editDistance a b).csInf_eq.symm

theorem fewestEdits_eq_zero_iff {a b : List Char} : fewestEdits a b = 0 ↔ a = b := by
  rw [← editDistance_eq_fewestEdits]
  exact editDistance_eq_zero_iff

theorem distance_eq (query label : String) : distance query label =
    fewestEdits (Text.lowercase query.toList) (Text.lowercase label.toList) :=
  editDistance_eq_fewestEdits _ _

theorem closest?_eq (query : String) (labels : List String) : closest? query labels =
    (leastBy (distance query) labels).filter fun l => distance query l ≤ editBudget query.length :=
  leastBy_filter _ _ labels

theorem closest?_eq_none_iff {query : String} {labels : List String} :
    closest? query labels = none ↔
      ∀ l ∈ labels, editBudget query.length < distance query l := by
  rw [closest?, leastBy_eq_none_iff, List.filter_eq_nil_iff]
  refine forall₂_congr fun l _ => ?_
  rw [decide_eq_true_iff, Nat.not_le]

theorem closest?_eq_some_iff {query l : String} {labels : List String} :
    closest? query labels = some l ↔
      distance query l ≤ editBudget query.length ∧ FirstOfLeast (distance query) labels l := by
  rw [closest?_eq, Option.filter_eq_some_iff, leastBy_eq_some_iff, decide_eq_true_iff, and_comm]

/-- None is closer than a label at distance zero, and every budget suffices for it. -/
theorem closest?_eq_of_distance_eq_zero {query l : String} {labels before after : List String}
    (hlabels : labels = before ++ l :: after) (hzero : distance query l = 0)
    (hbefore : ∀ b ∈ before, distance query b ≠ 0) : closest? query labels = some l := by
  rw [closest?_eq_some_iff, hzero]
  refine ⟨Nat.zero_le _, before, after, hlabels, ?_, ?_⟩
  · intro b hb
    rw [hzero]
    exact Nat.pos_of_ne_zero (hbefore b hb)
  · intro b _
    rw [hzero]
    exact Nat.zero_le _

/-- Nothing is suggested exactly if all labels are too far, and else the first of the
closest labels is, as it is spelled in the list.  A label that is the same in lower
case is suggested whenever there is one, and it is the first of them. -/
theorem first_of_nearest_suggested (query : String) (labels : List String) :
    let far := fun label : String =>
      fewestEdits (Text.lowercase query.toList) (Text.lowercase label.toList)
    let budget := if query.length ≤ 3 then 1 else if query.length ≤ 5 then 2 else 3
    let same := fun label : String => Text.lowercase query.toList = Text.lowercase label.toList
    (closest? query labels = none ↔ ∀ l ∈ labels, budget < far l) ∧
      (∀ l, closest? query labels = some l ↔ far l ≤ budget ∧ FirstOfLeast far labels l) ∧
      ∀ l, labels.find? (same ·) = some l → closest? query labels = some l := by
  intro far budget same
  have hfar : distance query = far := funext fun l => distance_eq query l
  refine ⟨?_, ?_, ?_⟩
  · rw [closest?_eq_none_iff, hfar]
    rfl
  · intro l
    rw [closest?_eq_some_iff, hfar]
    rfl
  · intro l hfind
    obtain ⟨hsame, before, after, hlabels, hbefore⟩ := List.find?_eq_some_iff_append.mp hfind
    refine closest?_eq_of_distance_eq_zero hlabels ?_ ?_
    · rw [distance_eq, fewestEdits_eq_zero_iff]
      exact of_decide_eq_true hsame
    · intro b hb hzero
      rw [distance_eq, fewestEdits_eq_zero_iff] at hzero
      have hdiffers := hbefore b hb
      rw [decide_eq_true hzero] at hdiffers
      exact Bool.false_ne_true hdiffers

/-- Of two labels that are equally close the first is suggested. -/
example : closest? "Dok" ["Token", "Dox", "doc"] = some "Dox" := by decide

end SnapshotIndex.Label
