import Mathlib.Data.List.Forall2
import SnapshotIndex.Proofs.Label.Closest

/-!
# Suggestions and letter case

Labels are compared in lower case, and so the case in which they are written should not
make a difference to a suggestion.  For the labels of the list this is so.  If some of
them are written in another case, the distances stay, and the suggestion stands at the
same place of the list as before (`closest?_related`).

For the label that is asked for it is not quite so.  Its distances are those of its lower
case, and the first of the closest labels is the same in whatever case it is written.  But
how many edits this label may be off depends on the number of characters that were
written, and one character has a lower case of two: the capital I with a dot, which is
followed by the dot as a character of its own.

* `length_lowercase`: the lower case of a text is longer by the number of its dotted
  capitals, and by no more.
* `closest?_eq_iff`: queries with one lower case agree exactly if the budgets of both
  make the same of the first of the closest labels.
* `suggestions_by_case`: so they agree whenever they have the same number of dotted
  capitals, and may differ if they have not (`dotted_capital_costs_suggestion`).
-/

namespace SnapshotIndex

namespace Text

/-! ## The length of a text in lower case -/

theorem length_lowercaseChar (c : Char) :
    (lowercaseChar c).length = if c = '\u0130' then 2 else 1 := by
  unfold lowercaseChar
  split
  · rfl
  · split
    · rfl
    · rfl

theorem length_lowercaseAfter (before text : List Char) :
    (lowercaseAfter before text).length = text.length + text.count '\u0130' := by
  induction text generalizing before with
  | nil => rfl
  | cons c rest ih =>
    have hone : (if c = '\u03a3' then [lowercaseSigma before rest] else lowercaseChar c).length =
        1 + if c == '\u0130' then 1 else 0 := by
      split
      · -- either form of the sigma is one character
        rename_i hsigma
        rw [hsigma]
        rfl
      · rw [length_lowercaseChar]
        simp only [beq_iff_eq]
        split
        · rfl
        · rfl
    rw [lowercaseAfter, List.length_append, hone, ih, List.length_cons, List.count_cons]
    omega

/-- Only dotted capitals become longer in lower case, by one character each. -/
theorem length_lowercase (text : List Char) :
    (lowercase text).length = text.length + text.count '\u0130' :=
  length_lowercaseAfter [] text

end Text

namespace Label

/-! ## Labels in another case -/

/-- If two lists correspond, and what corresponds has the same cost, then the first of
the least of one list corresponds to that of the other. -/
theorem leastBy_related {α β : Type} {R : α → β → Prop} {cost : α → Nat} {cost' : β → Nat}
    (hcost : ∀ a b, R a b → cost a = cost' b) {as : List α} {bs : List β}
    (h : List.Forall₂ R as bs) : Option.Rel R (leastBy cost as) (leastBy cost' bs) := by
  induction h with
  | nil => exact .none
  | @cons a b as bs hab hrest ih =>
    rw [leastBy, leastBy]
    generalize leastBy cost as = least at ih ⊢
    generalize leastBy cost' bs = least' at ih ⊢
    cases ih with
    | none => exact .some hab
    | some hleast =>
      dsimp only
      rw [hcost a b hab, hcost _ _ hleast]
      split
      · exact .some hab
      · exact .some hleast

variable {query query' : String} {labels labels' : List String}

theorem distance_congr_right {l l' : String}
    (h : Text.lowercase l.toList = Text.lowercase l'.toList) (query : String) :
    distance query l = distance query l' := by
  rw [distance, distance, h]

/-- Labels in another case are suggested as those that they stand for would be. -/
theorem closest?_related {R : String → String → Prop}
    (hR : ∀ l l', R l l' → Text.lowercase l.toList = Text.lowercase l'.toList)
    (h : List.Forall₂ R labels labels') (query : String) :
    Option.Rel R (closest? query labels) (closest? query labels') := by
  have hcost : ∀ l l', R l l' → distance query l = distance query l' :=
    fun l l' hl => distance_congr_right (hR l l' hl) query
  have hleast := leastBy_related hcost h
  rw [closest?_eq, closest?_eq]
  generalize leastBy (distance query) labels = least at hleast ⊢
  generalize leastBy (distance query) labels' = least' at hleast ⊢
  cases hleast with
  | none => exact .none
  | some hl =>
    rw [Option.filter_some, Option.filter_some, hcost _ _ hl]
    split
    · exact .some hl
    · exact .none

/-- If one label is written in another case, the suggestion stays, but for the spelling
of this label if it is the one that is suggested. -/
theorem closest?_respelled {l l' : String}
    (h : Text.lowercase l.toList = Text.lowercase l'.toList) (query : String)
    (before after : List String) :
    closest? query (before ++ l' :: after) = closest? query (before ++ l :: after) ∨
      closest? query (before ++ l :: after) = some l ∧
        closest? query (before ++ l' :: after) = some l' := by
  let R (k k' : String) : Prop := k' = k ∨ k = l ∧ k' = l'
  have hR : ∀ k k', R k k' → Text.lowercase k.toList = Text.lowercase k'.toList := by
    rintro k k' (rfl | ⟨rfl, rfl⟩)
    · rfl
    · exact h
  have hsame : ∀ ks : List String, List.Forall₂ R ks ks :=
    fun ks => List.forall₂_same.mpr fun k _ => .inl rfl
  have hlabels : List.Forall₂ R (before ++ l :: after) (before ++ l' :: after) :=
    List.rel_append (hsame before) (.cons (.inr ⟨rfl, rfl⟩) (hsame after))
  have hclosest := closest?_related hR hlabels query
  generalize closest? query (before ++ l :: after) = closest at hclosest ⊢
  generalize closest? query (before ++ l' :: after) = closest' at hclosest ⊢
  cases hclosest with
  | none => exact .inl rfl
  | some hl =>
    rcases hl with rfl | ⟨rfl, rfl⟩
    · exact .inl rfl
    · exact .inr ⟨rfl, rfl⟩

/-! ## Queries in another case -/

theorem distance_congr_left (h : Text.lowercase query.toList = Text.lowercase query'.toList) :
    distance query = distance query' := by
  funext l
  rw [distance, distance, h]

/-- Queries with one lower case get the same suggestion exactly if the first of the closest
labels is close enough to both of them or to neither. -/
theorem closest?_eq_iff (h : Text.lowercase query.toList = Text.lowercase query'.toList) :
    closest? query labels = closest? query' labels ↔
      ∀ l, FirstOfLeast (distance query) labels l →
        (distance query l ≤ editBudget query.length ↔
          distance query l ≤ editBudget query'.length) := by
  rw [closest?_eq, closest?_eq, ← distance_congr_left h]
  simp only [← leastBy_eq_some_iff]
  cases leastBy (distance query) labels with
  | none => exact iff_of_true rfl fun l hl => absurd hl.symm (Option.some_ne_none l)
  | some l =>
    rw [Option.filter_some, Option.filter_some]
    simp only [Option.some.injEq, forall_eq']
    grind

/-- Queries with one lower case have as many characters if they have as many dotted
capitals. -/
theorem length_eq_of_lowercase_eq
    (h : Text.lowercase query.toList = Text.lowercase query'.toList)
    (hdotted : query.toList.count '\u0130' = query'.toList.count '\u0130') :
    query.length = query'.length := by
  have hlengths := congrArg List.length h
  rw [Text.length_lowercase, Text.length_lowercase, String.length_toList, String.length_toList]
    at hlengths
  omega

/-- Two queries that are the same in lower case have the same labels closest to them, and
get the same suggestion exactly if the first of these is close enough to both or to
neither, as it is whenever they have as many dotted capitals.  A label that is replaced by
one with the same lower case makes no difference to a suggestion but for its own
spelling. -/
theorem suggestions_by_case (query query' : String) (labels : List String) :
    (Text.lowercase query.toList = Text.lowercase query'.toList →
      (closest? query labels = closest? query' labels ↔
        ∀ l, FirstOfLeast (distance query) labels l →
          (distance query l ≤ editBudget query.length ↔
            distance query l ≤ editBudget query'.length)) ∧
      (query.toList.count '\u0130' = query'.toList.count '\u0130' →
        closest? query labels = closest? query' labels)) ∧
    ∀ before after l l', labels = before ++ l :: after →
      Text.lowercase l.toList = Text.lowercase l'.toList →
        closest? query (before ++ l' :: after) = closest? query labels ∨
          closest? query labels = some l ∧ closest? query (before ++ l' :: after) = some l' := by
  constructor
  · intro h
    refine ⟨closest?_eq_iff h, ?_⟩
    intro hdotted
    rw [closest?_eq_iff h, length_eq_of_lowercase_eq h hdotted]
    exact fun l _ => Iff.rfl
  · rintro before after l l' rfl h
    exact closest?_respelled h query before after

/-- A query with a sigma at its end, which has a form of its own in lower case. -/
theorem suggestions_by_case_sigma :
    Text.lowercase "ΟΔΟΣ".toList = Text.lowercase "οδος".toList ∧
      "ΟΔΟΣ".toList.count '\u0130' = "οδος".toList.count '\u0130' ∧
      closest? "ΟΔΟΣ" ["Οδός", "Οδοί"] = closest? "οδος" ["Οδός", "Οδοί"] ∧
      Text.lowercase "Οδός".toList = Text.lowercase "ΟΔΌΣ".toList ∧
      closest? "οδος" ["Οδός", "Οδοί"] = some "Οδός" ∧
      closest? "οδος" ["ΟΔΌΣ", "Οδοί"] = some "ΟΔΌΣ" := by
  have hquery : Text.lowercase "ΟΔΟΣ".toList = Text.lowercase "οδος".toList := by
    decide +kernel
  have hdotted : "ΟΔΟΣ".toList.count '\u0130' = "οδος".toList.count '\u0130' := by decide
  have hlabel : Text.lowercase "Οδός".toList = Text.lowercase "ΟΔΌΣ".toList := by
    decide +kernel
  have hfirst : closest? "οδος" ["Οδός", "Οδοί"] = some "Οδός" := by
    decide +kernel
  obtain ⟨hagree, -⟩ := suggestions_by_case "ΟΔΟΣ" "οδος" ["Οδός", "Οδοί"]
  obtain ⟨-, hrespelled⟩ := suggestions_by_case "οδος" "οδος" ["Οδός", "Οδοί"]
  refine ⟨hquery, hdotted, (hagree hquery).2 hdotted, hlabel, hfirst, ?_⟩
  rcases hrespelled [] ["Οδοί"] _ _ rfl hlabel with hstays | ⟨-, hnow⟩
  · exact absurd (hstays.trans hfirst) (by decide +kernel)
  · exact hnow

/-- The dotted capital counts as one character, and without it there are two, so that only
the query in lower case may be off by two edits. -/
theorem dotted_capital_costs_suggestion :
    Text.lowercase "D\u0130Z".toList = Text.lowercase "di\u0307z".toList ∧
      closest? "D\u0130Z" ["Dizi"] = none ∧ closest? "di\u0307z" ["Dizi"] = some "Dizi" := by
  decide

end Label

end SnapshotIndex
