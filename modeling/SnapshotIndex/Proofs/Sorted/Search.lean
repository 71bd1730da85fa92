import Mathlib.Tactic.ByContra
import SnapshotIndex.Proofs.Sorted.Order
import SnapshotIndex.Store.SortedArray

/-!
# Where a search ends in a sorted array

Bisection finds the point where a test stops holding (`bisect_spec`), and in
an increasing array "less than `a`" is such a test.  So the index of a search
counts the lesser elements and the index past it those that are not greater,
and these two numbers say on which side of `a` each element stands:

* `lt_index_iff`: an element is less than `a` exactly if it stands before the
  index of the search.
* `lt_indexPast_iff`: it is not greater exactly if it stands before the index
  past the search.
* `search_eq_found_iff`: a search ends at an element exactly if that element
  is the same.
-/

namespace SnapshotIndex

/-! ## Bisection -/

/-- Whatever the test, bisection ends between the numbers it was given. -/
theorem bisectWithin_le (below : Nat → Bool) (fuel : Nat) {lo hi : Nat} (hle : lo ≤ hi) :
    bisectWithin below fuel lo hi ≤ hi := by
  induction fuel generalizing lo hi with
  | zero => exact hle
  | succ fuel ih =>
    unfold bisectWithin
    split
    · dsimp only
      split
      · exact ih (by omega)
      · exact Nat.le_trans (ih (by omega)) (by omega)
    · exact hle

/-- Between `lo` and `hi` lies the point where the test stops holding, and each
halving keeps it there. -/
theorem bisectWithin_spec {below : Nat → Bool} {n : Nat}
    (hdown : ∀ i j, i ≤ j → j < n → below j = true → below i = true) (fuel lo hi : Nat)
    (hfuel : hi - lo ≤ fuel) (hle : lo ≤ hi) (hn : hi ≤ n) (hlow : ∀ i < lo, below i = true)
    (hhigh : ∀ i, hi ≤ i → i < n → below i = false) :
    (∀ i < bisectWithin below fuel lo hi, below i = true) ∧
      ∀ i, bisectWithin below fuel lo hi ≤ i → i < n → below i = false := by
  induction fuel generalizing lo hi with
  | zero =>
    obtain rfl : lo = hi := by omega
    exact ⟨hlow, hhigh⟩
  | succ fuel ih =>
    unfold bisectWithin
    by_cases hlt : lo < hi
    · rw [if_pos hlt]
      dsimp only
      cases hmid : below ((lo + hi) / 2) with
      | true =>
        -- so it holds of everything up to the middle
        rw [if_pos rfl]
        exact ih ((lo + hi) / 2 + 1) hi (by omega) (by omega) hn
          (fun i hi' => hdown i ((lo + hi) / 2) (by omega) (by omega) hmid) hhigh
      | false =>
        -- so it holds of nothing from the middle on
        have habove : ∀ i, (lo + hi) / 2 ≤ i → i < n → below i = false := by
          intro i hle' hlt'
          cases hi' : below i with
          | false => rfl
          | true =>
            rw [hdown _ i hle' hlt' hi'] at hmid
            exact hmid
        rw [if_neg (by decide)]
        exact ih lo ((lo + hi) / 2) (by omega) (by omega) (by omega) hlow habove
    · rw [if_neg hlt]
      obtain rfl : lo = hi := by omega
      exact ⟨hlow, hhigh⟩

/-- A test that holds of no number after one of which it fails holds of exactly
the numbers below the point that bisection finds. -/
theorem bisect_spec {below : Nat → Bool} {n : Nat}
    (hdown : ∀ i j, i ≤ j → j < n → below j = true → below i = true) :
    ∀ i < n, below i = true ↔ i < bisect below n := by
  obtain ⟨hlow, hhigh⟩ := bisectWithin_spec hdown n 0 n (by omega) (by omega)
    (Nat.le_refl n) (fun i hi => by omega) (fun i hi hlt => by omega)
  refine fun i hi => ⟨fun hbelow => ?_, hlow i⟩
  by_contra hge
  rw [hhigh i (Nat.le_of_not_lt hge) hi] at hbelow
  exact absurd hbelow (by decide)

namespace SortedArray

variable {α : Type}

theorem length_toList (xs : SortedArray α) : xs.toList.length = xs.size := by
  simp [toList, size]

theorem get?_eq (xs : SortedArray α) (i : Nat) : xs.get? i = xs.toList[i]? := by
  simp [get?, toList]

theorem lt_size_of_getElem? {xs : SortedArray α} {i : Nat} {a : α}
    (h : xs.toList[i]? = some a) : i < xs.size := by
  rw [← xs.length_toList]
  exact (List.getElem?_eq_some_iff.mp h).1

theorem exists_getElem? {xs : SortedArray α} {i : Nat} (h : i < xs.size) :
    ∃ a, xs.toList[i]? = some a := by
  rw [← xs.length_toList] at h
  exact ⟨_, List.getElem?_eq_getElem h⟩

/-- Past the end there is nothing to be had anyway. -/
theorem within?_bind_get? (xs : SortedArray α) (i : Nat) :
    (xs.within? i).bind xs.get? = xs.get? i := by
  unfold within?
  split
  · rfl
  · rename_i hi
    rw [get?_eq, List.getElem?_eq_none]
    · rfl
    · rw [length_toList]
      exact Nat.le_of_not_lt hi

theorem partitionPoint_le (xs : SortedArray α) (below : α → Bool) :
    xs.partitionPoint below ≤ xs.size :=
  bisectWithin_le _ _ (Nat.zero_le _)

/-- A test that no element passes after one that fails it is passed by exactly
the elements before the partition point. -/
theorem partitionPoint_spec (xs : SortedArray α) {below : α → Bool}
    (hdown : ∀ (i j : Nat) a b, i ≤ j → xs.toList[i]? = some a → xs.toList[j]? = some b →
      below b = true → below a = true) :
    ∀ i b, xs.toList[i]? = some b → (below b = true ↔ i < xs.partitionPoint below) := by
  have hat : ∀ (i : Nat) b, xs.toList[i]? = some b → (xs.items[i]?.any below) = below b := by
    intro i b hb
    have hget : xs.items[i]? = some b := by rw [← hb, ← get?_eq, get?]
    rw [hget]
    rfl
  have hdown' : ∀ i j : Nat, i ≤ j → j < xs.size → xs.items[j]?.any below = true →
      xs.items[i]?.any below = true := by
    intro i j hij hj hbelow
    obtain ⟨a, ha⟩ : ∃ a, xs.toList[i]? = some a := exists_getElem? (Nat.lt_of_le_of_lt hij hj)
    obtain ⟨b, hb⟩ := exists_getElem? hj
    rw [hat j b hb] at hbelow
    rw [hat i a ha]
    exact hdown i j a b hij ha hb hbelow
  intro i b hb
  rw [← hat i b hb]
  exact bisect_spec hdown' i (lt_size_of_getElem? hb)

/-! ## The search for an element -/

variable [Identified α]

/-- The elements are in increasing order. -/
def Sorted (xs : SortedArray α) : Prop := xs.order.Increasing xs.toList

theorem index_search (xs : SortedArray α) (a : α) :
    (xs.search a).index = xs.partitionPoint fun b => (xs.order.compare b a).isLT := by
  unfold search
  dsimp only
  split <;> rfl

/-- A search ends at an element exactly if the element at its index is the same. -/
theorem search_eq_found {xs : SortedArray α} {a : α} {i : Nat} (h : xs.search a = .found i) :
    ∃ b, xs.toList[i]? = some b ∧ xs.order.same b a = true := by
  unfold search at h
  dsimp only at h
  split at h
  · rename_i hany
    obtain rfl := Search.found.inj h
    rw [get?_eq] at hany
    cases hget : xs.toList[xs.partitionPoint fun b => (xs.order.compare b a).isLT]? with
    | none => simp [hget] at hany
    | some b =>
      refine ⟨b, rfl, xs.order.compare_eq_eq_iff.mp ?_⟩
      simpa [hget] using hany
  · exact absurd h (by simp)

theorem search_eq_missing {xs : SortedArray α} {a : α} {i : Nat} (h : xs.search a = .missing i)
    {b : α} (hb : xs.toList[i]? = some b) : xs.order.same b a = false := by
  unfold search at h
  dsimp only at h
  split at h
  · exact absurd h (by simp)
  · rename_i hany
    obtain rfl := Search.missing.inj h
    rw [get?_eq, hb] at hany
    cases hsame : xs.order.same b a with
    | false => rfl
    | true => simp [xs.order.compare_eq_eq_iff.mpr hsame] at hany

theorem index_le_size (xs : SortedArray α) (a : α) : (xs.search a).index ≤ xs.size := by
  rw [index_search]
  exact xs.partitionPoint_le _

theorem indexPast_le_size (xs : SortedArray α) (a : α) : (xs.search a).indexPast ≤ xs.size := by
  have hindex := xs.index_le_size a
  cases hsearch : xs.search a with
  | found i =>
    obtain ⟨b, hb, -⟩ := search_eq_found hsearch
    exact lt_size_of_getElem? hb
  | missing i =>
    rw [hsearch] at hindex
    exact hindex

namespace Sorted

variable {xs : SortedArray α} [Std.TransCmp xs.order.keys]

/-- The lesser elements are those before the index of the search. -/
theorem lt_index_iff (h : xs.Sorted) {a b : α} {i : Nat} (hb : xs.toList[i]? = some b) :
    i < (xs.search a).index ↔ xs.order.compare b a = .lt := by
  have hdown : ∀ (i j : Nat) b c, i ≤ j → xs.toList[i]? = some b → xs.toList[j]? = some c →
      (xs.order.compare c a).isLT = true → (xs.order.compare b a).isLT = true := by
    intro i j b c hij hb hc hlt
    rw [Ordering.isLT_iff_eq_lt] at hlt ⊢
    rcases Nat.lt_or_eq_of_le hij with hij | rfl
    · exact Std.TransCmp.lt_trans (h.lt_of_lt hij hb hc) hlt
    · obtain rfl : b = c := Option.some.inj (hb.symm.trans hc)
      exact hlt
  rw [index_search, ← xs.partitionPoint_spec hdown i b hb, Ordering.isLT_iff_eq_lt]

/-- A search ends at an element exactly if that element is the same. -/
theorem search_eq_found_iff (h : xs.Sorted) {a : α} {i : Nat} :
    xs.search a = .found i ↔ ∃ b, xs.toList[i]? = some b ∧ xs.order.same b a = true := by
  refine ⟨search_eq_found, ?_⟩
  rintro ⟨b, hb, hsame⟩
  have heq := xs.order.compare_eq_eq_iff.mpr hsame
  have hle : ¬ i < (xs.search a).index := fun hlt => by
    rw [(h.lt_index_iff hb).mp hlt] at heq
    exact absurd heq (by decide)
  -- whatever stands before the element is less than it, and so less than `a`
  have hbefore : ∀ j c, j < i → xs.toList[j]? = some c → j < (xs.search a).index := by
    intro j c hj hc
    rw [h.lt_index_iff hc]
    exact Std.TransCmp.lt_of_lt_of_eq (h.lt_of_lt hj hc hb) heq
  have hindex : (xs.search a).index = i := by
    by_contra hne
    obtain ⟨c, hc⟩ := @exists_getElem? _ xs (xs.search a).index (by
      have hi := lt_size_of_getElem? hb
      omega)
    have := hbefore _ c (by omega) hc
    omega
  cases hsearch : xs.search a with
  | found j =>
    rw [hsearch] at hindex
    exact congrArg Search.found hindex
  | missing j =>
    rw [hsearch] at hindex
    obtain rfl : j = i := hindex
    rw [search_eq_missing hsearch hb] at hsame
    exact absurd hsame (by decide)

/-- A search finds nothing exactly if no element is the same. -/
theorem search_missing_iff (h : xs.Sorted) (a : α) :
    (∃ i, xs.search a = .missing i) ↔ ∀ b ∈ xs.toList, xs.order.same b a = false := by
  constructor
  · rintro ⟨i, hi⟩ b hb
    obtain ⟨j, hj⟩ := List.mem_iff_getElem?.mp hb
    cases hsame : xs.order.same b a with
    | false => rfl
    | true =>
      rw [h.search_eq_found_iff.mpr ⟨b, hj, hsame⟩] at hi
      exact absurd hi (by simp)
  · intro hnone
    cases hsearch : xs.search a with
    | found i =>
      obtain ⟨b, hb, hsame⟩ := search_eq_found hsearch
      rw [hnone b (List.mem_of_getElem? hb)] at hsame
      exact absurd hsame (by decide)
    | missing i => exact ⟨i, rfl⟩

/-- The elements that are not greater are those before the index past the
search. -/
theorem lt_indexPast_iff (h : xs.Sorted) {a b : α} {i : Nat} (hb : xs.toList[i]? = some b) :
    i < (xs.search a).indexPast ↔ (xs.order.compare b a).isLE = true := by
  rw [Ordering.isLE_iff_eq_lt_or_eq_eq, ← h.lt_index_iff hb]
  cases hsearch : xs.search a with
  | found j =>
    have hhere : xs.order.compare b a = .eq ↔ i = j := by
      obtain ⟨c, hc, hsame⟩ := search_eq_found hsearch
      rw [xs.order.compare_eq_eq_iff, h.same_iff_of_same hc hsame hb]
    rw [hhere]
    simp only [Search.indexPast, Search.index]
    omega
  | missing j =>
    have hnone := (h.search_missing_iff a).mp ⟨j, hsearch⟩ b (List.mem_of_getElem? hb)
    have hne : ¬ xs.order.compare b a = .eq := by
      rw [xs.order.compare_eq_eq_iff, hnone]
      decide
    simp [hne, Search.indexPast, Search.index]

end Sorted

end SortedArray

end SnapshotIndex
