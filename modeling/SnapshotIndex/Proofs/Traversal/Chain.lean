import SnapshotIndex.Store.Position

/-!
# The places of a traversal

A store of any layout is traversed from place to place.  A `Chain` says that a
list of places holds a list of elements and that one steps from each of these
places to the next one, forwards and backwards.  A `Window` is a chain with
its two ends: between them no other place holds an element, and one step past
either end leads out of the chain.

* `Chain.tail`, `Chain.dropLast`: a chain that is used up from either end.
-/

namespace SnapshotIndex

variable {σ α : Type} [Positional σ α]

/-- Places that hold the elements of a list, one a step away from the other. -/
structure Chain (content : σ) (places : List Nat) (xs : List α) : Prop where
  length_eq : places.length = xs.length
  get?_eq : ∀ (i p : Nat), places[i]? = some p → Positional.get? content (.nth p) = xs[i]?
  next_eq : ∀ (i p q : Nat), places[i]? = some p → places[i + 1]? = some q →
    Positional.next content (.nth p) = .nth q
  prev_eq : ∀ (i p q : Nat), places[i]? = some p → places[i + 1]? = some q →
    Positional.prev content (.nth q) = .nth p

/-- A chain between two places. -/
structure Window (content : σ) (first last : Position) (places : List Nat) (xs : List α) : Prop
    extends Chain content places xs where
  first_eq : ∀ p, places.head? = some p → first = .nth p
  last_eq : ∀ p, places.getLast? = some p → last = .nth p
  /-- The places between the ends that hold an element are those of the chain. -/
  holds_iff : ∀ q : Position,
    (first ≤ q ∧ q ≤ last ∧ Positional.holds content q = true) ↔ ∃ p ∈ places, q = .nth p
  past_last : ∀ p, places.getLast? = some p → ∀ r ∈ places,
    Positional.next content (.nth p) ≠ .nth r
  past_first : ∀ p, places.head? = some p → ∀ r ∈ places,
    Positional.prev content (.nth p) ≠ .nth r

namespace Chain

variable {content : σ} {places : List Nat} {xs : List α}

theorem get?_head (h : Chain content places xs) {p : Nat} (hp : places.head? = some p) :
    Positional.get? content (.nth p) = xs.head? := by
  rw [List.head?_eq_getElem?] at hp ⊢
  exact h.get?_eq 0 p hp

theorem get?_last (h : Chain content places xs) {p : Nat} (hp : places.getLast? = some p) :
    Positional.get? content (.nth p) = xs.getLast? := by
  rw [List.getLast?_eq_getElem?] at hp ⊢
  rw [← h.length_eq]
  exact h.get?_eq _ p hp

/-- A chain without its first place is one for the other elements. -/
theorem tail (h : Chain content places xs) : Chain content places.tail xs.tail where
  length_eq := by simp [h.length_eq]
  get?_eq := by
    intro i p hp
    rw [List.getElem?_tail] at hp ⊢
    exact h.get?_eq (i + 1) p hp
  next_eq := by
    intro i p q hp hq
    rw [List.getElem?_tail] at hp hq
    exact h.next_eq (i + 1) p q hp hq
  prev_eq := by
    intro i p q hp hq
    rw [List.getElem?_tail] at hp hq
    exact h.prev_eq (i + 1) p q hp hq

/-- And so is one without its last place. -/
theorem dropLast (h : Chain content places xs) : Chain content places.dropLast xs.dropLast where
  length_eq := by simp [h.length_eq]
  get?_eq := by
    intro i p hp
    rw [List.getElem?_dropLast] at hp ⊢
    rw [← h.length_eq]
    split at hp
    · rename_i hi
      rw [if_pos hi]
      exact h.get?_eq i p hp
    · simp at hp
  next_eq := by
    intro i p q hp hq
    rw [List.getElem?_dropLast] at hp hq
    split at hq
    · rw [if_pos (by omega)] at hp
      exact h.next_eq i p q hp hq
    · simp at hq
  prev_eq := by
    intro i p q hp hq
    rw [List.getElem?_dropLast] at hp hq
    split at hq
    · rw [if_pos (by omega)] at hp
      exact h.prev_eq i p q hp hq
    · simp at hq

end Chain

end SnapshotIndex
