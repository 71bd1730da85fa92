import SnapshotIndex.Proofs.Table.WellFormed
import SnapshotIndex.Proofs.Traversal.Cursors

/-!
# Traversing a table

The places of a table are its occupied slots, in increasing order.  Stepping
looks for the nearest of them in one direction, so the step from one leads to
the next, however many empty slots and markers lie between (`window_places`),
and a search leads to the only slot that holds its identity (`seeks_places`).
-/

namespace SnapshotIndex

open Identified (ident)

namespace IdentTable

variable {α : Type}

/-- The occupied slots. -/
def places (t : IdentTable α) : List Nat := (List.range t.size).filter t.isOccupied

theorem isOccupied_iff {t : IdentTable α} {p : Nat} :
    t.isOccupied p = true ↔ ∃ a, t.element? p = some a := by
  unfold isOccupied
  rw [Option.isSome_iff_exists]

theorem mem_places {t : IdentTable α} {p : Nat} : p ∈ t.places ↔ t.isOccupied p = true := by
  unfold places
  rw [List.mem_filter, List.mem_range]
  constructor
  · rintro ⟨-, hp⟩
    exact hp
  · intro hp
    obtain ⟨a, ha⟩ := isOccupied_iff.mp hp
    exact ⟨lt_size_of_element? ha, hp⟩

theorem lt_size_of_mem_places {t : IdentTable α} {p : Nat} (hp : p ∈ t.places) : p < t.size := by
  unfold places at hp
  exact List.mem_range.mp (List.mem_filter.mp hp).1

theorem places_lt {t : IdentTable α} {i j p q : Nat} (hij : i < j) (hp : t.places[i]? = some p)
    (hq : t.places[j]? = some q) : p < q := by
  have hinc : t.places.Pairwise (· < ·) := List.Pairwise.filter _ List.pairwise_lt_range
  obtain ⟨hi, rfl⟩ := List.getElem?_eq_some_iff.mp hp
  obtain ⟨hj, rfl⟩ := List.getElem?_eq_some_iff.mp hq
  exact List.pairwise_iff_getElem.mp hinc i j hi hj hij

/-- No slot between two neighbouring places is occupied. -/
theorem not_mem_between {t : IdentTable α} {i p q s : Nat} (hp : t.places[i]? = some p)
    (hq : t.places[i + 1]? = some q) (hps : p < s) (hsq : s < q) : s ∉ t.places := by
  intro hs
  obtain ⟨j, hj⟩ := List.mem_iff_getElem?.mp hs
  rcases Nat.lt_trichotomy j i with hlt | rfl | hgt
  · have := places_lt hlt hj hp
    omega
  · have := Option.some.inj (hp.symm.trans hj)
    omega
  · rcases Nat.lt_or_eq_of_le (show i + 1 ≤ j from hgt) with hlt | rfl
    · have := places_lt hlt hq hj
      omega
    · have := Option.some.inj (hq.symm.trans hj)
      omega

theorem le_of_head_places {t : IdentTable α} {p q : Nat} (hp : t.places.head? = some p)
    (hq : q ∈ t.places) : p ≤ q := by
  rw [List.head?_eq_getElem?] at hp
  obtain ⟨j, hj⟩ := List.mem_iff_getElem?.mp hq
  rcases Nat.eq_zero_or_pos j with rfl | hpos
  · exact Nat.le_of_eq (Option.some.inj (hp.symm.trans hj))
  · exact Nat.le_of_lt (places_lt hpos hp hj)

theorem le_of_last_places {t : IdentTable α} {p q : Nat} (hp : t.places.getLast? = some p)
    (hq : q ∈ t.places) : q ≤ p := by
  rw [List.getLast?_eq_getElem?] at hp
  obtain ⟨j, hj⟩ := List.mem_iff_getElem?.mp hq
  have hlt := (List.getElem?_eq_some_iff.mp hj).1
  rcases Nat.lt_or_eq_of_le (show j ≤ t.places.length - 1 by omega) with hless | rfl
  · exact Nat.le_of_lt (places_lt hless hj hp)
  · exact Nat.le_of_eq (Option.some.inj (hj.symm.trans hp))

/-- The elements are what the places hold, in their order. -/
theorem map_places (t : IdentTable α) : t.places.map t.element? = t.toList.map some := by
  have hslots : t.slots.toList.map Slot.element? = (List.range t.size).map t.element? := by
    apply List.ext_getElem?
    intro i
    rw [List.getElem?_map, List.getElem?_map, Array.getElem?_toList]
    by_cases hi : i < t.size
    · obtain ⟨slot, hslot⟩ := exists_slot hi
      rw [List.getElem?_range hi, hslot]
      simp [element?, hslot]
    · have hnone : t.slots[i]? = none := Array.getElem?_eq_none (Nat.le_of_not_lt hi)
      rw [hnone, List.getElem?_eq_none (by simpa using hi)]
      rfl
  have hsome : ∀ slots : List (Slot α), (slots.filterMap Slot.element?).map some =
      (slots.map Slot.element?).filter Option.isSome := by
    intro slots
    induction slots with
    | nil => rfl
    | cons slot rest ih => cases slot <;> simpa [List.filterMap_cons] using ih
  unfold places toList
  rw [hsome, hslots, List.filter_map]
  rfl

/-! ## Stepping -/

/-- A search for an occupied slot ends at the nearest one, if any of the slots that
it looks at is occupied. -/
theorem firstOccupied_nearest (t : IdentTable α) (steps slot : Nat) :
    (∃ p ∈ t.places, t.firstOccupied steps slot = some p ∧ slot ≤ p ∧
      ∀ s ∈ t.places, slot ≤ s → p ≤ s) ∨
    t.firstOccupied steps slot = none ∧ ∀ s ∈ t.places, slot ≤ s → slot + steps ≤ s := by
  induction steps generalizing slot with
  | zero =>
    right
    exact ⟨rfl, fun s _ hle => hle⟩
  | succ steps ih =>
    unfold firstOccupied
    by_cases hhere : t.isOccupied slot = true
    · left
      exact ⟨slot, mem_places.mpr hhere, if_pos hhere, Nat.le_refl _, fun s _ hle => hle⟩
    · rw [if_neg hhere]
      -- what is occupied from `slot` on is occupied after it
      have hafter : ∀ s ∈ t.places, slot ≤ s → slot + 1 ≤ s := by
        intro s hs hle
        refine Nat.lt_of_le_of_ne hle ?_
        rintro rfl
        exact hhere (mem_places.mp hs)
      rcases ih (slot + 1) with ⟨p, hp, hfirst, hle, hnearest⟩ | ⟨hnone, hbeyond⟩
      · left
        refine ⟨p, hp, hfirst, Nat.le_of_succ_le hle, ?_⟩
        intro s hs hslot
        exact hnearest s hs (hafter s hs hslot)
      · right
        refine ⟨hnone, ?_⟩
        intro s hs hslot
        have := hbeyond s hs (hafter s hs hslot)
        omega

/-- And so does a search backwards. -/
theorem lastOccupied_nearest (t : IdentTable α) (slot : Nat) :
    (∃ p ∈ t.places, t.lastOccupied slot = some p ∧ p < slot ∧
      ∀ s ∈ t.places, s < slot → s ≤ p) ∨
    t.lastOccupied slot = none ∧ ∀ s ∈ t.places, slot ≤ s := by
  induction slot with
  | zero =>
    right
    exact ⟨rfl, fun s _ => Nat.zero_le s⟩
  | succ slot ih =>
    unfold lastOccupied
    by_cases hhere : t.isOccupied slot = true
    · left
      refine ⟨slot, mem_places.mpr hhere, if_pos hhere, Nat.lt_succ_self slot, ?_⟩
      exact fun s _ hlt => Nat.le_of_lt_succ hlt
    · rw [if_neg hhere]
      -- what is occupied up to `slot` is occupied before it
      have hbefore : ∀ s ∈ t.places, s ≠ slot := by
        rintro s hs rfl
        exact hhere (mem_places.mp hs)
      rcases ih with ⟨p, hp, hlast, hlt, hnearest⟩ | ⟨hnone, hbeyond⟩
      · left
        refine ⟨p, hp, hlast, Nat.lt_succ_of_lt hlt, ?_⟩
        intro s hs hslot
        exact hnearest s hs (Nat.lt_of_le_of_ne (Nat.le_of_lt_succ hslot) (hbefore s hs))
      · right
        refine ⟨hnone, ?_⟩
        intro s hs
        exact Nat.lt_of_le_of_ne (hbeyond s hs) (hbefore s hs).symm

/-- A step forward leads to the nearest occupied slot, or to the end if there is none. -/
theorem placeFrom_nearest (t : IdentTable α) (slot : Nat) :
    ∃ p, t.placeFrom slot = .nth p ∧ (p ∈ t.places ∧ slot ≤ p ∨ p = t.size) ∧
      ∀ s ∈ t.places, slot ≤ s → p ≤ s := by
  unfold placeFrom
  rcases t.firstOccupied_nearest (t.size - slot) slot with ⟨p, hp, hfirst, hle, hnearest⟩ |
    ⟨hnone, hbeyond⟩
  · refine ⟨p, ?_, .inl ⟨hp, hle⟩, hnearest⟩
    rw [hfirst, Option.getD_some]
  · refine ⟨t.size, ?_, .inr rfl, ?_⟩
    · rw [hnone, Option.getD_none]
    · intro s hs hslot
      have := hbeyond s hs hslot
      omega

theorem placeFrom_eq {t : IdentTable α} {p slot : Nat} (hp : p ∈ t.places) (hle : slot ≤ p)
    (hbetween : ∀ s, slot ≤ s → s < p → s ∉ t.places) : t.placeFrom slot = .nth p := by
  obtain ⟨q, hq, hstands, hnearest⟩ := t.placeFrom_nearest slot
  have hqp : q ≤ p := hnearest p hp hle
  have hlt := lt_size_of_mem_places hp
  rcases hstands with ⟨hplace, hslot⟩ | rfl
  · have hpq : ¬ q < p := fun hless => hbetween q hslot hless hplace
    rw [hq, Nat.le_antisymm hqp (Nat.le_of_not_lt hpq)]
  · omega

theorem placeFrom_past {t : IdentTable α} {slot : Nat} (hnone : ∀ s ∈ t.places, s < slot) :
    t.placeFrom slot = .nth t.size := by
  obtain ⟨q, hq, ⟨hplace, hslot⟩ | rfl, -⟩ := t.placeFrom_nearest slot
  · exact absurd (hnone q hplace) (Nat.not_lt.mpr hslot)
  · exact hq

/-- A step back leads to the nearest occupied slot, or before the start if there is none. -/
theorem placeBelow_nearest (t : IdentTable α) (slot : Nat) :
    (∃ p ∈ t.places, t.placeBelow slot = .nth p ∧ p < slot ∧ ∀ s ∈ t.places, s < slot → s ≤ p) ∨
    t.placeBelow slot = .before ∧ ∀ s ∈ t.places, slot ≤ s := by
  unfold placeBelow
  rcases t.lastOccupied_nearest slot with ⟨p, hp, hlast, hnearest⟩ | ⟨hnone, hbeyond⟩
  · left
    rw [hlast]
    exact ⟨p, hp, rfl, hnearest⟩
  · right
    rw [hnone]
    exact ⟨rfl, hbeyond⟩

theorem placeBelow_eq {t : IdentTable α} {p slot : Nat} (hp : p ∈ t.places) (hlt : p < slot)
    (hbetween : ∀ s, p < s → s < slot → s ∉ t.places) : t.placeBelow slot = .nth p := by
  rcases t.placeBelow_nearest slot with ⟨q, hq, hplace, hqslot, hnearest⟩ | ⟨-, hnone⟩
  · have hpq : p ≤ q := hnearest p hp hlt
    have hqp : ¬ p < q := fun hless => hbetween q hless hqslot hq
    rw [hplace, Nat.le_antisymm hpq (Nat.le_of_not_lt hqp)]
  · exact absurd hlt (Nat.not_lt.mpr (hnone p hp))

theorem placeBelow_past {t : IdentTable α} {slot : Nat} (hnone : ∀ s ∈ t.places, slot ≤ s) :
    t.placeBelow slot = .before := by
  rcases t.placeBelow_nearest slot with ⟨q, hq, -, hqslot, -⟩ | ⟨hplace, -⟩
  · exact absurd (hnone q hq) (Nat.not_le.mpr hqslot)
  · exact hplace

/-! ## The window of a table -/

variable [Identified α]

theorem chain_places (t : IdentTable α) : Chain t t.places t.toList where
  length_eq := by
    have hlength := congrArg List.length t.map_places
    simpa using hlength
  get?_eq := by
    intro i p hp
    have hmap := congrArg (fun l => l[i]?) t.map_places
    rw [List.getElem?_map, List.getElem?_map, hp] at hmap
    change t.element? p = t.toList[i]?
    cases ha : t.toList[i]? with
    | none =>
      rw [ha] at hmap
      exact absurd hmap (by simp)
    | some a =>
      rw [ha] at hmap
      exact Option.some.inj hmap
  next_eq := by
    intro i p q hp hq
    refine placeFrom_eq (List.mem_of_getElem? hq) (places_lt (Nat.lt_succ_self i) hp hq) ?_
    intro s hs hsq
    exact not_mem_between hp hq hs hsq
  prev_eq := by
    intro i p q hp hq
    have hlt := places_lt (Nat.lt_succ_self i) hp hq
    have hsize := lt_size_of_mem_places (List.mem_of_getElem? hq)
    change t.placeBelow (min q t.size) = .nth p
    rw [Nat.min_eq_left (Nat.le_of_lt hsize)]
    refine placeBelow_eq (List.mem_of_getElem? hp) hlt ?_
    intro s hs hsq
    exact not_mem_between hp hq hs hsq

theorem first_eq_nth {t : IdentTable α} {p : Nat} (hp : t.places.head? = some p) :
    Positional.first t = .nth p := by
  refine placeFrom_eq (List.mem_of_head? hp) (Nat.zero_le p) ?_
  intro s _ hsp hs
  have := le_of_head_places hp hs
  omega

theorem last_eq_nth {t : IdentTable α} {p : Nat} (hp : t.places.getLast? = some p) :
    Positional.last t = .nth p := by
  have hmem := List.mem_of_getLast? hp
  refine placeBelow_eq hmem (lt_size_of_mem_places hmem) ?_
  intro s hps _ hs
  have := le_of_last_places hp hs
  omega

/-- The places of a table are a window from its first to its last place. -/
theorem window_places (t : IdentTable α) :
    Window t (Positional.first t) (Positional.last t) t.places t.toList where
  toChain := t.chain_places
  first_eq _ hp := first_eq_nth hp
  last_eq _ hp := last_eq_nth hp
  holds_iff := by
    intro q
    constructor
    · rintro ⟨-, -, hholds⟩
      cases q with
      | before => exact absurd hholds Bool.false_ne_true
      | nth p => exact ⟨p, mem_places.mpr hholds, rfl⟩
    · rintro ⟨p, hp, rfl⟩
      obtain ⟨first, hfirst⟩ : ∃ p, t.places.head? = some p :=
        ⟨_, List.head?_eq_some_head (List.ne_nil_of_mem hp)⟩
      obtain ⟨last, hlast⟩ : ∃ p, t.places.getLast? = some p :=
        ⟨_, List.getLast?_eq_some_getLast (List.ne_nil_of_mem hp)⟩
      rw [first_eq_nth hfirst, last_eq_nth hlast]
      have hle := le_of_head_places hfirst hp
      have hge := le_of_last_places hlast hp
      exact ⟨Nat.succ_le_succ hle, Nat.succ_le_succ hge, mem_places.mp hp⟩
  past_last := by
    intro p hp r hr hnext
    -- after the last place comes the end of the table
    have hpast : Positional.next t (.nth p) = .nth t.size :=
      placeFrom_past fun s hs => Nat.lt_succ_of_le (le_of_last_places hp hs)
    rw [hpast] at hnext
    have hsize := lt_size_of_mem_places hr
    have := Position.nth.inj hnext
    omega
  past_first := by
    intro p hp r hr hprev
    -- before the first place there is no other slot to stand on
    have hsize := lt_size_of_mem_places (List.mem_of_head? hp)
    have hpast : Positional.prev t (.nth p) = .before := by
      change t.placeBelow (min p t.size) = .before
      rw [Nat.min_eq_left (Nat.le_of_lt hsize)]
      exact placeBelow_past fun s hs => le_of_head_places hp hs
    rw [hpast] at hprev
    exact absurd hprev (by simp)

/-! ## Searching -/

/-- The number of the element of an identity in a list. -/
def numberOf (xs : List α) (a : α) : Option Nat :=
  xs.findIdx? fun b => decide (ident b = ident a)

/-- A cursor that is sent to an element goes to the element of its identity. -/
theorem seeks_places {t : IdentTable α} (h : t.WellFormed) :
    Seeks t (Positional.first t) t.places (numberOf t.toList) := by
  intro a
  have hlater : ∀ p ∈ t.places, Position.later (.nth p) (Positional.first t) = .nth p := by
    intro p hp
    obtain ⟨first, hfirst⟩ : ∃ p, t.places.head? = some p :=
      ⟨_, List.head?_eq_some_head (List.ne_nil_of_mem hp)⟩
    rw [first_eq_nth hfirst]
    unfold Position.later
    rcases Nat.lt_or_eq_of_le (le_of_head_places hfirst hp) with hlt | rfl
    · rw [if_neg]
      change ¬ p + 1 ≤ first + 1
      omega
    · rw [if_pos]
      exact Nat.le_refl (first + 1)
  rcases h.probe_cases (ident a) with ⟨hlacks, slot, hprobe⟩ | ⟨slot, b, hprobe, hslot, hid⟩
  · have hnone : numberOf t.toList a = none := by
      unfold numberOf
      rw [List.findIdx?_eq_none_iff]
      intro b hb
      simpa using lacks_iff.mp hlacks b hb
    rw [hnone]
    left
    simp only [Positional.seek, hprobe]
  · have hseek : Positional.seek t a = .nth slot := by
      simp only [Positional.seek, hprobe]
    have hplace : slot ∈ t.places := mem_places.mpr (isOccupied_iff.mpr ⟨b, hslot⟩)
    obtain ⟨i, hi⟩ := List.mem_iff_getElem?.mp hplace
    have hb : t.toList[i]? = some b := by
      rw [← t.chain_places.get?_eq i slot hi]
      exact hslot
    -- an earlier element of that identity would be a second one
    have hnumber : numberOf t.toList a = some i := by
      unfold numberOf
      obtain ⟨hlt, hget⟩ := List.getElem?_eq_some_iff.mp hb
      rw [List.findIdx?_eq_some_iff_getElem]
      refine ⟨hlt, by simp [hget, hid], ?_⟩
      intro j hji
      have hne := List.pairwise_iff_getElem.mp h.toLinked.pairwise_ident_ne j i
        (by omega) hlt hji
      rw [hget, hid] at hne
      simpa using hne
    rw [hnumber]
    refine ⟨slot, hi, by rw [hseek]; simp, ?_⟩
    rw [hseek]
    exact hlater slot hplace

end IdentTable

end SnapshotIndex
