import Mathlib.Tactic.ByContra
import SnapshotIndex.Store.IdentTable

/-!
# What a table has in its slots

The elements of a table and its removal markers, counted slot by slot, and how
both change when one slot is written.  Every operation on a table writes one
slot at a time, so `Written` describes them all: one slot has a new content,
and whatever else the operation does is of no concern to the elements.
-/

namespace SnapshotIndex

namespace IdentTable

variable {α : Type}

/-- The number of slots that hold a removal marker. -/
def markerCount (t : IdentTable α) : Nat := t.slots.toList.countP Slot.isMarker

/-- `u` has the slots of `t`, but for one slot that was written. -/
structure Written (t u : IdentTable α) (slot : Nat) (new : Slot α) : Prop where
  slots_eq : u.slots = t.slots.setIfInBounds slot new
  slot_lt : slot < t.size

theorem element?_eq_some_iff {t : IdentTable α} {i : Nat} {a : α} :
    t.element? i = some a ↔ t.slots[i]? = some (.occupied a) := by
  unfold element?
  cases h : t.slots[i]? with
  | none => simp
  | some slot => cases slot <;> simp

theorem lt_size_of_element? {t : IdentTable α} {i : Nat} {a : α} (h : t.element? i = some a) :
    i < t.size := by
  obtain ⟨hi, -⟩ := Array.getElem?_eq_some_iff.mp (element?_eq_some_iff.mp h)
  exact hi

theorem isMarker_eq {t : IdentTable α} {i : Nat} {slot : Slot α} (h : t.slots[i]? = some slot) :
    t.isMarker i = slot.isMarker := by
  simp [isMarker, h]

theorem exists_slot {t : IdentTable α} {i : Nat} (hi : i < t.size) :
    ∃ slot, t.slots[i]? = some slot :=
  ⟨_, Array.getElem?_eq_getElem (show i < t.slots.size from hi)⟩

/-- The elements are what the slots hold. -/
theorem mem_toList {t : IdentTable α} {a : α} : a ∈ t.toList ↔ ∃ i, t.element? i = some a := by
  unfold toList
  rw [List.mem_filterMap]
  constructor
  · rintro ⟨slot, hmem, hslot⟩
    obtain ⟨i, hi⟩ := List.mem_iff_getElem?.mp hmem
    rw [Array.getElem?_toList] at hi
    exact ⟨i, by simp [element?, hi, hslot]⟩
  · rintro ⟨i, hi⟩
    have hslot := element?_eq_some_iff.mp hi
    rw [← Array.getElem?_toList] at hslot
    exact ⟨.occupied a, List.mem_of_getElem? hslot, rfl⟩

/-! ## Counting slots -/

/-- Slots of which none is empty hold elements and markers. -/
theorem length_of_no_empty {slots : List (Slot α)} (h : ∀ slot ∈ slots, slot ≠ .empty) :
    slots.length = (slots.filterMap Slot.element?).length + slots.countP Slot.isMarker := by
  induction slots with
  | nil => rfl
  | cons slot rest ih =>
    have hrest := ih fun s hs => h s (List.mem_cons_of_mem _ hs)
    cases slot with
    | empty => exact absurd rfl (h .empty List.mem_cons_self)
    | removed => simp [List.filterMap_cons, List.countP_cons, hrest]; omega
    | occupied a => simp [hrest]; omega

/-- A table with fewer elements and markers than slots has an empty slot. -/
theorem exists_empty {t : IdentTable α} (h : t.toList.length + t.markerCount < t.size) :
    ∃ i : Nat, t.slots[i]? = some .empty := by
  by_contra hnone
  have hlength : t.slots.toList.length = t.toList.length + t.markerCount :=
    length_of_no_empty fun slot hmem hempty => by
      obtain ⟨i, hi⟩ := List.mem_iff_getElem?.mp hmem
      rw [Array.getElem?_toList] at hi
      exact hnone ⟨i, hi.trans (congrArg some hempty)⟩
  rw [Array.length_toList] at hlength
  unfold size at h
  omega

theorem toList_emptySlots (n : Nat) :
    ((emptySlots n : Array (Slot α)).toList.filterMap Slot.element?) = [] := by
  simp [emptySlots, List.filterMap_replicate]

theorem countP_emptySlots (n : Nat) :
    (emptySlots n : Array (Slot α)).toList.countP Slot.isMarker = 0 := by
  simp [emptySlots, List.countP_replicate, Slot.isMarker]

/-! ## Writing one slot -/

namespace Written

variable {t u : IdentTable α} {slot : Nat} {new : Slot α}

theorem size_eq (h : Written t u slot new) : u.size = t.size := by
  simp [size, h.slots_eq]

theorem home_eq (h : Written t u slot new) (id : Ident) : u.home id = t.home id := by
  simp [home, h.size_eq]

theorem slots_self (h : Written t u slot new) : u.slots[slot]? = some new := by
  have hlt : slot < t.slots.size := h.slot_lt
  simp [h.slots_eq, hlt]

theorem slots_of_ne (h : Written t u slot new) {i : Nat} (hi : slot ≠ i) :
    u.slots[i]? = t.slots[i]? := by
  rw [h.slots_eq, Array.getElem?_setIfInBounds_ne hi]

theorem element?_self (h : Written t u slot new) : u.element? slot = new.element? := by
  simp [element?, h.slots_self]

theorem element?_of_ne (h : Written t u slot new) {i : Nat} (hi : slot ≠ i) :
    u.element? i = t.element? i := by
  simp [element?, h.slots_of_ne hi]

/-- The slots before and after the written one stay. -/
theorem split (h : Written t u slot new) {old : Slot α} (hold : t.slots[slot]? = some old) :
    ∃ before after, before.length = slot ∧ t.slots.toList = before ++ old :: after ∧
      u.slots.toList = before ++ new :: after := by
  have hlt : slot < t.slots.toList.length := by simpa [size] using h.slot_lt
  have hget : t.slots.toList[slot] = old := by
    have := List.getElem?_eq_getElem hlt
    rw [Array.getElem?_toList, hold] at this
    exact (Option.some.inj this).symm
  refine ⟨t.slots.toList.take slot, t.slots.toList.drop (slot + 1), ?_, ?_, ?_⟩
  · exact List.length_take_of_le (Nat.le_of_lt hlt)
  · rw [← hget, List.getElem_cons_drop, List.take_append_drop]
  · rw [h.slots_eq, Array.toList_setIfInBounds, List.set_eq_take_append_cons_drop,
      if_pos hlt]

/-- An element that is put into a slot without one joins the others. -/
theorem perm_of_occupied {a : α} (h : Written t u slot (.occupied a))
    (hfree : t.element? slot = none) : u.toList.Perm (a :: t.toList) := by
  obtain ⟨old, hold⟩ := exists_slot h.slot_lt
  obtain ⟨before, after, -, ht, hu⟩ := h.split hold
  have hnone : old.element? = none := by simpa [element?, hold] using hfree
  unfold toList
  rw [ht, hu]
  simp only [List.filterMap_append, List.filterMap_cons, hnone, Slot.element?_occupied]
  exact List.perm_middle

/-- An element whose slot gets a marker leaves the others in their order. -/
theorem toList_of_removed {a : α} (h : Written t u slot .removed)
    (hheld : t.element? slot = some a) :
    ∃ before after, t.toList = before ++ a :: after ∧ u.toList = before ++ after := by
  obtain ⟨before, after, -, ht, hu⟩ := h.split (element?_eq_some_iff.mp hheld)
  refine ⟨before.filterMap Slot.element?, after.filterMap Slot.element?, ?_, ?_⟩
  · simp [toList, ht]
  · simp [toList, hu, List.filterMap_cons]

/-- The markers are those of before, less the one that was written over, and
one more if a marker was written. -/
theorem markerCount_add (h : Written t u slot new) {old : Slot α}
    (hold : t.slots[slot]? = some old) :
    u.markerCount + (if old.isMarker then 1 else 0) =
      t.markerCount + (if new.isMarker then 1 else 0) := by
  obtain ⟨before, after, -, ht, hu⟩ := h.split hold
  simp only [markerCount, ht, hu, List.countP_append, List.countP_cons]
  omega

end Written

end IdentTable

end SnapshotIndex
