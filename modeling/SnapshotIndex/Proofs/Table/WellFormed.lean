import Mathlib.Data.List.Perm.Basic
import SnapshotIndex.Proofs.Table.Probing

/-!
# The representation of a table

`WellFormed` is what every operation on a table relies on and restores.  Its
last condition, that elements and markers fill at most the load share of the
slots, leaves an empty slot, and that is what a search for a missing identity
needs to end (`WellFormed.probe_cases`).

* `WellFormed.put`: an element goes into a table with room for it.
* `WellFormed.take`: an element leaves.
* `WellFormed.clear`, `WellFormed.emptyLike`, `wellFormed_withLoad`: the ways
  to an empty table.
-/

namespace SnapshotIndex

open Identified (ident)

namespace IdentTable

variable {α : Type} [Identified α]

/-- What holds of every table between two operations. -/
structure WellFormed (t : IdentTable α) : Prop extends Linked t where
  size_pow : t.size.isPowerOfTwo
  initialSize_pow : t.initialSize.isPowerOfTwo
  minSize_le : minSize ≤ t.initialSize
  initialSize_le : t.initialSize ≤ t.size
  load_bounds : 10 ≤ t.load ∧ t.load ≤ 90
  count_eq : t.count = t.toList.length
  markers_eq : t.markers = t.markerCount
  filled : (t.count + t.markers) * 100 ≤ t.limit

/-- Whether one more slot may be filled. -/
def HasRoom (t : IdentTable α) : Prop := (t.count + t.markers + 1) * 100 ≤ t.limit

namespace WellFormed

variable {t : IdentTable α}

theorem sixteen_le_size (h : t.WellFormed) : 16 ≤ t.size :=
  Nat.le_trans h.minSize_le h.initialSize_le

theorem limit_le (h : t.WellFormed) : t.limit ≤ t.size * 90 :=
  Nat.mul_le_mul_left _ h.load_bounds.2

theorem le_limit (h : t.WellFormed) : t.size * 10 ≤ t.limit :=
  Nat.mul_le_mul_left _ h.load_bounds.1

/-- Elements and markers never fill a table. -/
theorem count_add_markers_lt (h : t.WellFormed) : t.count + t.markers < t.size := by
  have hfilled := h.filled
  have hlimit := h.limit_le
  have hsize := h.sixteen_le_size
  omega

theorem exists_empty (h : t.WellFormed) : ∃ i : Nat, t.slots[i]? = some .empty :=
  IdentTable.exists_empty (by
    rw [← h.count_eq, ← h.markers_eq]
    exact h.count_add_markers_lt)

end WellFormed

/-- No two elements of a linked table have the same identity. -/
theorem Linked.pairwise_ident_ne {t : IdentTable α} (h : t.Linked) :
    t.toList.Pairwise fun a b => ident a ≠ ident b := by
  unfold toList
  rw [List.pairwise_filterMap, List.pairwise_iff_getElem]
  intro i j hi hj hij a ha b hb hid
  have hslot : ∀ {k} (hk : k < t.slots.toList.length) {c : α},
      t.slots.toList[k].element? = some c → t.element? k = some c := by
    intro k hk c hc
    have hget : t.slots[k]? = some t.slots.toList[k] := by
      rw [← Array.getElem?_toList, List.getElem?_eq_getElem hk]
    unfold element?
    rw [hget, Option.bind_some]
    exact hc
  have := h.unique i j a b (hslot hi ha) (hslot hj hb) hid
  omega

/-! ## Insertion -/

/-- What `put` does to a table that lacks the element. -/
theorem put_eq {t : IdentTable α} {a : α} {slot : Nat}
    (h : t.probe (ident a) = .vacant slot) :
    t.put a = (true,
      { t with
        slots := t.slots.setIfInBounds slot (.occupied a)
        count := t.count + 1
        markers := if t.isMarker slot then t.markers - 1 else t.markers }) := by
  unfold put
  rw [h]

/-- A marker that is about to be used again is one of those that were counted. -/
theorem WellFormed.markers_pos {t : IdentTable α} (h : t.WellFormed) {i : Nat}
    (hmarker : t.isMarker i) : 0 < t.markers := by
  rw [h.markers_eq, markerCount, List.countP_pos_iff]
  unfold isMarker at hmarker
  cases hslot : t.slots[i]? with
  | none => simp [hslot] at hmarker
  | some slot =>
    rw [← Array.getElem?_toList] at hslot
    refine ⟨slot, List.mem_of_getElem? hslot, ?_⟩
    rw [Array.getElem?_toList] at hslot
    simpa [hslot] using hmarker

/-- A change of the slots that leaves the sizes and the load share alone. -/
theorem WellFormed.of_same_sizes {t u : IdentTable α} (h : t.WellFormed) (hsize : u.size = t.size)
    (hinitial : u.initialSize = t.initialSize) (hload : u.load = t.load) (hlinked : u.Linked)
    (hcount : u.count = u.toList.length) (hmarkers : u.markers = u.markerCount)
    (hfilled : (u.count + u.markers) * 100 ≤ t.limit) : u.WellFormed where
  toLinked := hlinked
  size_pow := hsize ▸ h.size_pow
  initialSize_pow := hinitial ▸ h.initialSize_pow
  minSize_le := hinitial ▸ h.minSize_le
  initialSize_le := by
    rw [hsize, hinitial]
    exact h.initialSize_le
  load_bounds := hload ▸ h.load_bounds
  count_eq := hcount
  markers_eq := hmarkers
  filled := by
    unfold limit
    rw [hsize, hload]
    exact hfilled

/-- An element goes into a table with room for it, if its identity is not
there. -/
theorem WellFormed.put {t : IdentTable α} (h : t.WellFormed) (hroom : t.HasRoom) {a : α}
    (hlacks : t.Lacks (ident a)) :
    (t.put a).1 = true ∧ (t.put a).2.WellFormed ∧ (t.put a).2.toList.Perm (a :: t.toList) := by
  obtain ⟨slot, hprobe, hlanding⟩ := probe_eq_vacant hlacks h.exists_empty
  obtain ⟨hslot, hfree⟩ := Landing.lt (by have := h.sixteen_le_size; omega) hlanding
  obtain ⟨old, hold⟩ := exists_slot hslot
  have hput := put_eq hprobe
  have hwritten : Written t (t.put a).2 slot (.occupied a) := by
    rw [hput]
    exact ⟨rfl, hslot⟩
  have hperm := hwritten.perm_of_occupied hfree
  have hmarkers : (t.put a).2.markers = (t.put a).2.markerCount := by
    have hcount := hwritten.markerCount_add hold
    have hput : (t.put a).2.markers = if old.isMarker then t.markers - 1 else t.markers := by
      rw [hput, ← isMarker_eq hold]
    rw [hput]
    have hkept := h.markers_eq
    simp only [Slot.isMarker_occupied, Bool.false_eq_true, if_false] at hcount
    by_cases hm : old.isMarker
    · have hpos := h.markers_pos (i := slot) (by rwa [isMarker_eq hold])
      rw [if_pos hm] at hcount ⊢
      omega
    · rw [if_neg hm] at hcount ⊢
      omega
  have hcount : (t.put a).2.count = t.count + 1 := by rw [hput]
  refine ⟨by rw [hput], ?_, hperm⟩
  apply h.of_same_sizes hwritten.size_eq
  · rw [hput]
  · rw [hput]
  · exact h.toLinked.fill hlacks hlanding hwritten
  · rw [hcount, hperm.length_eq, List.length_cons, ← h.count_eq]
  · exact hmarkers
  · -- a marker may have been used up, and none has come
    have hle : (t.put a).2.markers ≤ t.markers := by
      rw [hput]
      dsimp only
      split <;> omega
    unfold HasRoom at hroom
    omega

/-! ## Removal -/

/-- Whoever asks for an identity gets its element if it is there. -/
theorem hasIdent_eq_isSome (t : IdentTable α) (id : Ident) :
    t.hasIdent id = (t.get? id).isSome := by
  unfold hasIdent get?
  cases hprobe : t.probe id with
  | found slot =>
    obtain ⟨a, ha, -⟩ := element?_of_probeFrom hprobe
    exact (congrArg Option.isSome ha).symm
  | vacant slot => rfl
  | endless => rfl

theorem take_fst (t : IdentTable α) (id : Ident) : (t.take id).1 = t.get? id := by
  unfold take get?
  split <;> rfl

/-- A removal says whether the identity was there. -/
theorem remove_fst (t : IdentTable α) (a : α) : (t.remove a).1 = t.contains a := by
  change (t.take (ident a)).1.isSome = t.hasIdent (ident a)
  rw [take_fst, hasIdent_eq_isSome]

theorem take_of_found {t : IdentTable α} {id : Ident} {slot : Nat}
    (h : t.probe id = .found slot) :
    t.take id = (t.element? slot,
      { t with
        slots := t.slots.setIfInBounds slot .removed
        count := t.count - 1
        markers := t.markers + 1 }) := by
  unfold take
  rw [h]

/-- A search for an identity that a well-formed table lacks does not find it. -/
theorem WellFormed.probe_of_lacks {t : IdentTable α} (h : t.WellFormed) {id : Ident}
    (hlacks : t.Lacks id) : ∃ slot, t.probe id = .vacant slot := by
  obtain ⟨slot, hprobe, -⟩ := probe_eq_vacant hlacks h.exists_empty
  exact ⟨slot, hprobe⟩

/-- Each identity is either missing or held by exactly one slot, where a search
for it ends. -/
theorem WellFormed.probe_cases {t : IdentTable α} (h : t.WellFormed) (id : Ident) :
    (t.Lacks id ∧ ∃ slot, t.probe id = .vacant slot) ∨
      ∃ slot a, t.probe id = .found slot ∧ t.element? slot = some a ∧ ident a = id := by
  by_cases hlacks : t.Lacks id
  · exact .inl ⟨hlacks, h.probe_of_lacks hlacks⟩
  · unfold Lacks at hlacks
    push Not at hlacks
    obtain ⟨slot, a, hslot, hid⟩ := hlacks
    exact .inr ⟨slot, a, (probe_eq_found_iff h.toLinked).mpr ⟨a, hslot, hid⟩, hslot, hid⟩

/-- Taking an identity leaves a well-formed table without it, and the other
elements in their order. -/
theorem WellFormed.take {t : IdentTable α} (h : t.WellFormed) (id : Ident) :
    (t.take id).2.WellFormed ∧
      (t.take id).2.toList = t.toList.filter (fun a => ident a ≠ id) := by
  rcases h.probe_cases id with ⟨hlacks, slot, hprobe⟩ | ⟨slot, a, hprobe, hslot, rfl⟩
  · have htake : t.take id = (none, t) := by
      unfold IdentTable.take
      rw [hprobe]
    rw [htake]
    refine ⟨h, (List.filter_eq_self.mpr fun a ha => ?_).symm⟩
    simpa using lacks_iff.mp hlacks a ha
  · have htake := take_of_found hprobe
    have hwritten : Written t (t.take (ident a)).2 slot .removed := by
      rw [htake]
      exact ⟨rfl, lt_size_of_element? hslot⟩
    obtain ⟨before, after, ht, hu⟩ := hwritten.toList_of_removed hslot
    have hlength : t.toList.length = (t.take (ident a)).2.toList.length + 1 := by
      simp only [ht, hu, List.length_append, List.length_cons]
      omega
    have hcount : (t.take (ident a)).2.count = t.count - 1 := by rw [htake]
    have hmarkers : (t.take (ident a)).2.markers = t.markers + 1 := by rw [htake]
    have hmarked := hwritten.markerCount_add (element?_eq_some_iff.mp hslot)
    have hfilled := h.filled
    have hcounted := h.count_eq
    have hkept := h.markers_eq
    constructor
    · apply h.of_same_sizes hwritten.size_eq
      · rw [htake]
      · rw [htake]
      · exact h.toLinked.vacate hwritten
      · omega
      · simp only [Slot.isMarker_occupied, Slot.isMarker_removed, Bool.false_eq_true, if_false,
          if_true] at hmarked
        omega
      · -- the slot that is not counted as an element is counted as a marker
        omega
    · have hne := h.toLinked.pairwise_ident_ne
      rw [ht, List.pairwise_append, List.pairwise_cons] at hne
      obtain ⟨-, ⟨hafter, -⟩, hbefore⟩ := hne
      rw [ht, hu, List.filter_append, List.filter_cons_of_neg (by simp)]
      rw [List.filter_eq_self.mpr fun b hb => ?_, List.filter_eq_self.mpr fun b hb => ?_]
      · simpa using (hafter b hb).symm
      · simpa using hbefore b hb a List.mem_cons_self

/-! ## Empty tables -/

/-- A table of empty slots is well formed if its sizes and its load share are
within their bounds. -/
theorem wellFormed_of_emptySlots {t : IdentTable α} {n : Nat} (hslots : t.slots = emptySlots n)
    (hcount : t.count = 0) (hmarkers : t.markers = 0) (hpow : n.isPowerOfTwo)
    (hinitial : t.initialSize.isPowerOfTwo) (hmin : minSize ≤ t.initialSize)
    (hle : t.initialSize ≤ n) (hload : 10 ≤ t.load ∧ t.load ≤ 90) :
    t.WellFormed ∧ t.toList = [] := by
  have hsize : t.size = n := by simp [size, hslots, emptySlots]
  have hnil : t.toList = [] := by
    unfold toList
    rw [hslots]
    exact toList_emptySlots n
  have hnone : t.markerCount = 0 := by
    unfold markerCount
    rw [hslots]
    exact countP_emptySlots n
  refine ⟨⟨linked_of_toList_eq_nil hnil, ?_, hinitial, hmin, ?_, hload, ?_, ?_, ?_⟩, hnil⟩
  · rwa [hsize]
  · rwa [hsize]
  · rw [hcount, hnil, List.length_nil]
  · rw [hmarkers, hnone]
  · rw [hcount, hmarkers]
    exact Nat.zero_le _

theorem WellFormed.clear {t : IdentTable α} (h : t.WellFormed) :
    t.clear.WellFormed ∧ t.clear.toList = [] := by
  have hinitial := h.initialSize_le
  refine wellFormed_of_emptySlots rfl rfl rfl ?_ h.initialSize_pow h.minSize_le ?_ h.load_bounds
  · split
    · exact h.initialSize_pow
    · exact h.size_pow
  · split
    · exact Nat.le_refl _
    · exact hinitial

theorem WellFormed.emptyLike {t : IdentTable α} (h : t.WellFormed) :
    t.emptyLike.WellFormed ∧ t.emptyLike.toList = [] :=
  wellFormed_of_emptySlots rfl rfl rfl h.initialSize_pow h.initialSize_pow h.minSize_le
    (Nat.le_refl _) h.load_bounds

theorem isPowerOfTwo_sizeFor (capacity load : Nat) : (sizeFor capacity load).isPowerOfTwo := by
  unfold sizeFor
  rw [Nat.max_def]
  split
  · exact ⟨_, rfl⟩
  · exact ⟨4, rfl⟩

theorem wellFormed_withLoad (capacity load : Nat) :
    (withLoad capacity load : IdentTable α).WellFormed ∧
      (withLoad capacity load : IdentTable α).toList = [] := by
  have hpow := isPowerOfTwo_sizeFor capacity (clampLoad load)
  have hmin : minSize ≤ sizeFor capacity (clampLoad load) := Nat.le_max_left _ _
  have hload : 10 ≤ clampLoad load ∧ clampLoad load ≤ 90 := by
    unfold clampLoad
    omega
  exact wellFormed_of_emptySlots rfl rfl rfl hpow hpow hmin (Nat.le_refl _) hload

end IdentTable

end SnapshotIndex
