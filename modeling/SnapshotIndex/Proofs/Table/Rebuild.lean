import SnapshotIndex.Proofs.Table.WellFormed

/-!
# Moving the elements of a table

A table that is too full moves its elements to other slots, one by one.
`Moved` describes it in the middle of this work: it is linked, it has no
markers, and it holds the elements that have been moved so far.  These are
fewer than the slots, so the loop that looks for an empty one ends for the
next element, too (`Moved.settle`).

* `WellFormed.moved`: every prefix of the elements is moved like this.
* `WellFormed.rebuild`: the result is a well-formed table with the same
  elements.
* `WellFormed.reserve`: after making room there is room, whether the table was
  large enough, was purged of its markers or was doubled.
* `WellFormed.insert`: what an insertion does.
-/

namespace SnapshotIndex

open Identified (ident)

namespace IdentTable

variable {α : Type} [Identified α]

/-- `u` arises from `t` when the elements of `done` have been moved to `newSize`
other slots. -/
structure Moved (t : IdentTable α) (newSize : Nat) (done : List α) (u : IdentTable α) : Prop
    extends Linked u where
  perm : u.toList.Perm done
  no_markers : u.markerCount = 0
  size_eq : u.size = newSize
  rest_eq : u = { t.blank newSize with slots := u.slots }

theorem moved_blank (t : IdentTable α) (newSize : Nat) : Moved t newSize [] (t.blank newSize) := by
  have hnil : (t.blank newSize).toList = [] := toList_emptySlots newSize
  refine ⟨linked_of_toList_eq_nil hnil, ?_, countP_emptySlots newSize, ?_, rfl⟩
  · rw [hnil]
  · simp [size, blank, emptySlots]

theorem settle_eq {t : IdentTable α} {a : α} {slot : Nat}
    (h : t.vacancyFrom t.size (t.home (ident a)) = some slot) :
    t.settle a = { t with slots := t.slots.setIfInBounds slot (.occupied a) } := by
  unfold settle
  rw [h]

/-- The loop for one element ends, because fewer elements than slots were moved
before, and the element joins these. -/
theorem Moved.settle {t u : IdentTable α} {newSize : Nat} {done : List α} {a : α}
    (h : Moved t newSize done u) (hroom : done.length < newSize)
    (hnew : ∀ b ∈ done, ident b ≠ ident a) :
    u.vacancyFrom u.size (u.home (ident a)) ≠ none ∧
      Moved t newSize (done ++ [a]) (u.settle a) := by
  have hsize : u.size = newSize := h.size_eq
  -- without markers there are as many full slots as elements were moved
  obtain ⟨i, hi⟩ : ∃ i : Nat, u.slots[i]? = some .empty := exists_empty (by
    rw [h.perm.length_eq, h.no_markers]
    omega)
  have hlt : i < u.size := (Array.getElem?_eq_some_iff.mp hi).1
  have hd := distance_lt (t := u) (by omega) (ident a) i
  have hempty : u.slots[u.along (ident a) (u.distance (ident a) i)]? = some .empty := by
    rw [along_distance _ hlt, hi]
  obtain ⟨f, -, hfd, hfound, hfempty, hpath⟩ :=
    vacancyFrom_eq_some hempty (Nat.zero_le _) (show _ < 0 + u.size by omega)
  rw [along_zero (by omega)] at hfound
  have hlacks : u.Lacks (ident a) := lacks_iff.mpr fun b hb => hnew b (h.perm.mem_iff.mp hb)
  have hfree : u.element? (u.along (ident a) f) = none := by simp [element?, hfempty]
  have hlanding : u.Landing (ident a) 0 none (u.along (ident a) f) :=
    ⟨f, Nat.zero_le f, by omega, rfl, hfree, hpath⟩
  have hsettle := settle_eq hfound
  have hwritten : Written u (u.settle a) (u.along (ident a) f) (.occupied a) := by
    rw [hsettle]
    exact ⟨rfl, along_lt (by omega) _ f⟩
  refine ⟨by simp [hfound], h.toLinked.fill hlacks hlanding hwritten, ?_, ?_, ?_, ?_⟩
  · exact (hwritten.perm_of_occupied hfree).trans
      ((List.Perm.cons a h.perm).trans (List.perm_append_singleton a done).symm)
  · have hcount := hwritten.markerCount_add hfempty
    have hnone := h.no_markers
    simp only [Slot.isMarker_occupied, Slot.isMarker_empty, Bool.false_eq_true, if_false]
      at hcount
    omega
  · rw [hwritten.size_eq, hsize]
  · rw [hsettle]
    exact congrArg (fun v : IdentTable α =>
      { v with slots := u.slots.setIfInBounds (u.along (ident a) f) (.occupied a) }) h.rest_eq

/-- Elements of different identities are moved one after the other. -/
theorem Moved.foldl {t u : IdentTable α} {newSize : Nat} {done : List α}
    (h : Moved t newSize done u) (rest : List α)
    (hne : (done ++ rest).Pairwise fun a b => ident a ≠ ident b)
    (hroom : (done ++ rest).length ≤ newSize) :
    Moved t newSize (done ++ rest) (rest.foldl IdentTable.settle u) := by
  induction rest generalizing done u with
  | nil => simpa using h
  | cons a rest ih =>
    have hlength : done.length < newSize := by
      simp only [List.length_append, List.length_cons] at hroom
      omega
    have hnew : ∀ b ∈ done, ident b ≠ ident a := fun b hb =>
      (List.pairwise_append.mp hne).2.2 b hb a List.mem_cons_self
    have happend : done ++ a :: rest = done ++ [a] ++ rest := by simp
    obtain ⟨-, hmoved⟩ := h.settle hlength hnew
    rw [happend] at hne hroom ⊢
    exact ih hmoved hne hroom

namespace WellFormed

variable {t : IdentTable α}

theorem length_toList_le (h : t.WellFormed) : t.toList.length ≤ t.size := by
  have hcount := h.count_eq
  have hlt := h.count_add_markers_lt
  omega

/-- In the middle of a rebuild some of the elements, in their order, are in the
new slots. -/
theorem moved (h : t.WellFormed) {newSize : Nat} (hsize : t.size ≤ newSize) {done rest : List α}
    (hsplit : t.toList = done ++ rest) :
    Moved t newSize done (done.foldl settle (t.blank newSize)) := by
  have hne := h.pairwise_ident_ne
  have hlength := h.length_toList_le
  rw [hsplit] at hne hlength
  rw [List.length_append] at hlength
  exact (moved_blank t newSize).foldl done (List.pairwise_append.mp hne).1
    (show done.length ≤ newSize by omega)

/-- The loop that looks for an empty slot in a rebuild ends for every element. -/
theorem vacancyFrom_ne_none (h : t.WellFormed) {newSize : Nat} (hsize : t.size ≤ newSize)
    {done rest : List α} {a : α} (hsplit : t.toList = done ++ a :: rest) :
    let u := done.foldl settle (t.blank newSize)
    u.vacancyFrom newSize (u.home (ident a)) ≠ none := by
  have hne := h.pairwise_ident_ne
  have hlength := h.length_toList_le
  have hmoved := h.moved hsize hsplit
  rw [hsplit] at hne hlength
  rw [List.length_append, List.length_cons] at hlength
  have hends := (hmoved.settle (a := a) (by omega) fun b hb =>
    (List.pairwise_append.mp hne).2.2 b hb a List.mem_cons_self).1
  rwa [hmoved.size_eq] at hends

/-- A rebuild keeps the elements, drops the markers and gives a well-formed
table, if the elements fit the load share. -/
theorem rebuild (h : t.WellFormed) {newSize : Nat} (hsize : t.size ≤ newSize)
    (hpow : newSize.isPowerOfTwo) (hfits : t.count * 100 ≤ newSize * t.load) :
    (t.rebuild newSize).WellFormed ∧ (t.rebuild newSize).toList.Perm t.toList ∧
      t.rebuild newSize = { t.blank newSize with slots := (t.rebuild newSize).slots } ∧
      (t.rebuild newSize).size = newSize := by
  have hmoved : Moved t newSize t.toList (t.rebuild newSize) :=
    h.moved hsize (List.append_nil _).symm
  have hrest := hmoved.rest_eq
  refine ⟨⟨hmoved.toLinked, ?_, ?_, ?_, ?_, ?_, ?_, ?_, ?_⟩, hmoved.perm, hrest, hmoved.size_eq⟩
  · rwa [hmoved.size_eq]
  · rw [hrest]
    exact h.initialSize_pow
  · rw [hrest]
    exact h.minSize_le
  · rw [hmoved.size_eq, hrest]
    exact Nat.le_trans h.initialSize_le hsize
  · rw [hrest]
    exact h.load_bounds
  · rw [hmoved.perm.length_eq, ← h.count_eq, hrest]
    rfl
  · rw [hmoved.no_markers, hrest]
    rfl
  · unfold limit
    rw [hmoved.size_eq, hrest]
    exact hfits

/-- After making room there is room for one more element. -/
theorem reserve (h : t.WellFormed) :
    t.reserve.WellFormed ∧ t.reserve.HasRoom ∧ t.reserve.toList.Perm t.toList ∧
      t.reserve.initialSize = t.initialSize := by
  have hfilled := h.filled
  have hlimit := h.le_limit
  have hsize := h.sixteen_le_size
  -- both ways of rebuilding leave room for the elements alone, and one more
  have hrebuild : ∀ {newSize : Nat}, t.size ≤ newSize → newSize.isPowerOfTwo →
      (t.count + 1) * 100 ≤ newSize * t.load →
      (t.rebuild newSize).WellFormed ∧ (t.rebuild newSize).HasRoom ∧
        (t.rebuild newSize).toList.Perm t.toList ∧
        (t.rebuild newSize).initialSize = t.initialSize := by
    intro newSize hle hpow hfits
    obtain ⟨hwell, hperm, hrest, hnew⟩ := h.rebuild hle hpow (by omega)
    refine ⟨hwell, ?_, hperm, ?_⟩
    · unfold HasRoom limit
      rw [hnew, hrest]
      exact hfits
    · rw [hrest]
      rfl
  unfold IdentTable.reserve
  split
  · rename_i hroom
    exact ⟨h, hroom, List.Perm.refl _, rfl⟩
  · split
    · have hdouble : (2 * t.size).isPowerOfTwo := by
        rw [Nat.mul_comm]
        exact Nat.isPowerOfTwo_mul_two_of_isPowerOfTwo h.size_pow
      refine hrebuild (by omega) hdouble ?_
      rw [Nat.mul_assoc]
      change _ ≤ 2 * t.limit
      omega
    · exact hrebuild (Nat.le_refl _) h.size_pow (show _ ≤ t.limit by omega)

theorem contains_iff (h : t.WellFormed) (a : α) :
    t.contains a = true ↔ ∃ b ∈ t.toList, ident b = ident a := by
  unfold contains hasIdent
  rcases h.probe_cases (ident a) with ⟨hlacks, slot, hprobe⟩ | ⟨slot, b, hprobe, hslot, hid⟩
  · rw [hprobe]
    simpa using lacks_iff.mp hlacks
  · rw [hprobe]
    simpa using ⟨b, mem_toList.mpr ⟨slot, hslot⟩, hid⟩

/-- An insertion adds the element if its identity is not there, and else leaves
the table as it is. -/
theorem insert (h : t.WellFormed) (a : α) :
    (t.insert a).2.WellFormed ∧ (t.insert a).2.initialSize = t.initialSize ∧
      (t.insert a).1 = !t.contains a ∧
      (t.insert a).2.toList.Perm (if t.contains a then t.toList else a :: t.toList) := by
  unfold IdentTable.insert
  by_cases hheld : t.contains a
  · simp only [hheld, if_true]
    exact ⟨h, trivial, rfl, List.Perm.refl _⟩
  · simp only [hheld, if_false, Bool.false_eq_true]
    obtain ⟨hwell, hroom, hperm, hinitial⟩ := h.reserve
    have hlacks : t.reserve.Lacks (ident a) := lacks_iff.mpr fun b hb hid =>
      hheld ((h.contains_iff a).mpr ⟨b, hperm.mem_iff.mp hb, hid⟩)
    obtain ⟨hdone, hput, hmore⟩ := hwell.put hroom hlacks
    obtain ⟨slot, hprobe⟩ := hwell.probe_of_lacks hlacks
    refine ⟨hput, ?_, by simpa [hheld] using hdone, hmore.trans (List.Perm.cons a hperm)⟩
    rw [put_eq hprobe]
    exact hinitial

end WellFormed

end IdentTable

end SnapshotIndex
