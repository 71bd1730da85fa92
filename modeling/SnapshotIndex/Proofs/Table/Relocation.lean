import SnapshotIndex.Proofs.Table.Rebuild

/-!
# When the elements of a table move

An element stays in its slot until it is removed or the table is rebuilt or
emptied.  An insertion rebuilds a table that it finds crowded, and else writes
into a slot without an element (`WellFormed.element?_insert`); a removal writes
into the slot of the element that it removes (`WellFormed.element?_take`).

The generation counts all occasions on which the elements may have moved, and
nothing else (`generation_insert`, `generation_take`, `generation_clear`).
-/

namespace SnapshotIndex

open Identified (ident)

namespace IdentTable

variable {α : Type} [Identified α]

/-- Whether an element is new and the table has to be rebuilt to make room for
it. -/
def crowdedBy (t : IdentTable α) (a : α) : Bool :=
  !t.contains a && decide (t.limit < (t.count + t.markers + 1) * 100)

/-! ## Generations -/

theorem generation_settle (t : IdentTable α) (a : α) : (t.settle a).generation = t.generation := by
  unfold settle
  split <;> rfl

/-- However many elements are moved, a rebuild counts once. -/
theorem generation_rebuild (t : IdentTable α) (newSize : Nat) :
    (t.rebuild newSize).generation = t.generation + 1 := by
  have hsettle : ∀ (as : List α) (u : IdentTable α),
      (as.foldl settle u).generation = u.generation := by
    intro as
    induction as with
    | nil => exact fun u => rfl
    | cons a as ih => exact fun u => (ih (u.settle a)).trans (u.generation_settle a)
  exact hsettle t.toList (t.blank newSize)

theorem generation_reserve (t : IdentTable α) :
    t.reserve.generation =
      t.generation + (decide (t.limit < (t.count + t.markers + 1) * 100)).toNat := by
  unfold reserve
  split
  · rename_i hroom
    rw [decide_eq_false (Nat.not_lt.mpr hroom)]
    rfl
  · rename_i hfull
    rw [decide_eq_true (Nat.lt_of_not_le hfull)]
    split <;> exact t.generation_rebuild _

theorem generation_put (t : IdentTable α) (a : α) : (t.put a).2.generation = t.generation := by
  unfold put
  split <;> rfl

theorem generation_insert (t : IdentTable α) (a : α) :
    (t.insert a).2.generation = t.generation + (t.crowdedBy a).toNat := by
  unfold insert crowdedBy
  split
  · rename_i hheld
    rw [hheld]
    rfl
  · rename_i hnew
    rw [Bool.eq_false_iff.mpr hnew, generation_put, generation_reserve]
    rfl

theorem generation_take (t : IdentTable α) (id : Ident) :
    (t.take id).2.generation = t.generation := by
  unfold take
  split <;> rfl

omit [Identified α] in
/-- Emptying a table that has grown gives it fewer slots. -/
theorem generation_clear (t : IdentTable α) :
    t.clear.generation = t.generation + (decide (t.initialSize < t.size)).toNat := by
  unfold clear
  by_cases hgrown : t.initialSize < t.size
  · simp only [if_pos hgrown, decide_eq_true hgrown, Bool.toNat_true]
  · simp only [if_neg hgrown, decide_eq_false hgrown, Bool.toNat_false, Nat.add_zero]

/-! ## Sizes -/

/-- A table with room for a new element is not rebuilt for it. -/
theorem reserve_eq_self {t : IdentTable α} {a : α} (hnew : ¬ t.contains a = true)
    (hroom : t.crowdedBy a = false) : t.reserve = t := by
  rw [crowdedBy, Bool.eq_false_iff.mpr hnew, Bool.not_false, Bool.true_and,
    decide_eq_false_iff_not, Nat.not_lt] at hroom
  exact if_pos hroom

theorem size_insert {t : IdentTable α} {a : α} (hroom : t.crowdedBy a = false) :
    (t.insert a).2.size = t.size := by
  unfold insert
  split
  · rfl
  · rename_i hnew
    rw [reserve_eq_self hnew hroom]
    unfold put
    split
    · exact Array.size_setIfInBounds
    · rfl

theorem size_take (t : IdentTable α) (id : Ident) : (t.take id).2.size = t.size := by
  unfold take
  split
  · exact Array.size_setIfInBounds
  · rfl

omit [Identified α] in
/-- A table that has not grown is emptied slot by slot. -/
theorem size_clear {t : IdentTable α} (hgrown : ¬ t.initialSize < t.size) :
    t.clear.size = t.size := by
  change (emptySlots (α := α) (if t.initialSize < t.size then t.initialSize else t.size)).size = _
  rw [if_neg hgrown]
  exact Array.size_replicate

/-! ## Slots -/

namespace WellFormed

variable {t : IdentTable α} {i : Nat} {x : α}

/-- An insertion into a table with room for it leaves the other elements where
they are. -/
theorem element?_insert (h : t.WellFormed) {a : α} (hroom : t.crowdedBy a = false)
    (hx : t.element? i = some x) : (t.insert a).2.element? i = some x := by
  unfold IdentTable.insert
  by_cases hheld : t.contains a = true
  · rw [if_pos hheld]
    exact hx
  · have hstays : t.reserve = t := reserve_eq_self hheld hroom
    have hlacks : t.Lacks (ident a) := lacks_iff.mpr fun b hb hid =>
      hheld ((h.contains_iff a).mpr ⟨b, hb, hid⟩)
    obtain ⟨slot, hprobe, hlanding⟩ := probe_eq_vacant hlacks h.exists_empty
    obtain ⟨hslot, hfree⟩ := Landing.lt (by have := h.sixteen_le_size; omega) hlanding
    have hwritten : Written t (t.put a).2 slot (.occupied a) := by
      rw [put_eq hprobe]
      exact ⟨rfl, hslot⟩
    -- the slot that is written holds no element, so it is not the one of `x`
    have hother : slot ≠ i := by
      rintro rfl
      exact absurd (hx.symm.trans hfree) (Option.some_ne_none x)
    rw [if_neg hheld, hstays, hwritten.element?_of_ne hother]
    exact hx

/-- A removal leaves all other elements where they are. -/
theorem element?_take (h : t.WellFormed) {id : Ident} (hne : ident x ≠ id)
    (hx : t.element? i = some x) : (t.take id).2.element? i = some x := by
  rcases h.probe_cases id with ⟨-, slot, hprobe⟩ | ⟨slot, a, hprobe, hslot, rfl⟩
  · unfold IdentTable.take
    rw [hprobe]
    exact hx
  · have hwritten : Written t (t.take (ident a)).2 slot .removed := by
      rw [take_of_found hprobe]
      exact ⟨rfl, lt_size_of_element? hslot⟩
    have hother : slot ≠ i := by
      rintro rfl
      exact hne (congrArg ident (Option.some.inj (hx.symm.trans hslot)))
    rw [hwritten.element?_of_ne hother]
    exact hx

end WellFormed

end IdentTable

end SnapshotIndex
