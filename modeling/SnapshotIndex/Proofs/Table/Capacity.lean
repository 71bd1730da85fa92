import SnapshotIndex.Proofs.Table.Growth

/-!
# What a table has room for

A table is made for a capacity, and so many elements should go into it without a
rebuild.  The size is found by a division and rounded up to a power of two, and
when an insertion asks for room, it compares products.  `capacity_lt_limit` says
that nothing is lost by the rounding: the load share of an empty table exceeds
the capacity by itself, at every load.

Removals do not give room back, because of their markers.  Nor do they take any:
of the slots in use there are never more than there were insertions
(`WellFormed.unrebuilt_of_room`).  So it is the insertions that are counted, and
not the elements that the table holds at one time.

* `KeepsSlots`: that a table is not rebuilt, and that its elements stay in place.
* `MadeFor`: an empty table, which has room for the capacity it was made for.
-/

namespace SnapshotIndex

open Identified (ident)

/-- Whether an operation removes an element that is there. -/
def TableOp.Removes {α : Type} [Identified α] (x : α) : TableOp α → Prop
  | insert _ => False
  | remove a => ident a = ident x
  | take id => id = ident x
  | clear | replace => True

namespace IdentTable

variable {α : Type}

/-! ## Sizes -/

/-- The load share of the slots exceeds the capacity that they were made for. -/
theorem capacity_lt_limit (capacity : Nat) {load : Nat} (hload : 0 < load) :
    capacity * 100 < sizeFor capacity load * load := by
  have hdivided : capacity * 100 < (capacity * 100 / load + 1) * load :=
    Nat.lt_mul_of_div_lt (Nat.lt_succ_self _) hload
  have hrounded : capacity * 100 / load + 1 ≤ 2 ^ ((capacity * 100 / load).log2 + 1) :=
    Nat.lt_log2_self
  calc capacity * 100
      < (capacity * 100 / load + 1) * load := hdivided
    _ ≤ 2 ^ ((capacity * 100 / load).log2 + 1) * load := Nat.mul_le_mul_right _ hrounded
    _ ≤ sizeFor capacity load * load := Nat.mul_le_mul_right _ (Nat.le_max_right _ _)

variable [Identified α] {t : IdentTable α} {ops : List (TableOp α)}

/-! ## Runs without a rebuild -/

/-- What a table keeps in the course of a run. -/
structure KeepsSlots (t : IdentTable α) (ops : List (TableOp α)) : Prop where
  /-- No insertion rebuilds it. -/
  unrebuilt : t.rebuildCount ops = 0
  /-- It has the same number of slots and is of the same generation all the time. -/
  same : ∀ done, done <+: ops →
    (runAll perform t done).2.size = t.size ∧
      (runAll perform t done).2.generation = t.generation
  /-- An element that is in a slot at some moment is in this slot until it is
  removed. -/
  stays : ∀ done later, done ++ later <+: ops → ∀ i x,
    (runAll perform t done).2.element? i = some x → (∀ op ∈ later, ¬ op.Removes x) →
      (runAll perform t (done ++ later)).2.element? i = some x

/-- An element stays in its slot as long as it is not removed and the table is not
rebuilt. -/
theorem WellFormed.element?_run (h : t.WellFormed) {i : Nat} {x : α}
    (hx : t.element? i = some x) (hkept : ∀ op ∈ ops, ¬ op.Removes x)
    (hstays : t.rebuildCount ops = 0) :
    (runAll IdentTable.perform t ops).2.element? i = some x := by
  induction ops generalizing t with
  | nil => exact hx
  | cons op ops ih =>
    rw [rebuildCount, occasions_cons] at hstays
    obtain ⟨hhere, hlater⟩ := Nat.add_eq_zero_iff.mp hstays
    have hnow := hkept op List.mem_cons_self
    have hstep : (t.perform op).2.element? i = some x := by
      cases op with
      | insert a =>
        exact h.element?_insert (t.rebuilds_insert a ▸ Bool.toNat_eq_zero.mp hhere) hx
      | remove a => exact h.element?_take (Ne.symm hnow) hx
      | take id => exact h.element?_take (Ne.symm hnow) hx
      | clear => exact absurd trivial hnow
      | replace => exact absurd trivial hnow
    have hrest : ∀ op' ∈ ops, ¬ op'.Removes x :=
      fun op' hmem => hkept op' (List.mem_cons_of_mem op hmem)
    exact ih (h.perform op).1 hstep hrest hlater

theorem WellFormed.keepsSlots_of_unrebuilt (h : t.WellFormed) (hsingle : ∀ op ∈ ops, op.Single)
    (hstays : t.rebuildCount ops = 0) : t.KeepsSlots ops := by
  refine ⟨hstays, ?_, ?_⟩
  · rintro done ⟨rest, rfl⟩
    rw [rebuildCount, occasions_append] at hstays
    have hrun := h.unrebuilt_run (fun op hmem => hsingle op (List.mem_append_left rest hmem))
      (Nat.add_eq_zero_iff.mp hstays).1
    exact ⟨hrun.size_eq, hrun.generation_eq⟩
  · rintro done later ⟨rest, rfl⟩ i x hx hkept
    rw [List.append_assoc, rebuildCount, occasions_append, occasions_append] at hstays
    rw [runAll_append_snd]
    exact (h.run done).element?_run hx hkept
      (Nat.add_eq_zero_iff.mp (Nat.add_eq_zero_iff.mp hstays).2).1

/-- There is no rebuild in a run whose insertions do not fill the load share, even
if none of them used a marker again. -/
theorem WellFormed.unrebuilt_of_room (h : t.WellFormed) (hsingle : ∀ op ∈ ops, op.Single)
    (hroom : (t.used + t.additions ops) * 100 ≤ t.limit) : t.rebuildCount ops = 0 := by
  induction ops generalizing t with
  | nil => rfl
  | cons op ops ih =>
    rw [additions, occasions_cons] at hroom
    have hhere : t.rebuilds op = false := by
      rw [Bool.eq_false_iff]
      intro hrebuilds
      obtain ⟨a, rfl, hnew, hfull⟩ := rebuilds_eq_true_iff.mp hrebuilds
      obtain ⟨hadded, -⟩ := h.entered hnew
      rw [adds, hadded, Bool.toNat_true] at hroom
      have hover : t.limit < (t.used + 1) * 100 := Nat.lt_of_not_le hfull
      omega
    have hstep := h.unrebuilt_perform (hsingle op List.mem_cons_self) hhere
    rw [rebuildCount, occasions_cons, hhere, Bool.toNat_false, Nat.zero_add]
    refine ih (h.perform op).1 (fun op' hmem => hsingle op' (List.mem_cons_of_mem op hmem)) ?_
    have hlimit : (t.perform op).2.limit = t.limit := by
      rw [limit, limit, hstep.size_eq, hstep.load_eq]
    -- a slot that the operation uses was counted among those of the whole run
    have hspent : (t.perform op).2.used + (t.perform op).2.additions ops ≤
        t.used + ((t.adds op).toNat + (t.perform op).2.additions ops) := by
      rw [← Nat.add_assoc]
      exact Nat.add_le_add_right hstep.used_le _
    calc ((t.perform op).2.used + (t.perform op).2.additions ops) * 100
        ≤ (t.used + ((t.adds op).toNat + (t.perform op).2.additions ops)) * 100 :=
          Nat.mul_le_mul_right _ hspent
      _ ≤ t.limit := hroom
      _ = (t.perform op).2.limit := hlimit.symm

/-! ## Empty tables -/

/-- A table without elements and markers that was made for a capacity. -/
structure MadeFor (t : IdentTable α) (capacity : Nat) : Prop extends WellFormed t where
  unused : t.used = 0
  capacity_le : capacity * 100 ≤ t.limit

/-- A table that was made for a capacity has room for so many insertions. -/
theorem MadeFor.unrebuilt {capacity : Nat} (h : t.MadeFor capacity)
    (hsingle : ∀ op ∈ ops, op.Single) (hfew : t.additions ops ≤ capacity) :
    t.rebuildCount ops = 0 := by
  have hcapacity := h.capacity_le
  have hunused := h.unused
  exact h.unrebuilt_of_room hsingle (by omega)

theorem madeFor_withLoad (capacity load : Nat) :
    (withLoad capacity load : IdentTable α).MadeFor capacity := by
  obtain ⟨hwell, -⟩ := wellFormed_withLoad (α := α) capacity load
  refine ⟨hwell, rfl, ?_⟩
  rw [limit, size_withLoad]
  exact Nat.le_of_lt (capacity_lt_limit capacity (by unfold clampLoad; omega))

/-- However a table is emptied, it is again what it was made for. -/
theorem madeFor_emptied (capacity load : Nat) (history : List (TableOp α)) :
    let t := (runAll perform (withLoad capacity load : IdentTable α) history).2
    t.clear.MadeFor capacity ∧ t.emptyLike.MadeFor capacity := by
  intro t
  obtain ⟨hwell, hinitial⟩ := wellFormed_of_run (α := α) capacity load history
  have hload : t.load = clampLoad load := load_of_run capacity load history
  have hfresh := (madeFor_withLoad (α := α) capacity load).capacity_le
  have hlimit : ∀ u : IdentTable α, u.size = t.initialSize → u.load = t.load →
      capacity * 100 ≤ u.limit := by
    intro u hsize hsame
    rw [limit, hsize, hsame, hload, hinitial]
    exact hfresh
  exact ⟨⟨hwell.clear.1, rfl, hlimit _ hwell.size_emptied.1 rfl⟩,
    ⟨hwell.emptyLike.1, rfl, hlimit _ hwell.size_emptied.2 rfl⟩⟩

end IdentTable

end SnapshotIndex
