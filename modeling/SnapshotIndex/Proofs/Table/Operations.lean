import SnapshotIndex.Proofs.Run
import SnapshotIndex.Proofs.Table.Rebuild

/-!
# Tables that can be reached

A table is made for a capacity and a load share, and from then on changes by
the five operations of `TableOp`.  `WellFormed.perform` says that each of them
keeps a table well formed, and `representation_of_run` collects what this
means for every table that can be reached: how its sizes and counts fit
together, and that none of its loops runs on for ever.

* **Searches.**  A search ends within as many steps as there are slots, and
  more steps would not change where it ends (`probeFrom_of_le`).
* **Rebuilding.**  For each element that is moved, the loop that looks for an
  empty slot ends within as many steps as there are new slots.
* **Counts.**  The counts of elements and of markers are positive whenever one
  is subtracted.
-/

namespace SnapshotIndex

open Identified (ident)

/-- The operations that change a table. -/
inductive TableOp (α : Type)
  | insert (a : α)
  | remove (a : α)
  | take (id : Ident)
  | clear
  /-- The table is replaced by an empty one like it. -/
  | replace

/-- What an operation on a table answers. -/
inductive TableAnswer (α : Type)
  /-- Whether the table has changed. -/
  | changed (yes : Bool)
  /-- The element that was taken. -/
  | taken (a : Option α)
  | silent

namespace IdentTable

variable {α : Type} [Identified α]

/-- Carries out one operation. -/
def perform (t : IdentTable α) : TableOp α → TableAnswer α × IdentTable α
  | .insert a => (.changed (t.insert a).1, (t.insert a).2)
  | .remove a => (.changed (t.remove a).1, (t.remove a).2)
  | .take id => (.taken (t.take id).1, (t.take id).2)
  | .clear => (.silent, t.clear)
  | .replace => (.silent, t.emptyLike)

/-! ## What one operation keeps -/

theorem take_initialSize (t : IdentTable α) (id : Ident) :
    (t.take id).2.initialSize = t.initialSize := by
  unfold take
  split <;> rfl

/-- Every operation keeps a table well formed, and its initial size. -/
theorem WellFormed.perform {t : IdentTable α} (h : t.WellFormed) (op : TableOp α) :
    (t.perform op).2.WellFormed ∧ (t.perform op).2.initialSize = t.initialSize := by
  cases op with
  | insert a =>
    obtain ⟨hwell, hinitial, -⟩ := h.insert a
    exact ⟨hwell, hinitial⟩
  | remove a => exact ⟨(h.take (ident a)).1, take_initialSize t (ident a)⟩
  | take id => exact ⟨(h.take id).1, take_initialSize t id⟩
  | clear => exact ⟨h.clear.1, rfl⟩
  | replace => exact ⟨h.emptyLike.1, rfl⟩

/-- Every table that can be reached is well formed and has its initial size. -/
theorem wellFormed_of_run (capacity load : Nat) (ops : List (TableOp α)) :
    let start : IdentTable α := withLoad capacity load
    let t := (runAll perform start ops).2
    t.WellFormed ∧ t.initialSize = start.size := by
  intro start t
  have hstart : start.WellFormed ∧ start.initialSize = start.size :=
    ⟨(wellFormed_withLoad capacity load).1, by simp [start, withLoad, size, emptySlots]⟩
  let Inv (u : IdentTable α) : Prop := u.WellFormed ∧ u.initialSize = start.size
  have hstep : ∀ u op, Inv u → Inv (perform u op).2 := by
    intro u op hu
    obtain ⟨hwell, hinitial⟩ := hu.1.perform op
    exact ⟨hwell, hinitial.trans hu.2⟩
  exact runAll_invariant hstep hstart ops

/-! ## Loops that end -/

/-- The size is a power of two, so the remainders are the low bits. -/
theorem WellFormed.home_eq_mask {t : IdentTable α} (h : t.WellFormed) (id : Ident) :
    t.home id = id.raw.toNat &&& (t.size - 1) := by
  obtain ⟨k, hk⟩ := h.size_pow
  unfold home
  rw [hk, Nat.and_two_pow_sub_one_eq_mod]

theorem WellFormed.after_eq_mask {t : IdentTable α} (h : t.WellFormed) (slot : Nat) :
    t.after slot = (slot + 1) &&& (t.size - 1) := by
  obtain ⟨k, hk⟩ := h.size_pow
  unfold after
  rw [hk, Nat.and_two_pow_sub_one_eq_mod]

/-- A search that ends within some number of steps ends in the same way within
any greater number. -/
theorem probeFrom_of_le {t : IdentTable α} {id : Ident} {steps more slot : Nat}
    {marker : Option Nat} (hends : t.probeFrom id steps slot marker ≠ .endless)
    (hle : steps ≤ more) :
    t.probeFrom id more slot marker = t.probeFrom id steps slot marker := by
  induction steps generalizing more slot marker with
  | zero => exact absurd rfl hends
  | succ steps ih =>
    obtain ⟨more, rfl⟩ : ∃ n, more = n + 1 := ⟨more - 1, by omega⟩
    have hle' : steps ≤ more := by omega
    unfold probeFrom at hends ⊢
    split at hends
    · rfl
    · rfl
    · exact ih hends hle'
    · split
      · rfl
      · rename_i hid
        rw [if_neg hid] at hends
        exact ih hends hle'

/-- Every search in a well-formed table ends. -/
theorem WellFormed.probe_ne_endless {t : IdentTable α} (h : t.WellFormed) (id : Ident) :
    t.probe id ≠ .endless := by
  rcases h.probe_cases id with ⟨-, slot, hprobe⟩ | ⟨slot, a, hprobe, -, -⟩ <;> simp [hprobe]

theorem WellFormed.count_pos {t : IdentTable α} (h : t.WellFormed) {id : Ident} {slot : Nat}
    (hfound : t.probe id = .found slot) : 0 < t.count := by
  obtain ⟨a, ha, -⟩ := (probe_eq_found_iff h.toLinked).mp hfound
  rw [h.count_eq]
  exact List.length_pos_of_mem (mem_toList.mpr ⟨slot, ha⟩)

/-- What holds of every table that can be reached by any operations from an
empty table for any capacity and load share: its representation, an empty
slot, steps that can be taken by masking, the ends of the loops, and the counts
from which one is subtracted. -/
theorem representation_of_run (capacity load : Nat) (ops : List (TableOp α)) :
    let start : IdentTable α := withLoad capacity load
    let t := (runAll perform start ops).2
    t.WellFormed ∧ t.initialSize = start.size ∧ (∃ i : Nat, t.slots[i]? = some .empty) ∧
      (∀ id, t.home id = id.raw.toNat &&& (t.size - 1)) ∧
      (∀ slot, t.after slot = (slot + 1) &&& (t.size - 1)) ∧
      (∀ id, t.probe id ≠ .endless ∧
        ∀ steps, t.size ≤ steps → t.probeFrom id steps (t.home id) none = t.probe id) ∧
      (∀ newSize, t.size ≤ newSize → ∀ done a rest, t.toList = done ++ a :: rest →
        let u := done.foldl settle (t.blank newSize)
        u.vacancyFrom newSize (u.home (ident a)) ≠ none) ∧
      (∀ id slot, t.probe id = .found slot → 0 < t.count) ∧
      (∀ (a : α) (slot : Nat), t.reserve.probe (ident a) = .vacant slot → t.reserve.isMarker slot →
        0 < t.reserve.markers) := by
  intro start t
  obtain ⟨hwell, hinitial⟩ := wellFormed_of_run capacity load ops
  refine ⟨hwell, hinitial, hwell.exists_empty, hwell.home_eq_mask,
    hwell.after_eq_mask, fun id => ?_, ?_, ?_, ?_⟩
  · have hends := hwell.probe_ne_endless id
    exact ⟨hends, fun steps hle => probeFrom_of_le hends hle⟩
  · intro newSize hsize done a rest hsplit
    exact hwell.vacancyFrom_ne_none hsize hsplit
  · intro id slot hfound
    exact hwell.count_pos hfound
  · intro a slot _ hmarker
    exact hwell.reserve.1.markers_pos hmarker

end IdentTable

end SnapshotIndex
