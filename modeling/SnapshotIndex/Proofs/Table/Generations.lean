import SnapshotIndex.Proofs.Table.Rebuild

/-!
# Generations do not matter

The generation of a table is for those who keep slot numbers, and no operation
of the table itself looks at it.  `aged` is the same table so many generations
later.  It gives the same answers, puts the same elements into the same slots,
and stays ahead by as many generations.

* `insert_aged`, `take_aged`, `clear_aged`: the operations of an aged table.
* `WellFormed.emptyLike_eq`: the two ways to drop all elements, in place and
  by an exchange of tables, differ in the generation alone.
-/

namespace SnapshotIndex

open Identified (ident)

namespace IdentTable

variable {α : Type}

/-- The same table, so many generations later. -/
def aged (t : IdentTable α) (n : Nat) : IdentTable α :=
  { t with generation := t.generation + n }

/-- All of a table but its generation. -/
def ageless (t : IdentTable α) : IdentTable α := { t with generation := 0 }

variable (t : IdentTable α) (n : Nat)

@[simp] theorem aged_zero : t.aged 0 = t := rfl

theorem aged_aged (m : Nat) : (t.aged m).aged n = t.aged (m + n) := by
  simp [aged, Nat.add_assoc]

@[simp] theorem slots_aged : (t.aged n).slots = t.slots := rfl

@[simp] theorem size_aged : (t.aged n).size = t.size := rfl

@[simp] theorem toList_aged : (t.aged n).toList = t.toList := rfl

@[simp] theorem count_aged : (t.aged n).count = t.count := rfl

@[simp] theorem isEmpty_aged : (t.aged n).isEmpty = t.isEmpty := rfl

theorem clear_aged : (t.aged n).clear = t.clear.aged n := by
  by_cases hgrown : t.initialSize < t.size
  · simp [clear, aged, size, Nat.add_right_comm, show t.initialSize < t.slots.size from hgrown]
  · simp [clear, aged, size, show ¬ t.initialSize < t.slots.size from hgrown]

theorem emptyLike_aged : (t.aged n).emptyLike = t.emptyLike.aged n := by
  simp [emptyLike, aged, Nat.add_right_comm]

/-! ## Searches -/

theorem vacancyFrom_aged (steps slot : Nat) :
    (t.aged n).vacancyFrom steps slot = t.vacancyFrom steps slot := by
  induction steps generalizing slot with
  | zero => rfl
  | succ steps ih =>
    have hafter : (t.aged n).after slot = t.after slot := rfl
    simp only [vacancyFrom, slots_aged, hafter, ih]

variable [Identified α]

theorem probeFrom_aged (id : Ident) (steps slot : Nat) (marker : Option Nat) :
    (t.aged n).probeFrom id steps slot marker = t.probeFrom id steps slot marker := by
  induction steps generalizing slot marker with
  | zero => rfl
  | succ steps ih =>
    have hafter : (t.aged n).after slot = t.after slot := rfl
    simp only [probeFrom, slots_aged, hafter, ih]

@[simp] theorem probe_aged (id : Ident) : (t.aged n).probe id = t.probe id :=
  t.probeFrom_aged n id _ _ _

@[simp] theorem contains_aged (a : α) : (t.aged n).contains a = t.contains a := by
  simp only [contains, hasIdent, probe_aged]

@[simp] theorem get?_aged (id : Ident) : (t.aged n).get? id = t.get? id := by
  simp only [get?, probe_aged]
  rfl

/-! ## Changes -/

theorem settle_aged (a : α) : (t.aged n).settle a = (t.settle a).aged n := by
  have hhome : (t.aged n).home (ident a) = t.home (ident a) := rfl
  unfold settle
  rw [vacancyFrom_aged, size_aged, hhome]
  split <;> rfl

theorem foldl_settle_aged (as : List α) :
    as.foldl settle (t.aged n) = (as.foldl settle t).aged n := by
  induction as generalizing t with
  | nil => rfl
  | cons a rest ih => rw [List.foldl_cons, settle_aged, ih, List.foldl_cons]

theorem rebuild_aged (newSize : Nat) : (t.aged n).rebuild newSize = (t.rebuild newSize).aged n := by
  have hblank : (t.aged n).blank newSize = (t.blank newSize).aged n := by
    simp [blank, aged, Nat.add_right_comm]
  unfold rebuild
  rw [toList_aged, hblank, foldl_settle_aged]

theorem reserve_aged : (t.aged n).reserve = t.reserve.aged n := by
  have hlimit : (t.aged n).limit = t.limit := rfl
  have hmarkers : (t.aged n).markers = t.markers := rfl
  simp only [reserve, count_aged, size_aged, hlimit, hmarkers, rebuild_aged]
  split
  · rfl
  · split <;> rfl

theorem put_aged (a : α) : (t.aged n).put a = ((t.put a).1, (t.put a).2.aged n) := by
  unfold put
  rw [probe_aged]
  split <;> rfl

theorem insert_aged (a : α) : (t.aged n).insert a = ((t.insert a).1, (t.insert a).2.aged n) := by
  unfold insert
  rw [contains_aged, reserve_aged, put_aged]
  split <;> rfl

theorem take_aged (id : Ident) : (t.aged n).take id = ((t.take id).1, (t.take id).2.aged n) := by
  unfold take
  rw [probe_aged]
  split <;> rfl

theorem remove_aged (a : α) : (t.aged n).remove a = ((t.remove a).1, (t.remove a).2.aged n) := by
  unfold remove
  rw [take_aged]

/-- A table that is exchanged for an empty one is like one that is emptied in
place, except that it may be a generation later. -/
theorem WellFormed.emptyLike_eq {t : IdentTable α} (h : t.WellFormed) :
    ∃ n, t.emptyLike = t.clear.aged n := by
  have hle := h.initialSize_le
  by_cases hgrown : t.initialSize < t.size
  · refine ⟨0, ?_⟩
    simp [IdentTable.emptyLike, IdentTable.clear, hgrown]
  · have hsize : t.size = t.initialSize := by omega
    refine ⟨1, ?_⟩
    simp [IdentTable.emptyLike, IdentTable.clear, aged, hsize]

end IdentTable

end SnapshotIndex
