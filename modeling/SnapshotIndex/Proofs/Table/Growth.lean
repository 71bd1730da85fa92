import Mathlib.Algebra.Group.Nat.Defs
import SnapshotIndex.Element.Record
import SnapshotIndex.Proofs.Table.Rebuilds

/-!
# How large a table gets

A table grows by doubling and goes back to its initial size when it is emptied;
removals do not make it smaller.  So its size may be out of proportion to the
elements that it holds now, and the right measure is the largest number that it
has held.

The obstacle are the markers.  They fill slots as elements do, and a run that
keeps inserting and removing makes as many of them as it likes.  But they do not
count when a rebuild decides on the new size: a table is doubled only if the
elements alone fill more than half the load share, one more included, and this
one is in the table right afterwards (`Proportionate.insert`).

* `Proportionate.run`: the size against any bound on the number of elements.
* `peak_le_iff`: the largest number of elements in the course of a run.
* `size_bounded_by_peak`: every table that can be reached.
-/

namespace SnapshotIndex

open Identified (ident)

namespace IdentTable

variable {α : Type}

theorem size_withLoad (capacity load : Nat) :
    (withLoad capacity load : IdentTable α).size = sizeFor capacity (clampLoad load) :=
  Array.size_replicate

/-- A table that is emptied in place has as many slots as one that takes its
place. -/
theorem WellFormed.slots_clear [Identified α] {t : IdentTable α} (h : t.WellFormed) :
    t.clear.slots = emptySlots t.initialSize := by
  have hle := h.initialSize_le
  change emptySlots (if t.initialSize < t.size then t.initialSize else t.size) = _
  split
  · rfl
  · rw [show t.size = t.initialSize by omega]

/-- A table without elements has its initial size. -/
theorem WellFormed.size_emptied [Identified α] {t : IdentTable α} (h : t.WellFormed) :
    t.clear.size = t.initialSize ∧ t.emptyLike.size = t.initialSize :=
  ⟨by rw [size, h.slots_clear, emptySlots, Array.size_replicate], Array.size_replicate⟩

/-- The size of a table that has never held more than `peak` elements. -/
structure Proportionate (t : IdentTable α) (peak : Nat) : Prop where
  doubled : ∃ k, t.size = t.initialSize * 2 ^ k
  bounded : t.size = t.initialSize ∨ t.size * t.load < 400 * peak

namespace Proportionate

variable {t u : IdentTable α} {peak : Nat}

theorem of_initialSize (hsize : t.size = t.initialSize) : t.Proportionate peak :=
  ⟨⟨0, by rw [hsize, Nat.pow_zero, Nat.mul_one]⟩, .inl hsize⟩

theorem of_same (h : t.Proportionate peak) (hsize : u.size = t.size)
    (hinitial : u.initialSize = t.initialSize) (hload : u.load = t.load) :
    u.Proportionate peak := by
  obtain ⟨hdoubled, hbounded⟩ := h
  refine ⟨?_, ?_⟩
  · rwa [hsize, hinitial]
  · rwa [hsize, hinitial, hload]

variable [Identified α]

/-- An insertion that doubles a table leaves more than a quarter of the load share
to the elements. -/
theorem insert (h : t.Proportionate peak) (hwell : t.WellFormed) {a : α}
    (hpeak : (t.insert a).2.count ≤ peak) : (t.insert a).2.Proportionate peak := by
  cases hheld : t.contains a with
  | true =>
    have hsame : t.insert a = (false, t) := if_pos hheld
    rw [hsame]
    exact h
  | false =>
    obtain ⟨-, hinitial, -⟩ := hwell.insert a
    obtain ⟨-, hcount, hload, hentered⟩ := hwell.entered hheld
    cases hentered with
    | fits _ hsize => exact h.of_same hsize hinitial hload
    | purged _ _ hsize => exact h.of_same hsize hinitial hload
    | doubled _ hmany hsize =>
      obtain ⟨k, hk⟩ := h.doubled
      refine ⟨⟨k + 1, ?_⟩, .inr ?_⟩
      · rw [hsize, hinitial, hk, Nat.pow_succ, ← Nat.mul_assoc t.initialSize, Nat.mul_comm 2]
      · calc (t.insert a).2.size * (t.insert a).2.load
            = 2 * t.limit := by rw [hsize, hload, limit, Nat.mul_assoc]
          _ < 400 * (t.insert a).2.count := by omega
          _ ≤ 400 * peak := Nat.mul_le_mul_left _ hpeak

theorem perform (h : t.Proportionate peak) (hwell : t.WellFormed) {op : TableOp α}
    (hpeak : (t.perform op).2.count ≤ peak) : (t.perform op).2.Proportionate peak := by
  have htake : ∀ id, (t.take id).2.Proportionate peak := fun id =>
    h.of_same (t.size_take id) (t.take_initialSize id) (hwell.unrebuilt_take id).load_eq
  cases op with
  | insert a => exact h.insert hwell hpeak
  | remove a => exact htake (ident a)
  | take id => exact htake id
  | clear => exact of_initialSize hwell.size_emptied.1
  | replace => exact of_initialSize hwell.size_emptied.2

/-- Whatever bounds the number of elements bounds the size of the table. -/
theorem run (h : t.Proportionate peak) (hwell : t.WellFormed) {ops : List (TableOp α)}
    (hpeak : ∀ done, done <+: ops → (runAll IdentTable.perform t done).2.count ≤ peak) :
    (runAll IdentTable.perform t ops).2.Proportionate peak := by
  induction ops generalizing t with
  | nil => exact h
  | cons op ops ih =>
    have hnow := hpeak [op] (List.prefix_append [op] ops)
    exact ih (h.perform hwell hnow) (hwell.perform op).1 fun done hdone =>
      hpeak (op :: done) ((List.prefix_cons_inj op).mpr hdone)

end Proportionate

variable [Identified α] {t : IdentTable α}

/-- The largest number of elements that a table holds in the course of a run. -/
def peak (t : IdentTable α) : List (TableOp α) → Nat
  | [] => t.count
  | op :: ops => max t.count ((t.perform op).2.peak ops)

theorem peak_le_iff {ops : List (TableOp α)} {n : Nat} :
    t.peak ops ≤ n ↔ ∀ done, done <+: ops → (runAll perform t done).2.count ≤ n := by
  induction ops generalizing t with
  | nil =>
    constructor
    · intro hle done hdone
      rw [List.prefix_nil.mp hdone]
      exact hle
    · exact fun hall => hall [] List.nil_prefix
  | cons op ops ih =>
    rw [peak, Nat.max_le, ih]
    constructor
    · rintro ⟨hnow, hlater⟩ done hdone
      rcases List.prefix_cons_iff.mp hdone with rfl | ⟨rest, rfl, hrest⟩
      · exact hnow
      · exact hlater rest hrest
    · intro hall
      exact ⟨hall [] List.nil_prefix, fun done hdone =>
        hall (op :: done) ((List.prefix_cons_inj op).mpr hdone)⟩

/-- The size of every table that can be reached is its initial size, doubled so many
times.  Either it has not grown, or it is in proportion to the largest number of
elements so far; and a run that never has more than `n` elements at once never makes
the table larger than that, however long it is. -/
theorem size_bounded_by_peak (capacity load : Nat) (ops : List (TableOp α)) :
    let start : IdentTable α := withLoad capacity load
    let t := (runAll perform start ops).2
    (∃ k, t.size = start.size * 2 ^ k) ∧
      (t.size = start.size ∨ t.size * clampLoad load < 400 * start.peak ops) ∧
      ∀ n, (∀ done, done <+: ops → (runAll perform start done).2.count ≤ n) →
        t.size = start.size ∨ t.size * clampLoad load < 400 * n := by
  intro start t
  have hwell : start.WellFormed := (wellFormed_withLoad capacity load).1
  obtain ⟨-, hinitial⟩ := wellFormed_of_run capacity load ops
  have hload : t.load = clampLoad load := load_of_run capacity load ops
  have hsize : start.size = start.initialSize := size_withLoad capacity load
  have hbound : ∀ n, (∀ done, done <+: ops → (runAll perform start done).2.count ≤ n) →
      t.Proportionate n := fun n hpeak =>
    (Proportionate.of_initialSize hsize).run hwell hpeak
  have hpeak := hbound (start.peak ops) (peak_le_iff.mp (Nat.le_refl _))
  change t.initialSize = start.size at hinitial
  rw [← hload, ← hinitial]
  exact ⟨hpeak.doubled, hpeak.bounded, fun n hn => (hbound n hn).bounded⟩

/-- A run that inserts twenty elements and removes each of them after the next one
has come never has more than two of them in the table.  It doubles a table that has
room for one in 16 slots, and doubles it once more, but after that it only purges
markers. -/
theorem size_bounded_by_peak_churn :
    let a (n : Nat) : Record := ⟨⟨.ofNat n⟩, 0, ⟨1⟩, ""⟩
    let ops : List (TableOp Record) :=
      (List.range 20).flatMap fun n => [.insert (a (n + 1)), .remove (a n)]
    let start : IdentTable Record := withLoad 0 10
    let t := (runAll perform start ops).2
    (∀ done, done <+: ops → (runAll perform start done).2.count ≤ 2) ∧ t.size = 64 ∧
      (t.size = start.size ∨ t.size * clampLoad 10 < 400 * 2) := by
  intro a ops start t
  have hpeak : ∀ done, done <+: ops → (runAll perform start done).2.count ≤ 2 :=
    peak_le_iff.mp (by decide +kernel)
  exact ⟨hpeak, by decide +kernel, (size_bounded_by_peak 0 10 ops).2.2 2 hpeak⟩

end IdentTable

end SnapshotIndex
