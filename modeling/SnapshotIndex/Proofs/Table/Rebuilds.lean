import SnapshotIndex.Element.Record
import SnapshotIndex.Proofs.Table.Operations
import SnapshotIndex.Proofs.Table.Relocation

/-!
# How far apart rebuilds are

A rebuild is expensive, so it must leave room for many insertions.  What counts
is the number of slots that are `used`, by elements or by markers: an insertion
uses at most one more of them, and a removal none.

* **What an insertion does.**  `WellFormed.entered` says it in numbers.  A new
  element fits, or the markers are purged, or the table is doubled; and after
  either rebuild the elements fill about half the load share at most
  (`Entered.half_full`).
* **Between two rebuilds.**  Unless the table is rebuilt, it keeps its size, and
  the slots in use go up with the insertions that succeed (`WellFormed.unrebuilt_run`).

The second rebuild comes when the whole load share is used up, so that about
half of it was used up by insertions since the first one (`rebuilds_spaced`).
That markers are purged at the same size does not make rebuilds more frequent,
because this is done only if the elements fill half the load share.
-/

namespace SnapshotIndex

open Identified (ident)

/-- Whether an operation is about a single element: it inserts, removes or takes
one. -/
def TableOp.Single {α : Type} : TableOp α → Prop
  | insert _ | remove _ | take _ => True
  | clear | replace => False

instance {α : Type} : DecidablePred (TableOp.Single : TableOp α → Prop)
  | .insert _ | .remove _ | .take _ => isTrue trivial
  | .clear | .replace => isFalse id

namespace IdentTable

variable {α : Type}

/-- The number of slots that hold an element or a marker. -/
def used (t : IdentTable α) : Nat := t.count + t.markers

/-! ## Insertions in numbers -/

/-- How the size and the markers of a table change when a new element enters. -/
inductive Entered (t u : IdentTable α) : Prop
  /-- There is room, and a marker may be used again. -/
  | fits (hroom : t.HasRoom) (hsize : u.size = t.size) (hmarkers : u.markers ≤ t.markers)
  /-- The markers are purged, because the elements fill half the load share at
  most. -/
  | purged (hfull : ¬ t.HasRoom) (hfew : (t.count + 1) * 200 ≤ t.limit) (hsize : u.size = t.size)
    (hmarkers : u.markers = 0)
  /-- The table is doubled, because they fill more. -/
  | doubled (hfull : ¬ t.HasRoom) (hmany : t.limit < (t.count + 1) * 200)
    (hsize : u.size = 2 * t.size) (hmarkers : u.markers = 0)

variable [Identified α] {t : IdentTable α}

/-- A rebuild keeps the elements and drops the markers. -/
theorem WellFormed.rebuild_counts (h : t.WellFormed) {newSize : Nat} (hsize : t.size ≤ newSize) :
    (t.rebuild newSize).count = t.count ∧ (t.rebuild newSize).markers = 0 ∧
      (t.rebuild newSize).size = newSize ∧ (t.rebuild newSize).load = t.load := by
  have hmoved : Moved t newSize t.toList (t.rebuild newSize) :=
    h.moved hsize (List.append_nil t.toList).symm
  have hrest := hmoved.rest_eq
  refine ⟨?_, ?_, hmoved.size_eq, ?_⟩
  · rw [hrest]
    rfl
  · rw [hrest]
    rfl
  · rw [hrest]
    rfl

/-- Filling a slot adds an element and no marker. -/
theorem put_counts {a : α} {slot : Nat} (h : t.probe (ident a) = .vacant slot) :
    (t.put a).2.count = t.count + 1 ∧ (t.put a).2.markers ≤ t.markers ∧
      (t.put a).2.size = t.size ∧ (t.put a).2.load = t.load := by
  rw [put_eq h]
  refine ⟨rfl, ?_, Array.size_setIfInBounds, rfl⟩
  dsimp only
  split
  · exact Nat.sub_le _ _
  · exact Nat.le_refl _

/-- A new element enters a table in one of three ways. -/
theorem WellFormed.entered (h : t.WellFormed) {a : α} (hnew : t.contains a = false) :
    (t.insert a).1 = true ∧ (t.insert a).2.count = t.count + 1 ∧
      (t.insert a).2.load = t.load ∧ t.Entered (t.insert a).2 := by
  obtain ⟨-, -, hdone, -⟩ := h.insert a
  obtain ⟨hwell, -, hperm, -⟩ := h.reserve
  have hlacks : t.reserve.Lacks (ident a) := lacks_iff.mpr fun b hb hid =>
    Bool.eq_false_iff.mp hnew ((h.contains_iff a).mpr ⟨b, hperm.mem_iff.mp hb, hid⟩)
  obtain ⟨slot, hprobe⟩ := hwell.probe_of_lacks hlacks
  obtain ⟨hcount, hmarkers, hsize, hload⟩ := put_counts hprobe
  have hinsert : (t.insert a).2 = (t.reserve.put a).2 := by
    rw [IdentTable.insert, if_neg (Bool.eq_false_iff.mp hnew)]
  have hadded : (t.insert a).1 = true := by rw [hdone, hnew, Bool.not_false]
  -- after either rebuild there are no markers left
  have hrebuilt : ∀ {newSize : Nat}, t.size ≤ newSize → t.reserve = t.rebuild newSize →
      (t.insert a).2.count = t.count + 1 ∧ (t.insert a).2.load = t.load ∧
        (t.insert a).2.size = newSize ∧ (t.insert a).2.markers = 0 := by
    intro newSize hle hreserve
    obtain ⟨hcount', hmarkers', hsize', hload'⟩ := h.rebuild_counts hle
    rw [hinsert]
    rw [hreserve] at hcount hmarkers hsize hload ⊢
    exact ⟨hcount.trans (congrArg (· + 1) hcount'), hload.trans hload', hsize.trans hsize',
      Nat.le_zero.mp (hmarkers' ▸ hmarkers)⟩
  by_cases hroom : t.HasRoom
  · have hstays : t.reserve = t := if_pos hroom
    rw [hinsert]
    rw [hstays] at hcount hmarkers hsize hload ⊢
    exact ⟨hadded, hcount, hload, .fits hroom hsize hmarkers⟩
  · by_cases hmany : t.limit < (t.count + 1) * 200
    · have hdoubled : t.reserve = t.rebuild (2 * t.size) := (if_neg hroom).trans (if_pos hmany)
      obtain ⟨hcount, hload, hsize, hmarkers⟩ := hrebuilt (by omega) hdoubled
      exact ⟨hadded, hcount, hload, .doubled hroom hmany hsize hmarkers⟩
    · have hpurged : t.reserve = t.rebuild t.size := (if_neg hroom).trans (if_neg hmany)
      obtain ⟨hcount, hload, hsize, hmarkers⟩ := hrebuilt (Nat.le_refl t.size) hpurged
      exact ⟨hadded, hcount, hload, .purged hroom (Nat.le_of_not_lt hmany) hsize hmarkers⟩

/-- After a rebuild the slots in use are those of the elements, and they are half
the load share at most, or one more. -/
theorem Entered.half_full {u : IdentTable α} (h : t.Entered u) (hwell : t.WellFormed)
    (hfull : ¬ t.HasRoom) (hcount : u.count = t.count + 1) (hload : u.load = t.load) :
    200 * u.used ≤ u.limit + 200 ∧ (u.size = t.size → 200 * u.used ≤ u.limit) := by
  have hfilled := hwell.filled
  have hsize := hwell.sixteen_le_size
  cases h with
  | fits hroom => exact absurd hroom hfull
  | purged _ hfew hsame hmarkers =>
    have hlimit : u.limit = t.limit := by rw [limit, limit, hsame, hload]
    unfold used
    omega
  | doubled _ _ hdouble hmarkers =>
    have hlimit : u.limit = 2 * t.limit := by rw [limit, limit, hdouble, hload, Nat.mul_assoc]
    unfold used
    omega

/-! ## One operation -/

/-- Whether an operation rebuilds the table, which shows in the generation.  Only
an insertion may do so. -/
def rebuilds (t : IdentTable α) : TableOp α → Bool
  | .insert a => decide (t.generation < (t.insert a).2.generation)
  | _ => false

/-- Whether an operation is an insertion that succeeds. -/
def adds (t : IdentTable α) : TableOp α → Bool
  | .insert a => (t.insert a).1
  | _ => false

/-- How often a table is rebuilt in the course of a run. -/
def rebuildCount (t : IdentTable α) (ops : List (TableOp α)) : Nat :=
  occasions perform rebuilds t ops

/-- How many insertions of a run succeed. -/
def additions (t : IdentTable α) (ops : List (TableOp α)) : Nat := occasions perform adds t ops

theorem rebuilds_insert (t : IdentTable α) (a : α) : t.rebuilds (.insert a) = t.crowdedBy a := by
  rw [rebuilds, t.generation_insert]
  cases t.crowdedBy a <;> simp

/-- A table is rebuilt for a new element that finds no room. -/
theorem rebuilds_eq_true_iff {op : TableOp α} :
    t.rebuilds op = true ↔ ∃ a, op = .insert a ∧ t.contains a = false ∧ ¬ t.HasRoom := by
  cases op with
  | insert a =>
    rw [rebuilds_insert, crowdedBy, HasRoom, Nat.not_le]
    simp
  | _ => simp [rebuilds]

/-- `u` is `t` after operations that did not rebuild it and added `n` elements. -/
structure Unrebuilt (t u : IdentTable α) (n : Nat) : Prop where
  size_eq : u.size = t.size
  load_eq : u.load = t.load
  generation_eq : u.generation = t.generation
  used_le : u.used ≤ t.used + n

omit [Identified α] in
theorem Unrebuilt.trans {u v : IdentTable α} {m n : Nat} (h : t.Unrebuilt u m)
    (hthen : u.Unrebuilt v n) : t.Unrebuilt v (m + n) where
  size_eq := hthen.size_eq.trans h.size_eq
  load_eq := hthen.load_eq.trans h.load_eq
  generation_eq := hthen.generation_eq.trans h.generation_eq
  used_le :=
    calc v.used ≤ u.used + n := hthen.used_le
      _ ≤ t.used + m + n := Nat.add_le_add_right h.used_le n
      _ = t.used + (m + n) := Nat.add_assoc _ _ _

/-- A removal exchanges an element for a marker. -/
theorem WellFormed.unrebuilt_take (h : t.WellFormed) (id : Ident) :
    t.Unrebuilt (t.take id).2 0 := by
  refine ⟨t.size_take id, ?_, t.generation_take id, ?_⟩
  · unfold IdentTable.take
    split <;> rfl
  · unfold used
    rcases h.probe_cases id with ⟨-, slot, hprobe⟩ | ⟨slot, a, hprobe, -, -⟩
    · simp [IdentTable.take, hprobe]
    · have hpos := h.count_pos hprobe
      rw [take_of_found hprobe]
      dsimp only
      omega

theorem WellFormed.unrebuilt_insert (h : t.WellFormed) {a : α} (hroom : t.crowdedBy a = false) :
    t.Unrebuilt (t.insert a).2 (t.insert a).1.toNat := by
  have hgeneration := t.generation_insert a
  rw [hroom, Bool.toNat_false, Nat.add_zero] at hgeneration
  cases hheld : t.contains a with
  | true =>
    have hsame : t.insert a = (false, t) := if_pos hheld
    rw [hsame]
    exact ⟨rfl, rfl, rfl, Nat.le_refl _⟩
  | false =>
    obtain ⟨hadded, hcount, hload, hentered⟩ := h.entered hheld
    rw [crowdedBy, hheld, Bool.not_false, Bool.true_and, decide_eq_false_iff_not,
      Nat.not_lt] at hroom
    cases hentered with
    | fits _ hsize hmarkers =>
      refine ⟨hsize, hload, hgeneration, ?_⟩
      rw [hadded, Bool.toNat_true, used, used, hcount]
      omega
    | purged hfull => exact absurd hroom hfull
    | doubled hfull => exact absurd hroom hfull

/-- An operation on a single element that does not rebuild the table uses one
more slot at most, for an element that it adds. -/
theorem WellFormed.unrebuilt_perform (h : t.WellFormed) {op : TableOp α} (hsingle : op.Single)
    (hstays : t.rebuilds op = false) :
    t.Unrebuilt (t.perform op).2 (t.adds op).toNat := by
  cases op with
  | insert a => exact h.unrebuilt_insert (t.rebuilds_insert a ▸ hstays)
  | remove a => exact h.unrebuilt_take (ident a)
  | take id => exact h.unrebuilt_take id
  | clear => exact hsingle.elim
  | replace => exact hsingle.elim

theorem WellFormed.load_perform (h : t.WellFormed) (op : TableOp α) :
    (t.perform op).2.load = t.load := by
  cases op with
  | insert a =>
    cases hheld : t.contains a with
    | true => exact congrArg load (congrArg Prod.snd (if_pos hheld : t.insert a = (false, t)))
    | false => exact (h.entered hheld).2.2.1
  | remove a => exact (h.unrebuilt_take (ident a)).load_eq
  | take id => exact (h.unrebuilt_take id).load_eq
  | clear => rfl
  | replace => rfl

/-! ## Runs -/

theorem WellFormed.run (h : t.WellFormed) (ops : List (TableOp α)) :
    (runAll IdentTable.perform t ops).2.WellFormed := by
  have hstep : ∀ (u : IdentTable α) (op : TableOp α), u.WellFormed → (u.perform op).2.WellFormed :=
    fun u op hu => (hu.perform op).1
  exact runAll_invariant hstep h ops

/-- A table keeps its load share. -/
theorem load_of_run (capacity load : Nat) (ops : List (TableOp α)) :
    (runAll perform (withLoad capacity load : IdentTable α) ops).2.load = clampLoad load := by
  let Inv (u : IdentTable α) : Prop := u.WellFormed ∧ u.load = clampLoad load
  have hstep : ∀ u op, Inv u → Inv (perform u op).2 := fun u op hu =>
    ⟨(hu.1.perform op).1, (hu.1.load_perform op).trans hu.2⟩
  have hstart : Inv (withLoad capacity load) := ⟨(wellFormed_withLoad capacity load).1, rfl⟩
  exact (runAll_invariant hstep hstart ops).2

/-- As long as a table is not rebuilt the slots in use go up with the elements
that are added. -/
theorem WellFormed.unrebuilt_run (h : t.WellFormed) {ops : List (TableOp α)}
    (hsingle : ∀ op ∈ ops, op.Single) (hstays : t.rebuildCount ops = 0) :
    t.Unrebuilt (runAll IdentTable.perform t ops).2 (t.additions ops) := by
  induction ops generalizing t with
  | nil => exact ⟨rfl, rfl, rfl, Nat.le_refl _⟩
  | cons op ops ih =>
    rw [rebuildCount, occasions_cons] at hstays
    obtain ⟨hhere, hlater⟩ := Nat.add_eq_zero_iff.mp hstays
    have hstep := h.unrebuilt_perform (hsingle op List.mem_cons_self) (Bool.toNat_eq_zero.mp hhere)
    exact hstep.trans
      (ih (h.perform op).1 (fun op' hmem => hsingle op' (List.mem_cons_of_mem op hmem)) hlater)

/-- A run of operations on single elements in which the first one and the last
one rebuild the table, and none in between. -/
structure RebuiltTwice (t : IdentTable α) (first : TableOp α) (between : List (TableOp α))
    (last : TableOp α) : Prop where
  single : ∀ op ∈ first :: (between ++ [last]), op.Single
  first_rebuilds : t.rebuilds first = true
  none_between : (t.perform first).2.rebuildCount between = 0
  last_rebuilds : (runAll perform (t.perform first).2 between).2.rebuilds last = true

theorem WellFormed.spaced (h : t.WellFormed) {first last : TableOp α}
    {between : List (TableOp α)} (htwice : t.RebuiltTwice first between last) :
    let u := (t.perform first).2
    let m := u.additions (between ++ [last])
    u.size * u.load < 200 * (m + 1) ∧ (u.size = t.size → u.size * u.load < 200 * m) := by
  intro u m
  let v := (runAll IdentTable.perform u between).2
  obtain ⟨a, rfl, hnew, hfull⟩ := rebuilds_eq_true_iff.mp htwice.first_rebuilds
  obtain ⟨-, hcount, hload, hentered⟩ := h.entered hnew
  have hhalf : 200 * u.used ≤ u.limit + 200 ∧ (u.size = t.size → 200 * u.used ≤ u.limit) :=
    hentered.half_full h hfull hcount hload
  -- from the first rebuild to the second one slots are used by insertions alone
  have hwell : u.WellFormed := (h.perform (.insert a)).1
  have hsingle : ∀ op ∈ between, op.Single := fun op hmem =>
    htwice.single op (List.mem_cons_of_mem _ (List.mem_append_left _ hmem))
  have hrun : u.Unrebuilt v (u.additions between) :=
    hwell.unrebuilt_run hsingle htwice.none_between
  have hused := hrun.used_le
  -- and in the end the load share is used up
  obtain ⟨b, rfl, hnew', hfull'⟩ := rebuilds_eq_true_iff.mp htwice.last_rebuilds
  have hover : v.limit < (v.used + 1) * 100 := Nat.lt_of_not_le hfull'
  have hlimit : v.limit = u.limit := by rw [limit, limit, hrun.size_eq, hrun.load_eq]
  have hm : m = u.additions between + 1 := by
    obtain ⟨hadded, -⟩ := (hwell.run between).entered hnew'
    change u.additions (between ++ [.insert b]) = _
    rw [additions, occasions_append, occasions_cons, occasions_nil, adds, hadded]
    rfl
  have hspent : 2 * u.limit < 200 * u.used + 200 * m :=
    calc 2 * u.limit = 2 * v.limit := by rw [hlimit]
      _ < 200 * (v.used + 1) := by omega
      _ ≤ 200 * (u.used + m) := by omega
      _ = 200 * u.used + 200 * m := Nat.mul_add _ _ _
  change u.limit < 200 * (m + 1) ∧ (u.size = t.size → u.limit < 200 * m)
  omega

/-- Rebuilds are spaced out in every run of insertions and removals on a table that
can be reached.  If the table has `N` slots after one rebuild, then the next one
comes only after so many insertions that they fill half the load share of `N`
slots; and if the first one only purged the markers, then this is so without the
one insertion more. -/
theorem rebuilds_spaced (capacity load : Nat) (history : List (TableOp α)) (first : TableOp α)
    (between : List (TableOp α)) (last : TableOp α) :
    let t := (runAll perform (withLoad capacity load : IdentTable α) history).2
    t.RebuiltTwice first between last →
      let u := (t.perform first).2
      let m := u.additions (between ++ [last])
      u.size * clampLoad load < 200 * (m + 1) ∧ u.size < 20 * (m + 1) ∧
        (u.size = t.size → u.size * clampLoad load < 200 * m) := by
  intro t htwice u m
  obtain ⟨hwell, -⟩ := wellFormed_of_run capacity load history
  obtain ⟨hspaced, hpurged⟩ := hwell.spaced htwice
  have hload : u.load = clampLoad load :=
    (hwell.load_perform first).trans (load_of_run capacity load history)
  have hshare : u.size * 10 ≤ u.limit := (hwell.perform first).1.le_limit
  rw [limit, hload] at hshare
  change u.size * u.load < 200 * (m + 1) at hspaced
  change u.size = t.size → u.size * u.load < 200 * m at hpurged
  rw [hload] at hspaced hpurged
  exact ⟨hspaced, by omega, hpurged⟩

/-- A table with room for three elements is used by one element after the other.
The fourth insertion and the seventh one purge the markers, so that `m` is 3. -/
theorem rebuilds_spaced_purges :
    let a (n : UInt64) : Record := ⟨⟨n⟩, 0, ⟨1⟩, ""⟩
    let history : List (TableOp Record) :=
      [.insert (a 1), .remove (a 1), .insert (a 2), .remove (a 2), .insert (a 3), .remove (a 3)]
    let between : List (TableOp Record) :=
      [.take ⟨4⟩, .insert (a 5), .remove (a 5), .insert (a 6), .take ⟨6⟩]
    let t := (runAll perform (withLoad 0 20) history).2
    let u := (t.perform (.insert (a 4))).2
    t.RebuiltTwice (.insert (a 4)) between (.insert (a 7)) ∧
      u.size = t.size ∧ u.additions (between ++ [.insert (a 7)]) = 3 ∧ u.size * 20 < 200 * 3 := by
  intro a history between t u
  have htwice : t.RebuiltTwice (.insert (a 4)) between (.insert (a 7)) :=
    ⟨by decide, by decide +kernel, by decide +kernel, by decide +kernel⟩
  have hsize : u.size = t.size := by decide +kernel
  have hm : u.additions (between ++ [.insert (a 7)]) = 3 := by decide +kernel
  have hpurged := (rebuilds_spaced 0 20 history (.insert (a 4)) between (.insert (a 7)) htwice).2.2
    hsize
  exact ⟨htwice, hsize, hm, hm ▸ hpurged⟩

end IdentTable

end SnapshotIndex
