import SnapshotIndex.Assoc
import SnapshotIndex.Proofs.Table.Operations

/-!
# Tables are finite maps

What a table does can be said without slots: it maps identities to the
elements that were first put under them.  `mapPerform` carries out the
operations of a table on such a map, `Represents` relates the two, and
`represents_perform` compares them at one operation.

* `run_eq_map`: over every run from an empty table all answers are those of
  the map, and so is everything that can be read in the end.
-/

namespace SnapshotIndex

open Identified (ident)

namespace IdentTable

variable {α : Type} [Identified α]

/-- One operation of a table, carried out on a map from identities to
elements. -/
def mapPerform (m : Assoc Ident α) : TableOp α → TableAnswer α × Assoc Ident α
  | .insert a =>
    if m.contains (ident a) then (.changed false, m) else (.changed true, m.insert (ident a) a)
  | .remove a => (.changed (m.contains (ident a)), m.erase (ident a))
  | .take id => (.taken (m.get? id), m.erase id)
  | .clear => (.silent, .empty)
  | .replace => (.silent, .empty)

/-- A well-formed table and a map have the same elements, each under its own
identity. -/
structure Represents (t : IdentTable α) (m : Assoc Ident α) : Prop where
  wellFormed : t.WellFormed
  perm : m.pairs.Perm (t.toList.map fun a => (ident a, a))

/-! ## Reading -/

theorem WellFormed.get?_eq_some_iff {t : IdentTable α} (h : t.WellFormed) {id : Ident} {a : α} :
    t.get? id = some a ↔ a ∈ t.toList ∧ ident a = id := by
  unfold get?
  rcases h.probe_cases id with ⟨hlacks, slot, hprobe⟩ | ⟨slot, b, hprobe, hslot, rfl⟩
  · rw [hprobe]
    have hnone := lacks_iff.mp hlacks a
    simpa using hnone
  · rw [hprobe]
    constructor
    · intro hget
      obtain rfl : b = a := Option.some.inj (hslot.symm.trans hget)
      exact ⟨mem_toList.mpr ⟨slot, hslot⟩, rfl⟩
    · rintro ⟨hmem, hid⟩
      obtain ⟨i, hi⟩ := mem_toList.mp hmem
      rwa [h.unique slot i b a hslot hi hid.symm]

namespace Represents

variable {t : IdentTable α} {m : Assoc Ident α}

theorem mem_pairs (h : Represents t m) {id : Ident} {a : α} :
    (id, a) ∈ m.pairs ↔ a ∈ t.toList ∧ ident a = id := by
  rw [h.perm.mem_iff, List.mem_map]
  constructor
  · rintro ⟨b, hb, heq⟩
    obtain ⟨rfl, rfl⟩ := Prod.mk.inj heq
    exact ⟨hb, rfl⟩
  · rintro ⟨ha, rfl⟩
    exact ⟨a, ha, rfl⟩

/-- A search in the table finds what the map has under the identity. -/
theorem get?_eq (h : Represents t m) (id : Ident) : t.get? id = m.get? id := by
  apply Option.ext
  intro a
  rw [h.wellFormed.get?_eq_some_iff, m.get?_eq_some_iff, h.mem_pairs]

theorem contains_eq (h : Represents t m) (a : α) : t.contains a = m.contains (ident a) := by
  unfold contains Assoc.contains
  rw [hasIdent_eq_isSome, h.get?_eq]

theorem values_perm (h : Represents t m) : t.toList.Perm m.values := by
  have hvalues := h.perm.map Prod.snd
  rw [List.map_map] at hvalues
  simpa [Assoc.values, Function.comp_def] using hvalues.symm

theorem count_eq (h : Represents t m) : t.count = m.size := by
  rw [h.wellFormed.count_eq, h.values_perm.length_eq]
  exact List.length_map _

end Represents

/-! ## One operation, and many -/

theorem represents_empty {t : IdentTable α} (h : t.WellFormed ∧ t.toList = []) :
    Represents t .empty :=
  ⟨h.1, by rw [h.2]; exact List.Perm.nil⟩

theorem Represents.take {t : IdentTable α} {m : Assoc Ident α} (h : Represents t m) (id : Ident) :
    Represents (t.take id).2 (m.erase id) := by
  obtain ⟨hwell, hlist⟩ := h.wellFormed.take id
  refine ⟨hwell, ?_⟩
  have hfilter := h.perm.filter fun p => p.1 ≠ id
  rw [List.filter_map] at hfilter
  rw [hlist]
  exact hfilter

theorem Represents.insert {t : IdentTable α} {m : Assoc Ident α} (h : Represents t m) {a : α}
    (hnew : t.contains a = false) : Represents (t.insert a).2 (m.insert (ident a) a) := by
  obtain ⟨hwell, -, -, hperm⟩ := h.wellFormed.insert a
  have hnone : m.get? (ident a) = none := by
    rw [h.contains_eq] at hnew
    simpa [Assoc.contains] using hnew
  rw [if_neg (by simp [hnew])] at hperm
  refine ⟨hwell, ?_⟩
  calc (m.insert (ident a) a).pairs
      = m.pairs ++ [(ident a, a)] := Assoc.assign_of_lookup_eq_none a hnone
    List.Perm _ ((ident a, a) :: m.pairs) := List.perm_append_singleton _ _
    List.Perm _ ((a :: t.toList).map fun b => (ident b, b)) := List.Perm.cons _ h.perm
    List.Perm _ _ := (hperm.map _).symm

/-- At one operation a table and its map answer alike and stay related. -/
theorem represents_perform (t : IdentTable α) (m : Assoc Ident α) (op : TableOp α)
    (h : Represents t m) :
    (t.perform op).1 = (mapPerform m op).1 ∧
      Represents (t.perform op).2 (mapPerform m op).2 := by
  cases op with
  | insert a =>
    obtain ⟨-, -, hanswer, -⟩ := h.wellFormed.insert a
    simp only [perform, mapPerform, hanswer, ← h.contains_eq]
    cases hheld : t.contains a with
    | true =>
      have hsame : t.insert a = (false, t) := by
        unfold IdentTable.insert
        rw [if_pos hheld]
      exact ⟨rfl, by rw [hsame]; exact h⟩
    | false => exact ⟨rfl, h.insert hheld⟩
  | remove a =>
    refine ⟨?_, h.take (ident a)⟩
    simp only [perform, mapPerform, remove_fst, h.contains_eq]
  | take id =>
    refine ⟨?_, h.take id⟩
    change TableAnswer.taken (t.take id).1 = _
    rw [take_fst, h.get?_eq]
    rfl
  | clear => exact ⟨rfl, represents_empty h.wellFormed.clear⟩
  | replace => exact ⟨rfl, represents_empty h.wellFormed.emptyLike⟩

/-- Over every run from an empty table, for any capacity and load share, the
answers are those of a map from identities to elements.  In the end every
search agrees with the map, and the slots hold its values, each once. -/
theorem run_eq_map (capacity load : Nat) (ops : List (TableOp α)) :
    let run := runAll perform (withLoad capacity load) ops
    let spec := runAll mapPerform Assoc.empty ops
    run.1 = spec.1 ∧ (∀ id, run.2.get? id = spec.2.get? id) ∧
      (∀ a, run.2.contains a = spec.2.contains (ident a)) ∧ run.2.count = spec.2.size ∧
      run.2.isEmpty = (spec.2.size == 0) ∧ run.2.toList.Perm spec.2.values ∧
      ∀ id a, spec.2.get? id = some a → ident a = id := by
  intro run spec
  obtain ⟨hanswers, hend⟩ := runAll_simulates represents_perform
    (represents_empty (wellFormed_withLoad capacity load)) ops
  refine ⟨hanswers, hend.get?_eq, hend.contains_eq, hend.count_eq, ?_, hend.values_perm, ?_⟩
  · unfold isEmpty
    rw [hend.count_eq]
  · intro id a hget
    exact (hend.mem_pairs.mp ((Assoc.get?_eq_some_iff _ _ _).mp hget)).2

end IdentTable

end SnapshotIndex
