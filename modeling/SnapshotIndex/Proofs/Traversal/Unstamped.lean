import SnapshotIndex.Element.Record
import SnapshotIndex.Index.Sorted
import SnapshotIndex.Proofs.Traversal.Stepping
import SnapshotIndex.Proofs.Traversal.Tours

/-!
# Steps from the mark that nobody has stamped

The place before the start of a store reads nothing, and one step from there is
the first element: whoever has not begun yet begins by moving on.  This is so in
every table and in every array (`DoublyLinked.next_before`), but not in a bag.
A bag hands out marks, and the mark for the place before the start,
`Mark.invalid`, says generation 0, as if it were taken from the first table that
the bag had.

As long as the bag has this table, or a copy of it with every element in its slot,
the mark counts as current.  The step is one in the table and leads to the first
element (`next_invalid`).  Once elements were moved, the mark counts as stale and
leads nowhere.  How often they were moved depends on the capacity, on what came and
went, and on who held snapshots, and it cannot be seen from the elements.  So a walk
that begins at this mark goes by the elements of one bag, and by none of another
(`isValid_next_invalid_iff`); two bags treat it alike exactly if elements were moved
in both of them or in neither (`unstamped_steps_agree_iff`).

Steps back from there lead nowhere in any bag (`isValid_prev_invalid`).
-/

namespace SnapshotIndex

variable {α : Type} [Identified α]

namespace Bag

variable {b : Bag α}

omit [Identified α] in
theorem place?_mark (b : Bag α) (p : Position) : b.place? (b.mark p) = some p := if_pos rfl

theorem isValid_mark (b : Bag α) (p : Position) :
    b.isValid (b.mark p) = Positional.holds b.content p := by
  rw [isValid, get?, place?_mark]
  rfl

omit [Identified α] in
/-- The mark that nobody has stamped counts as one of the first table. -/
theorem place?_invalid (b : Bag α) :
    b.place? .invalid = if b.content.generation = 0 then some .before else none :=
  if_congr eq_comm rfl rfl

theorem isValid_invalid (b : Bag α) : b.isValid .invalid = false := by
  rw [isValid, get?, place?_invalid]
  split <;> rfl

theorem next_invalid (b : Bag α) :
    b.next .invalid = if b.content.generation = 0 then b.first else .invalid := by
  rw [next, place?_invalid]
  split_ifs
  · rfl
  · rfl

theorem isValid_prev_invalid (b : Bag α) : b.isValid (b.prev .invalid) = false := by
  rw [prev, place?_invalid]
  split_ifs
  · exact b.isValid_mark .before
  · exact b.isValid_invalid

theorem isValid_first (h : b.content.WellFormed) (hfull : b.isEmpty = false) :
    b.isValid b.first = true := by
  have hsize : Positional.size b.content ≠ 0 := beq_eq_false_iff_ne.mp hfull
  rw [first, isValid_mark]
  exact (IdentTable.row h.count_eq).doublyLinked.holds_first hsize

/-- A step from the mark that nobody has stamped finds an element only in a table of
the first generation. -/
theorem isValid_next_invalid_iff (h : b.content.WellFormed) (hfull : b.isEmpty = false) :
    b.isValid (b.next .invalid) = true ↔ b.content.generation = 0 := by
  rw [next_invalid]
  split
  · rename_i hzero
    exact iff_of_true (isValid_first h hfull) hzero
  · rename_i hlater
    rw [isValid_invalid]
    exact iff_of_false Bool.false_ne_true hlater

theorem generation_withLoad (capacity load : Nat) (events : List (BagEvent α)) :
    (events.foldl undergo (withLoad capacity load)).content.generation =
      (withLoad capacity load).relocations events :=
  (generation_run _ _).trans (Nat.zero_add _)

/-- It finds an element as long as none was ever moved. -/
theorem isValid_next_invalid_run {capacity load : Nat} {events : List (BagEvent α)}
    (hfull : (events.foldl undergo (withLoad capacity load)).isEmpty = false) :
    (events.foldl undergo (withLoad capacity load)).isValid
        ((events.foldl undergo (withLoad capacity load)).next .invalid) = true ↔
      (withLoad capacity load).relocations events = 0 := by
  have hwell := wellFormed_events (b := withLoad capacity load)
    (IdentTable.wellFormed_withLoad capacity load).1 events
  rw [← generation_withLoad]
  exact isValid_next_invalid_iff hwell hfull

end Bag

/-- A step from the mark that nobody has stamped leads to the first element of a bag
as long as no elements were ever moved in it, and nowhere afterwards.  So of two bags
with elements it finds one in both or in neither exactly if elements were moved in
both or in neither.  In a sorted index it always leads to the first element. -/
theorem unstamped_steps_agree_iff (capacity load capacity' load' : Nat)
    (events events' : List (BagEvent α))
    (hfull : (events.foldl Bag.undergo (.withLoad capacity load)).isEmpty = false)
    (hfull' : (events'.foldl Bag.undergo (.withLoad capacity' load')).isEmpty = false) :
    let start : Bag α := .withLoad capacity load
    let start' : Bag α := .withLoad capacity' load'
    let b := events.foldl Bag.undergo start
    let b' := events'.foldl Bag.undergo start'
    (b.isValid (b.next .invalid) = b'.isValid (b'.next .invalid) ↔
        (start.relocations events = 0 ↔ start'.relocations events' = 0)) ∧
      (b.isValid (b.next .invalid) = true ↔ start.relocations events = 0) ∧
      (b.next .invalid = if start.relocations events = 0 then b.first else .invalid) ∧
      ∀ s : SortedIndex α, Positional.next s.content .before = Positional.first s.content := by
  intro start start' b b'
  have hvalid := Bag.isValid_next_invalid_run hfull
  have hvalid' := Bag.isValid_next_invalid_run hfull'
  refine ⟨?_, hvalid, ?_, fun s => s.content.row.doublyLinked.next_before⟩
  · rw [Bool.eq_iff_iff, hvalid, hvalid']
  · rw [← Bag.generation_withLoad]
    exact b.next_invalid

/-- Insertions of elements with the identities up to a number. -/
def Bag.insertions (n : Nat) : List (BagEvent Record) :=
  (List.range n).map fun i => .act (.insert ⟨⟨(i + 1).toUInt64⟩, 0, ⟨1⟩, ""⟩)

/-- A bag of the least size, with a low load share, after these insertions. -/
def Bag.small (n : Nat) : Bag Record := (insertions n).foldl undergo (withLoad 0 10)

/-- Two elements that were moved are unlike a single one that was not. -/
theorem unstamped_steps_agree_iff_moved :
    (Bag.small 1).isEmpty = false ∧ (Bag.small 2).isEmpty = false ∧
      (Bag.withLoad 0 10).relocations (Bag.insertions 1) = 0 ∧
      (Bag.withLoad 0 10).relocations (Bag.insertions 2) = 1 ∧
      (Bag.small 1).isValid ((Bag.small 1).next .invalid) ≠
        (Bag.small 2).isValid ((Bag.small 2).next .invalid) := by
  have hfull : (Bag.small 1).isEmpty = false := by decide
  have hfull' : (Bag.small 2).isEmpty = false := by decide
  have hstays : (Bag.withLoad 0 10).relocations (Bag.insertions 1) = 0 := by decide
  have hmoves : (Bag.withLoad 0 10).relocations (Bag.insertions 2) = 1 := by decide
  refine ⟨hfull, hfull', hstays, hmoves, ?_⟩
  obtain ⟨hagree, -⟩ := unstamped_steps_agree_iff 0 10 0 10 _ _ hfull hfull'
  intro halike
  exact absurd (hmoves.symm.trans ((hagree.mp halike).mp hstays)) Nat.one_ne_zero

/-- The second element of a small bag makes the table grow, and what led to the first
element leads nowhere. -/
theorem unstamped_steps_differ :
    (Bag.small 1).size = 1 ∧ (Bag.small 1).isValid ((Bag.small 1).next .invalid) = true ∧
      (Bag.small 2).size = 2 ∧ (Bag.small 2).isValid ((Bag.small 2).next .invalid) = false := by
  decide

end SnapshotIndex
