import SnapshotIndex.Element.Record
import SnapshotIndex.Proofs.Bag.TableRuns
import SnapshotIndex.Proofs.Table.Capacity
import SnapshotIndex.Proofs.Traversal.Tours

/-!
# What a bag has room for

A bag is made for a capacity that someone configured, and its table is made for
the same one.  Snapshots do not get in the way.  A bag whose content is shared
copies its table before it changes it, but the copy has the elements in the same
slots; and a bag that is cleared while it is shared gets a table that is made for
the same capacity as the one it leaves behind.

* `KeepsSlots`: that the elements of a bag stay in place.
* `capacity_promised`: new and emptied tables, and new and emptied bags.
-/

namespace SnapshotIndex

open Identified (ident)

variable {α : Type} [Identified α]

namespace Bag

/-- What a bag keeps in the course of some events. -/
structure KeepsSlots (b : Bag α) (events : List (BagEvent α)) : Prop where
  /-- No event moves its elements. -/
  unmoved : b.relocations events = 0
  /-- Its table has the same number of slots and is of the same generation all the
  time. -/
  same : ∀ done, done <+: events →
    (done.foldl undergo b).content.size = b.content.size ∧
      (done.foldl undergo b).content.generation = b.content.generation
  /-- An element that is in a slot at some moment is in this slot until it is
  removed. -/
  stays : ∀ done later, done ++ later <+: events → ∀ i x,
    (done.foldl undergo b).content.element? i = some x →
      (∀ op, .act op ∈ later → ¬ op.Removes x) →
        ((done ++ later).foldl undergo b).content.element? i = some x

variable {b : Bag α} {events : List (BagEvent α)}

theorem keepsSlots_of_unmoved (h : b.content.WellFormed) (hstays : b.relocations events = 0) :
    b.KeepsSlots events := by
  refine ⟨hstays, ?_, ?_⟩
  · rintro done ⟨rest, rfl⟩
    rw [relocations_append] at hstays
    obtain ⟨hdone, -⟩ := Nat.add_eq_zero_iff.mp hstays
    exact ⟨size_events hdone, by rw [b.generation_run, hdone, Nat.add_zero]⟩
  · rintro done later ⟨rest, rfl⟩ i x hx hkept
    rw [List.append_assoc, relocations_append, relocations_append] at hstays
    rw [List.foldl_append]
    exact element?_run (wellFormed_events h done) hx hkept
      (Nat.add_eq_zero_iff.mp (Nat.add_eq_zero_iff.mp hstays).2).1

/-- A bag whose table was made for a capacity has room for so many insertions. -/
theorem keepsSlots_of_madeFor {capacity : Nat} (h : b.content.MadeFor capacity)
    (hkept : .act .clear ∉ events) (hfew : b.additions events ≤ capacity) :
    b.KeepsSlots events := by
  refine keepsSlots_of_unmoved h.toWellFormed ?_
  rw [relocations_eq hkept]
  rw [additions_eq h.toWellFormed] at hfew
  exact h.unrebuilt (single_tableRun hkept) hfew

end Bag

/-- The promise of a capacity.  A table takes in so many elements without a rebuild
and keeps each of them in its slot, be it new, emptied or exchanged for an empty one,
and so does a bag that is new or has just been cleared, with snapshots held as you
like. -/
theorem capacity_promised (capacity load : Nat) (history : List (TableOp α)) (config : Config)
    (events : List (BagEvent α)) :
    (let made : IdentTable α := .withLoad capacity load
      let t := (runAll IdentTable.perform made history).2
      ∀ u ∈ [made, t.clear, t.emptyLike], ∀ ops : List (TableOp α), (∀ op ∈ ops, op.Single) →
        u.additions ops ≤ capacity → u.KeepsSlots ops) ∧
    (let made : Bag α := .ofConfig config
      let b := events.foldl Bag.undergo made
      ∀ c, c = made ∨ (b.isEmpty = false ∧ c = b.clear) →
        ∀ later : List (BagEvent α), .act .clear ∉ later →
          c.additions later ≤ config.bagCapacity → c.KeepsSlots later) := by
  refine ⟨?_, ?_⟩
  · intro made t u hu ops hsingle hfew
    have hmade : u.MadeFor capacity := by
      obtain ⟨hcleared, hexchanged⟩ := IdentTable.madeFor_emptied (α := α) capacity load history
      rcases List.mem_cons.mp hu with rfl | hu
      · exact IdentTable.madeFor_withLoad capacity load
      · rcases List.mem_cons.mp hu with rfl | hu
        · exact hcleared
        · obtain rfl := List.mem_singleton.mp hu
          exact hexchanged
    exact hmade.toWellFormed.keepsSlots_of_unrebuilt hsingle (hmade.unrebuilt hsingle hfew)
  · intro made b c hc later hkept hfew
    have hmade : c.content.MadeFor config.bagCapacity := by
      rcases hc with rfl | ⟨hfull, rfl⟩
      · exact IdentTable.madeFor_withLoad config.bagCapacity config.loadPercent
      · exact Bag.content_clear_of_emptied (P := (·.MadeFor config.bagCapacity)) config
          (IdentTable.madeFor_emptied config.bagCapacity config.loadPercent) events hfull
    exact Bag.keepsSlots_of_madeFor hmade hkept hfew

/-- A table with room for three elements takes in three of them after it was emptied,
and the markers of those that are removed meanwhile do not matter.  A bag of this
capacity does so when it was cleared while a snapshot was held. -/
theorem capacity_promised_three :
    let a (n : UInt64) : Record := ⟨⟨n⟩, 0, ⟨1⟩, ""⟩
    let history : List (TableOp Record) := [.insert (a 1), .insert (a 2), .insert (a 3),
      .insert (a 4)]
    let ops : List (TableOp Record) := [.insert (a 21), .remove (a 21), .insert (a 5), .take ⟨5⟩,
      .insert (a 37)]
    let config : Config := { bagCapacity := 3, loadPercent := 20 }
    let events : List (BagEvent Record) := [.act (.insert (a 1)), .hold ⟨0⟩]
    let later : List (BagEvent Record) := [.act (.insert (a 21)), .hold ⟨1⟩,
      .act (.remove (a 21)), .act (.insert (a 5)), .release ⟨0⟩, .act (.insert (a 37))]
    let t := (runAll IdentTable.perform (.withLoad 3 20) history).2
    let b := events.foldl Bag.undergo (Bag.ofConfig config)
    t.clear.additions ops = 3 ∧ t.clear.KeepsSlots ops ∧
      b.store.isShared = true ∧ b.clear.additions later = 3 ∧ b.clear.KeepsSlots later := by
  intro a history ops config events later t b
  obtain ⟨htable, hbag⟩ := capacity_promised 3 20 history config events
  have hkept : (.act .clear : BagEvent Record) ∉ later := by
    intro hmem
    simp [later] at hmem
  have hfull : b.isEmpty = false := by decide +kernel
  exact ⟨by decide +kernel,
    htable t.clear (List.mem_cons_of_mem _ List.mem_cons_self) ops (by decide) (by decide +kernel),
    by decide +kernel, by decide +kernel,
    hbag b.clear (.inr ⟨hfull, rfl⟩) later hkept (by decide +kernel)⟩

-- A fourth element is one too many.
example :
    let a (n : UInt64) : Record := ⟨⟨n⟩, 0, ⟨1⟩, ""⟩
    (IdentTable.withLoad 3 20).rebuildCount
      [.insert (a 1), .insert (a 2), .insert (a 3), .insert (a 4)] = 1 := by
  decide +kernel

end SnapshotIndex
