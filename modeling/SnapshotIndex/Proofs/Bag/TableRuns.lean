import SnapshotIndex.Proofs.Table.Rebuilds
import SnapshotIndex.Proofs.Traversal.Marks

/-!
# What happens to the table of a bag

Whatever happens to a bag carries out at most one operation on its table.  Which
one it is may depend on snapshots, because a bag that is cleared empties a table
that nobody else holds and replaces one that is shared; a capture or a drop carries
out none, and a copy is as good as the table that was copied.  So a bag that
something happens to has a table on which the operations of `tableRun` were carried
out (`content_events`), and what holds of every run of a table holds of bags.  When it
is cleared it has a table that was emptied or exchanged (`content_clear_of_emptied`).

Insertions succeed on a bag as they do on its table (`additions_eq`), and unless the
bag is cleared, elements are moved when the table is rebuilt (`relocations_eq`).
-/

namespace SnapshotIndex

open Identified (ident)

variable {α : Type} [Identified α]

namespace Bag

/-- The operation that an event carries out on the table of a bag. -/
def tableOp? (b : Bag α) : BagEvent α → Option (TableOp α)
  | .act (.insert a) => some (.insert a)
  | .act (.remove a) => some (.remove a)
  | .act .clear => if b.isEmpty then none else some (if b.store.isShared then .replace else .clear)
  | .hold _ => none
  | .release _ => none

/-- The operations that some events carry out on the table of a bag. -/
def tableRun (b : Bag α) : List (BagEvent α) → List (TableOp α)
  | [] => []
  | event :: events => (b.tableOp? event).toList ++ (b.undergo event).tableRun events

/-- Whether an event is an insertion that succeeds. -/
def adds (b : Bag α) : BagEvent α → Bool
  | .act (.insert a) => (b.insert a).1
  | _ => false

/-- How many insertions succeed in the course of some events. -/
def additions (b : Bag α) : List (BagEvent α) → Nat
  | [] => 0
  | event :: events => (b.adds event).toNat + (b.undergo event).additions events

variable {b : Bag α} {events : List (BagEvent α)}

theorem content_insert (b : Bag α) (a : α) : (b.insert a).2.content = (b.content.insert a).2 := by
  unfold insert contains
  split
  · rename_i hheld
    rw [IdentTable.insert, if_pos hheld]
  · exact Tracked.content_attempt _ _

theorem content_remove (b : Bag α) (a : α) : (b.remove a).2.content = (b.content.remove a).2 := by
  unfold remove
  split
  · exact Tracked.content_attempt _ _
  · rename_i hnew
    -- nothing is found, so that the table stays as it is
    change b.content = (b.content.take (ident a)).2
    unfold IdentTable.take
    split
    · rename_i slot hprobe
      exact absurd (by rw [contains, IdentTable.contains, IdentTable.hasIdent, hprobe]) hnew
    · rfl

omit [Identified α] in
theorem content_clear (b : Bag α) : b.clear.content =
    if b.isEmpty then b.content
    else if b.store.isShared then b.content.emptyLike else b.content.clear := by
  unfold clear
  split
  · rfl
  · exact Tracked.content_renew _ _ _

theorem content_undergo (b : Bag α) (event : BagEvent α) :
    (b.undergo event).content =
      (runAll IdentTable.perform b.content (b.tableOp? event).toList).2 := by
  cases event with
  | act op =>
    cases op with
    | insert a => exact b.content_insert a
    | remove a => exact b.content_remove a
    | clear =>
      change b.clear.content = _
      rw [content_clear, tableOp?]
      split
      · rfl
      · split <;> rfl
  | hold s => exact Tracked.content_hold b s
  | release s => exact Tracked.content_release b s

/-- The table of a bag comes about by the operations of tables. -/
theorem content_events (b : Bag α) (events : List (BagEvent α)) :
    (events.foldl undergo b).content =
      (runAll IdentTable.perform b.content (b.tableRun events)).2 := by
  induction events generalizing b with
  | nil => rfl
  | cons event events ih =>
    rw [List.foldl_cons, ih, tableRun, runAll_append_snd, content_undergo]

/-- What holds of every table that was emptied or exchanged holds of the table of a
bag that was cleared. -/
theorem content_clear_of_emptied {P : IdentTable α → Prop} (config : Config)
    (hemptied : ∀ history : List (TableOp α),
      let t := (runAll IdentTable.perform
        (.withLoad config.bagCapacity config.loadPercent) history).2
      P t.clear ∧ P t.emptyLike)
    (events : List (BagEvent α))
    (hfull : (events.foldl undergo (ofConfig config)).isEmpty = false) :
    P (events.foldl undergo (ofConfig config)).clear.content := by
  obtain ⟨hcleared, hexchanged⟩ := hemptied ((ofConfig config).tableRun events)
  have hcontent : (events.foldl undergo (ofConfig config)).content = (runAll IdentTable.perform
      (.withLoad config.bagCapacity config.loadPercent)
      ((ofConfig config).tableRun events)).2 := content_events (ofConfig config) events
  rw [← hcontent] at hcleared hexchanged
  rw [content_clear, if_neg (Bool.eq_false_iff.mp hfull)]
  split
  · exact hexchanged
  · exact hcleared

theorem adds_eq (h : b.content.WellFormed) (event : BagEvent α) :
    (b.adds event).toNat = b.content.additions (b.tableOp? event).toList := by
  cases event with
  | act op =>
    cases op with
    | insert a =>
      obtain ⟨-, -, hadded, -⟩ := h.insert a
      change (b.insert a).1.toNat = (b.content.insert a).1.toNat + 0
      rw [hadded, insert_fst h]
      rfl
    | remove a => rfl
    | clear =>
      simp only [tableOp?]
      split
      · rfl
      · split <;> rfl
  | hold s => rfl
  | release s => rfl

/-- Insertions succeed on a bag as they do on its table. -/
theorem additions_eq (h : b.content.WellFormed) (events : List (BagEvent α)) :
    b.additions events = b.content.additions (b.tableRun events) := by
  induction events generalizing b with
  | nil => rfl
  | cons event events ih =>
    rw [additions, tableRun, ih (wellFormed_undergo h event), adds_eq h, content_undergo]
    exact (occasions_append _ _ _ _ _).symm

/-- Unless a bag is cleared, the operations on its table are on single elements. -/
theorem single_tableRun (hkept : .act .clear ∉ events) : ∀ op ∈ b.tableRun events, op.Single := by
  induction events generalizing b with
  | nil => exact fun op hop => absurd hop List.not_mem_nil
  | cons event events ih =>
    have hlater := ih (b := b.undergo event) fun hmem => hkept (List.mem_cons_of_mem event hmem)
    intro op hop
    rcases List.mem_append.mp hop with hhere | hrest
    · cases event with
      | act op' =>
        cases op' with
        | insert a =>
          obtain rfl := List.mem_singleton.mp hhere
          trivial
        | remove a =>
          obtain rfl := List.mem_singleton.mp hhere
          trivial
        | clear => exact absurd List.mem_cons_self hkept
      | hold s => exact absurd hhere List.not_mem_nil
      | release s => exact absurd hhere List.not_mem_nil
    · exact hlater op hrest

/-- Unless a bag is cleared, its elements are moved when its table is rebuilt. -/
theorem relocations_eq (hkept : .act .clear ∉ events) :
    b.relocations events = b.content.rebuildCount (b.tableRun events) := by
  induction events generalizing b with
  | nil => rfl
  | cons event events ih =>
    have hlater := ih (b := b.undergo event) fun hmem => hkept (List.mem_cons_of_mem event hmem)
    have hhere : b.content.rebuildCount (b.tableRun (event :: events)) =
        b.content.rebuildCount (b.tableOp? event).toList +
          (b.undergo event).relocations events := by
      rw [hlater, content_undergo]
      exact occasions_append _ _ _ _ _
    rw [hhere]
    cases event with
    | act op =>
      cases op with
      | insert a =>
        change (b.content.crowdedBy a).toNat + _ = (b.content.rebuilds (.insert a)).toNat + 0 + _
        rw [IdentTable.rebuilds_insert]
        rfl
      | remove a => rfl
      | clear => exact absurd List.mem_cons_self hkept
    | hold s => exact (Nat.zero_add _).symm
    | release s => exact (Nat.zero_add _).symm

end Bag

end SnapshotIndex
