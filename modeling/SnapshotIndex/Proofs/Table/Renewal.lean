import SnapshotIndex.Proofs.Table.Generations
import SnapshotIndex.Proofs.Table.Growth

/-!
# Emptied tables are as good as new

A table becomes empty in three ways.  If it has not grown it is emptied in place,
if it has grown it goes back to its initial size, and if its elements are still
read elsewhere it is left behind for an empty one.  Whatever one of these ways
forgets to reset would not show at once, but many insertions later, when the table
is rebuilt too early or has its elements in other slots.

Nothing is forgotten, except that the generation goes on.  An emptied table is a
new one that is so many generations old (`emptied_eq`), and no operation looks at
the generation (`perform_aged`), so that the two go through every run side by side.

* `Outcome`: what can be seen of an operation.
* `AsNew`: that a table goes through every run like another one.
-/

namespace SnapshotIndex

open Identified (ident)

/-- What can be seen of an operation, during and after it. -/
structure Outcome (α : Type) where
  answer : TableAnswer α
  /-- The elements afterwards, in the order in which they are visited. -/
  elements : List α
  /-- What a search finds afterwards. -/
  found : Ident → Option α
  /-- The number of slots afterwards. -/
  size : Nat
  /-- Whether the elements may have moved to other slots. -/
  moved : Bool

/-- What can be seen of an operation with this answer that makes one table out of
another one. -/
def Outcome.of {α : Type} [Identified α] (answer : TableAnswer α) (t u : IdentTable α) :
    Outcome α :=
  ⟨answer, u.toList, u.get?, u.size, decide (t.generation < u.generation)⟩

namespace IdentTable

variable {α : Type} [Identified α]

/-- Carries out one operation and looks at it. -/
def watch (t : IdentTable α) (op : TableOp α) : Outcome α × IdentTable α :=
  (.of (t.perform op).1 t (t.perform op).2, (t.perform op).2)

/-- What makes a table as good as another one that is younger by `n` generations. -/
structure AsNew (t fresh : IdentTable α) (n : Nat) : Prop where
  /-- In every run the same can be seen of every operation. -/
  shown : ∀ ops, (runAll watch t ops).1 = (runAll watch fresh ops).1
  /-- Every run ends in the same table, apart from the generations. -/
  ended : ∀ ops, (runAll watch t ops).2 = (runAll watch fresh ops).2.aged n

/-! ## Tables of different ages -/

theorem perform_aged (t : IdentTable α) (n : Nat) (op : TableOp α) :
    (t.aged n).perform op = ((t.perform op).1, (t.perform op).2.aged n) := by
  cases op with
  | insert a => rw [perform, insert_aged, perform]
  | remove a => rw [perform, remove_aged, perform]
  | take id => rw [perform, take_aged, perform]
  | clear => rw [perform, clear_aged, perform]
  | replace => rw [perform, emptyLike_aged, perform]

/-- How old the tables are cannot be seen. -/
theorem outcome_aged (answer : TableAnswer α) (t u : IdentTable α) (n : Nat) :
    Outcome.of answer (t.aged n) (u.aged n) = .of answer t u := by
  have hmoved : decide ((t.aged n).generation < (u.aged n).generation) =
      decide (t.generation < u.generation) := decide_eq_decide.mpr (Nat.add_lt_add_iff_right)
  have hfound : (u.aged n).get? = u.get? := funext (u.get?_aged n)
  rw [Outcome.of, toList_aged, size_aged, hmoved, hfound, Outcome.of]

theorem watch_aged (t : IdentTable α) (n : Nat) (op : TableOp α) :
    (t.aged n).watch op = ((t.watch op).1, (t.watch op).2.aged n) := by
  rw [watch, perform_aged, outcome_aged, watch]

/-- A table is as good as it was so many generations ago. -/
theorem asNew_aged (t : IdentTable α) (n : Nat) : (t.aged n).AsNew t n := by
  let Older (u v : IdentTable α) : Prop := u = v.aged n
  have hstep : ∀ u v op, Older u v →
      (watch u op).1 = (watch v op).1 ∧ Older (watch u op).2 (watch v op).2 := by
    rintro u v op rfl
    rw [watch_aged]
    exact ⟨rfl, rfl⟩
  have hstart : Older (t.aged n) t := rfl
  exact ⟨fun ops => (runAll_simulates hstep hstart ops).1,
    fun ops => (runAll_simulates hstep hstart ops).2⟩

/-! ## Empty tables -/

omit [Identified α] in
/-- Tables that differ in their generation alone are of different ages. -/
theorem eq_aged_of_ageless_eq {t u : IdentTable α} {n : Nat} (hsame : t.ageless = u.ageless)
    (hgeneration : t.generation = u.generation + n) : t = u.aged n := by
  cases t
  cases u
  simp only [ageless, mk.injEq] at hsame
  obtain ⟨rfl, rfl, rfl, rfl, rfl, -⟩ := hsame
  simp only [aged, mk.injEq, true_and]
  exact hgeneration

/-- An emptied table is a new one of some age. -/
theorem emptied_eq (capacity load : Nat) (history : List (TableOp α)) :
    let fresh : IdentTable α := withLoad capacity load
    let t := (runAll perform fresh history).2
    t.clear = fresh.aged t.clear.generation ∧ t.emptyLike = fresh.aged t.emptyLike.generation := by
  intro fresh t
  obtain ⟨hwell, hinitial⟩ := wellFormed_of_run (α := α) capacity load history
  have hload : t.load = clampLoad load := load_of_run capacity load history
  have hexchanged : t.emptyLike.ageless = fresh.ageless := by
    change IdentTable.mk (emptySlots t.initialSize) 0 0 t.initialSize t.load 0 = _
    rw [hinitial, hload, size_withLoad]
    rfl
  have hemptied : t.clear.ageless = t.emptyLike.ageless := by
    change IdentTable.mk t.clear.slots 0 0 t.initialSize t.load 0 = _
    rw [hwell.slots_clear]
    rfl
  exact ⟨eq_aged_of_ageless_eq (hemptied.trans hexchanged) (Nat.zero_add _).symm,
    eq_aged_of_ageless_eq hexchanged (Nat.zero_add _).symm⟩

omit [Identified α] in
/-- A table never gets younger by being emptied. -/
theorem generation_le_emptied (t : IdentTable α) :
    t.generation ≤ t.clear.generation ∧ t.generation ≤ t.emptyLike.generation :=
  ⟨by rw [generation_clear]; exact Nat.le_add_right _ _, Nat.le_succ _⟩

end IdentTable

end SnapshotIndex
