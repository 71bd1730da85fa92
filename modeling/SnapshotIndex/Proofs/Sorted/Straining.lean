import Mathlib.Data.Bool.Count
import SnapshotIndex.Proofs.Snapshot.Alike
import SnapshotIndex.Proofs.Snapshot.Idle
import SnapshotIndex.Proofs.Sorted.Reachable

/-!
# Retaining in a single pass

A sieve may answer by what it remembers, so that it matters how often it is asked
and in which order.  An index looks first whether anything is refused at all, lest
its content be copied for nothing.  Only then does it strain its elements, and by
then the sieve has been asked about the first of them and must not be asked about
these again.

`SortedIndex.retain_eq` says that the two passes come to one.  So everything is told
by the answers that a sieve gives when it goes through the elements once, from the
first to the last (`Sieve.answers`).  A sieve that also records what it is asked
(`Sieve.logged`) is a sieve like any other.  What it remembers after the two passes
shows how often the elements were in fact asked about.

`retain_single_pass` is about every index, whoever holds snapshots of it.
-/

namespace SnapshotIndex

/-! ## One pass -/

namespace Sieve

variable {σ α : Type} (sieve : Sieve σ α)

/-- The answers of a sieve that is asked about some elements in order, and what it
remembers in the end. -/
def answers (xs : List α) (state : σ) : List Bool × σ :=
  runAll (fun state a => sieve a state) state xs

/-- The same sieve with a record of what it was asked and what it has answered. -/
def logged : Sieve (σ × List (α × Bool)) α := fun a (state, log) =>
  ((sieve a state).1, ((sieve a state).2, log ++ [(a, (sieve a state).1)]))

/-- The elements that have been answered with yes. -/
def accepted (xs : List α) (answers : List Bool) : List α :=
  ((xs.zip answers).filter Prod.snd).map Prod.fst

variable {sieve}

theorem strain_cons (a : α) (rest : List α) (state : σ) : sieve.strain (a :: rest) state =
    (if (sieve a state).1 then a :: (sieve.strain rest (sieve a state).2).1
      else (sieve.strain rest (sieve a state).2).1, (sieve.strain rest (sieve a state).2).2) := rfl

theorem answers_cons (a : α) (rest : List α) (state : σ) : sieve.answers (a :: rest) state =
    ((sieve a state).1 :: (sieve.answers rest (sieve a state).2).1,
      (sieve.answers rest (sieve a state).2).2) := rfl

theorem length_answers (xs : List α) (state : σ) :
    (sieve.answers xs state).1.length = xs.length := by
  induction xs generalizing state with
  | nil => rfl
  | cons a rest ih => exact congrArg Nat.succ (ih (sieve a state).2)

/-- To strain some elements is to keep those that the sieve accepts. -/
theorem strain_eq (xs : List α) (state : σ) :
    sieve.strain xs state =
      (accepted xs (sieve.answers xs state).1, (sieve.answers xs state).2) := by
  induction xs generalizing state with
  | nil => rfl
  | cons a rest ih =>
    rw [strain_cons, answers_cons, ih]
    cases (sieve a state).1 with
    | false => rfl
    | true => rfl

/-- The record makes no difference to the sieve, and grows by what is asked. -/
theorem strain_logged (xs : List α) (state : σ) (log : List (α × Bool)) :
    sieve.logged.strain xs (state, log) = ((sieve.strain xs state).1,
      ((sieve.strain xs state).2, log ++ xs.zip (sieve.answers xs state).1)) := by
  induction xs generalizing state log with
  | nil => exact congrArg (fun l => ([], (state, l))) (List.append_nil log).symm
  | cons a rest ih =>
    have hasks : sieve.logged a (state, log) =
        ((sieve a state).1, ((sieve a state).2, log ++ [(a, (sieve a state).1)])) := rfl
    rw [strain_cons, strain_cons, answers_cons, hasks, ih, List.zip_cons_cons,
      List.append_assoc, List.singleton_append]

omit sieve in
theorem length_accepted {xs : List α} {answers : List Bool} (h : answers.length = xs.length) :
    (accepted xs answers).length = answers.count true := by
  have hanswers : (xs.zip answers).map Prod.snd = answers := List.map_snd_zip (Nat.le_of_eq h)
  calc (accepted xs answers).length
      = (xs.zip answers).countP Prod.snd := by
        rw [accepted, List.length_map, List.countP_eq_length_filter]
    _ = ((xs.zip answers).map Prod.snd).countP (· == true) := by
        rw [List.countP_map]
        exact List.countP_congr fun x _ => by simp
    _ = answers.count true := by rw [hanswers, List.count]

/-- What is not kept has been refused. -/
theorem length_sub_strain (xs : List α) (state : σ) :
    xs.length - (sieve.strain xs state).1.length = (sieve.answers xs state).1.count false := by
  have hlength : (sieve.answers xs state).1.length = xs.length := length_answers xs state
  have hboth := List.count_true_add_count_false (sieve.answers xs state).1
  rw [strain_eq, length_accepted hlength]
  omega

end Sieve

/-! ## Retaining -/

variable {α σ : Type}

/-- What `retain` does, told by the answers of the sieve in one pass. -/
structure SortedIndex.RetainsInOnePass (order : KeyOrder α) [Identified α] (s : SortedIndex α)
    (sieve : Sieve σ α) (state : σ) : Prop where
  /-- The elements come in the order of the index. -/
  in_order : Std.TransCmp order.keys → order.Increasing s.toList
  /-- A record makes no difference to what is retained, nor to what is remembered. -/
  unnoticed : (s.retain sieve.logged (state, [])).1 = (s.retain sieve state).1 ∧
    (s.retain sieve.logged (state, [])).2.1 = (s.retain sieve state).2
  /-- The sieve is asked about each element once, from the first to the last. -/
  asked : (s.retain sieve.logged (state, [])).2.2.map Prod.fst = s.toList
  /-- It answers as it does in one pass. -/
  answered :
    (s.retain sieve.logged (state, [])).2.2.map Prod.snd = (sieve.answers s.toList state).1
  /-- And it remembers what it does then. -/
  remembered : (s.retain sieve state).2 = (sieve.answers s.toList state).2
  /-- What it accepts is kept, in order. -/
  kept : (s.retain sieve state).1.2.toList =
    Sieve.accepted s.toList (sieve.answers s.toList state).1
  /-- What it refuses is counted. -/
  counted : (s.retain sieve state).1.1 = (sieve.answers s.toList state).1.count false
  /-- If nothing is refused the index stays as it is, with the store that it has. -/
  untouched : (s.retain sieve state).1.1 = 0 → (s.retain sieve state).1.2 = s
  /-- An index that differs in its snapshots alone gives the same answers, and the two
  differ in no more afterwards. -/
  alike : ∀ t : SortedIndex α, s.Alike Eq t →
    (s.retain sieve state).1.1 = (t.retain sieve state).1.1 ∧
      (s.retain sieve state).2 = (t.retain sieve state).2 ∧
      (s.retain sieve state).1.2.Alike Eq (t.retain sieve state).1.2

namespace SortedIndex

variable (s : SortedIndex α) (sieve : Sieve σ α) (state : σ)

theorem retain_of_removed_eq_zero (h : (s.retain sieve state).1.1 = 0) :
    (s.retain sieve state).1.2 = s := by
  rw [removed_retain] at h
  have hsub := strain_sublist sieve s.toList state
  have hle := hsub.length_le
  exact retain_of_all (hsub.eq_of_length (by omega))

/-- A sieve with a record retains the same, and in the end has a record of one pass. -/
theorem retain_logged : s.retain sieve.logged (state, []) = ((s.retain sieve state).1,
    ((s.retain sieve state).2, s.toList.zip (sieve.answers s.toList state).1)) := by
  rw [s.retain_eq, s.retain_eq, Sieve.strain_logged, List.nil_append]

theorem retainsInOnePass [Identified α] {order : KeyOrder α}
    (h : Std.TransCmp order.keys → order.Increasing s.toList) :
    s.RetainsInOnePass order sieve state := by
  have hlength : (sieve.answers s.toList state).1.length = s.toList.length :=
    Sieve.length_answers s.toList state
  constructor
  · exact h
  · rw [retain_logged]
    exact ⟨rfl, rfl⟩
  · rw [retain_logged]
    exact List.map_fst_zip (Nat.le_of_eq hlength.symm)
  · rw [retain_logged]
    exact List.map_snd_zip (Nat.le_of_eq hlength)
  · rw [memory_retain, Sieve.strain_eq]
  · rw [toList_retain, Sieve.strain_eq]
  · rw [removed_retain, Sieve.length_sub_strain]
  · exact s.retain_of_removed_eq_zero sieve state
  · intro t ht
    exact alike_retain ht sieve state

end SortedIndex

/-- Whatever a sieve remembers from one element to the next, an index retains what it
would let pass in a single pass, whatever the index has been through and whoever holds
snapshots of it. -/
theorem retain_single_pass [Identified α] (order : KeyOrder α)
    (ops : List (Interleaved (SortedArray α) (SortedOp α))) (sieve : Sieve σ α) (state : σ) :
    (SortedIndex.reached order ops).RetainsInOnePass order sieve state :=
  (SortedIndex.reached order ops).retainsInOnePass sieve state fun _ =>
    (shows_reached order ops).increasing

end SnapshotIndex
