import SnapshotIndex.Element.Record
import SnapshotIndex.Proofs.Snapshot.Changes
import SnapshotIndex.Proofs.Snapshot.Interleaving
import SnapshotIndex.Proofs.Table.Operations
import SnapshotIndex.Proofs.Table.Relocation

/-!
# Marks keep their meaning or lose it

A mark is a slot number with a generation.  As long as the table of the bag is
of this generation no element has moved, and the mark reads the element that it
read at first, unless this one is removed.  From the first time on that elements
may have moved, the table is of a later generation, and the mark reads nothing:
generations only go up, so no later table is of the generation of the mark again.

There is one mark that nobody has stamped, the one that a stale mark leads to.
Its generation is 0, and on a table of generation 0 it leads to the first
element.  It is no way back from a stale mark, though: a mark is never of a
later generation than the table (`Marked.generation_le`), so that a stale one
means that the table is past generation 0.

* `generation_perform`: an operation raises the generation exactly if it moves
  elements, and a copy is of the generation of what it is a copy of.
* `element?_perform`: an operation that moves nothing leaves in its slot whatever
  it does not remove.
* `mark_keeps_meaning`: over every run, with snapshots held as you like.
-/

namespace SnapshotIndex

open Identified (ident)

variable {α : Type}

/-! ## What happens to a bag -/

/-- The operations that change a bag. -/
inductive BagOp (α : Type)
  | insert (a : α)
  | remove (a : α)
  | clear

/-- What happens to a bag: it is changed, or snapshots of it are captured and let
go. -/
abbrev BagEvent (α : Type) : Type := Interleaved (IdentTable α) (BagOp α)

section Identity

variable [Identified α]

/-- Whether an operation removes an element that is there. -/
def BagOp.Removes (x : α) : BagOp α → Prop
  | insert _ => False
  | remove a => ident a = ident x
  | clear => True

namespace Bag

/-- Carries out one operation on a bag. -/
def perform (b : Bag α) : BagOp α → Bag α
  | .insert a => (b.insert a).2
  | .remove a => (b.remove a).2
  | .clear => b.clear

/-- Whether an operation gives a bag another table or moves the elements of the
one it has: an insertion that finds it crowded, and a clear that finds it shared
or grown. -/
def relocates (b : Bag α) : BagOp α → Bool
  | .insert a => b.content.crowdedBy a
  | .remove _ => false
  | .clear => !b.isEmpty && (b.store.isShared || decide (b.content.initialSize < b.content.size))

/-- A bag after one event. -/
def undergo (b : Bag α) : BagEvent α → Bag α
  | .act op => b.perform op
  | .hold s => b.hold s
  | .release s => b.release s

/-- How often the elements are moved in the course of some events. -/
def relocations (b : Bag α) : List (BagEvent α) → Nat
  | [] => 0
  | .act op :: events => (b.relocates op).toNat + (b.perform op).relocations events
  | .hold s :: events => relocations (b.hold s) events
  | .release s :: events => relocations (b.release s) events

/-! ## Generations -/

variable {b : Bag α}

theorem generation_perform (b : Bag α) (op : BagOp α) :
    (b.perform op).content.generation = b.content.generation + (b.relocates op).toNat := by
  cases op with
  | insert a =>
    change (b.insert a).2.content.generation = _ + (b.content.crowdedBy a).toNat
    unfold insert
    split
    · rename_i hheld
      rw [IdentTable.crowdedBy, show b.content.contains a = true from hheld]
      rfl
    · rw [Tracked.content_attempt, b.content.generation_insert]
  | remove a =>
    simp only [perform, relocates, remove]
    split
    · rw [Tracked.content_attempt]
      exact b.content.generation_take _
    · rfl
  | clear =>
    simp only [perform, relocates, clear]
    split
    · rename_i hempty
      rw [hempty]
      rfl
    · rename_i hfull
      rw [Tracked.content_renew, Bool.eq_false_iff.mpr hfull, Bool.not_false, Bool.true_and]
      split
      · rename_i hshared
        rw [hshared, Bool.true_or]
        rfl
      · rename_i hshared
        rw [Bool.eq_false_iff.mpr hshared, Bool.false_or, b.content.generation_clear]

/-- The generation counts how often the elements were moved. -/
theorem generation_run (b : Bag α) (events : List (BagEvent α)) :
    (events.foldl undergo b).content.generation = b.content.generation + b.relocations events := by
  induction events generalizing b with
  | nil => rfl
  | cons event events ih =>
    cases event with
    | act op =>
      calc (events.foldl undergo (b.perform op)).content.generation
          = (b.perform op).content.generation + (b.perform op).relocations events := ih _
        _ = b.content.generation + (b.relocates op).toNat +
            (b.perform op).relocations events := by rw [b.generation_perform op]
        _ = b.content.generation + b.relocations (.act op :: events) := Nat.add_assoc _ _ _
    | hold s =>
      calc (events.foldl undergo (b.hold s)).content.generation
          = (b.hold s).content.generation + relocations (b.hold s) events := ih _
        _ = b.content.generation + b.relocations (.hold s :: events) := by
          rw [Tracked.content_hold]
          rfl
    | release s =>
      calc (events.foldl undergo (b.release s)).content.generation
          = (b.release s).content.generation + relocations (b.release s) events := ih _
        _ = b.content.generation + b.relocations (.release s :: events) := by
          rw [Tracked.content_release]
          rfl

/-! ## Slots -/

theorem wellFormed_perform (h : b.content.WellFormed) (op : BagOp α) :
    (b.perform op).content.WellFormed := by
  cases op with
  | insert a => exact b.wellFormed_insert h a
  | remove a => exact b.wellFormed_remove h a
  | clear => exact b.wellFormed_clear h

theorem wellFormed_undergo (h : b.content.WellFormed) (event : BagEvent α) :
    (b.undergo event).content.WellFormed := by
  cases event with
  | act op => exact wellFormed_perform h op
  | hold s =>
    simp only [undergo, Tracked.content_hold]
    exact h
  | release s =>
    simp only [undergo, Tracked.content_release]
    exact h

/-- An operation that moves nothing leaves an element in its slot, unless it
removes it.  It makes no difference whether the table is copied for this. -/
theorem element?_perform (h : b.content.WellFormed) {op : BagOp α} {x : α} {i : Nat}
    (hstays : b.relocates op = false) (hkept : ¬ op.Removes x)
    (hx : b.content.element? i = some x) : (b.perform op).content.element? i = some x := by
  cases op with
  | insert a =>
    simp only [perform, insert]
    split
    · exact hx
    · rw [Tracked.content_attempt]
      exact h.element?_insert hstays hx
  | remove a =>
    simp only [perform, remove]
    split
    · rw [Tracked.content_attempt]
      exact h.element?_take (Ne.symm hkept) hx
    · exact hx
  | clear => exact absurd trivial hkept

/-- As long as nothing is moved, an element stays in its slot until it is
removed. -/
theorem element?_run (h : b.content.WellFormed) {x : α} {i : Nat}
    (hx : b.content.element? i = some x) {events : List (BagEvent α)}
    (hkept : ∀ op, .act op ∈ events → ¬ op.Removes x) (hstays : b.relocations events = 0) :
    (events.foldl undergo b).content.element? i = some x := by
  induction events generalizing b with
  | nil => exact hx
  | cons event events ih =>
    have hlater : ∀ op, .act op ∈ events → ¬ op.Removes x :=
      fun op hop => hkept op (List.mem_cons_of_mem _ hop)
    have hnext := wellFormed_undergo h event
    cases event with
    | act op =>
      obtain ⟨hhere, hrest⟩ := Nat.add_eq_zero_iff.mp hstays
      have hstep := element?_perform h (Bool.toNat_eq_zero.mp hhere)
        (hkept op List.mem_cons_self) hx
      exact ih hnext hstep hlater hrest
    | hold s =>
      refine ih hnext ?_ hlater hstays
      simp only [undergo, Tracked.content_hold]
      exact hx
    | release s =>
      refine ih hnext ?_ hlater hstays
      simp only [undergo, Tracked.content_release]
      exact hx

end Bag

/-! ## Marks -/

/-- The ways to get a mark, the last two of them from another mark. -/
inductive MarkMove
  | first
  | last
  | next
  | prev

/-- What happens to a bag and to a mark that someone has of it. -/
inductive MarkEvent (α : Type)
  | event (e : BagEvent α)
  | move (m : MarkMove)

/-- Whether an event leaves a mark where it is or moves it on from there. -/
def MarkEvent.Derives : MarkEvent α → Prop
  | move .first | move .last => False
  | _ => True

namespace Bag

/-- Where a move leads from a mark. -/
def move (b : Bag α) (m : Mark) : MarkMove → Mark
  | .first => b.first
  | .last => b.last
  | .next => b.next m
  | .prev => b.prev m

/-- A bag and a mark after one event. -/
def follow (x : Bag α × Mark) : MarkEvent α → Bag α × Mark
  | .event e => (x.1.undergo e, x.2)
  | .move m => (x.1, x.1.move x.2 m)

variable {b : Bag α} {m : Mark}

theorem get?_eq_some_iff {x : α} : b.get? m = some x ↔
    m.generation = b.content.generation ∧ ∃ i, m.slot = .nth i ∧ b.content.element? i = some x := by
  unfold get? place?
  constructor
  · intro hget
    obtain ⟨p, hplace, hp⟩ := Option.bind_eq_some_iff.mp hget
    obtain ⟨i, hi, hx⟩ := Option.bind_eq_some_iff.mp hp
    split at hplace
    · rename_i hsame
      obtain rfl := Option.some.inj hplace
      refine ⟨hsame, i, ?_, hx⟩
      cases hslot : m.slot with
      | before =>
        rw [hslot] at hi
        exact absurd hi (Option.some_ne_none i).symm
      | nth k =>
        rw [hslot] at hi
        exact congrArg Position.nth (Option.some.inj hi)
    · exact absurd hplace (Option.some_ne_none p).symm
  · rintro ⟨hsame, i, hslot, hx⟩
    rw [if_pos hsame, hslot]
    exact hx

/-- A mark of another generation reads nothing. -/
theorem get?_of_ne (h : m.generation ≠ b.content.generation) :
    b.isValid m = false ∧ b.get? m = none := by
  have hget : b.get? m = none := by
    rw [get?, place?, if_neg h]
    rfl
  refine ⟨?_, hget⟩
  rw [isValid, hget]
  rfl

/-- A bag with a well-formed table, and a mark that someone may have of it. -/
structure Marked (b : Bag α) (m : Mark) : Prop where
  wellFormed : b.content.WellFormed
  generation_le : m.generation ≤ b.content.generation

theorem Marked.move (h : b.Marked m) (step : MarkMove) : b.Marked (b.move m step) := by
  have hinvalid : b.Marked .invalid := ⟨h.wellFormed, Nat.zero_le _⟩
  have hstamped : ∀ p, b.Marked (b.mark p) := fun p => ⟨h.wellFormed, Nat.le_refl _⟩
  cases step with
  | first => exact hstamped _
  | last => exact hstamped _
  | next =>
    simp only [Bag.move, next]
    split
    · exact hstamped _
    · exact hinvalid
  | prev =>
    simp only [Bag.move, prev]
    split
    · exact hstamped _
    · exact hinvalid

theorem generation_le_undergo (b : Bag α) (event : BagEvent α) :
    b.content.generation ≤ (b.undergo event).content.generation := by
  rw [show b.undergo event = [event].foldl undergo b from rfl, b.generation_run]
  exact Nat.le_add_right _ _

theorem Marked.follow (h : b.Marked m) (event : MarkEvent α) :
    (Bag.follow (b, m) event).1.Marked (Bag.follow (b, m) event).2 := by
  cases event with
  | event e =>
    exact ⟨wellFormed_undergo h.wellFormed e,
      Nat.le_trans h.generation_le (b.generation_le_undergo e)⟩
  | move step => exact h.move step

theorem Marked.run (h : b.Marked m) (events : List (MarkEvent α)) :
    (events.foldl Bag.follow (b, m)).1.Marked (events.foldl Bag.follow (b, m)).2 := by
  induction events generalizing b m with
  | nil => exact h
  | cons event events ih => exact ih (h.follow event)

/-! ## Stale marks -/

/-- Nothing leads from a stale mark to one that is not stale, but to begin anew. -/
theorem stale_follow (h : m.generation < b.content.generation) {event : MarkEvent α}
    (hderives : event.Derives) :
    (Bag.follow (b, m) event).2.generation < (Bag.follow (b, m) event).1.content.generation := by
  have hinvalid : Mark.invalid.generation < b.content.generation := Nat.zero_lt_of_lt h
  have hplace : b.place? m = none := if_neg (Nat.ne_of_lt h)
  cases event with
  | event e => exact Nat.lt_of_lt_of_le h (b.generation_le_undergo e)
  | move step =>
    cases step with
    | first => exact hderives.elim
    | last => exact hderives.elim
    | next =>
      simp only [Bag.follow, Bag.move, next, hplace]
      exact hinvalid
    | prev =>
      simp only [Bag.follow, Bag.move, prev, hplace]
      exact hinvalid

theorem stale_run (h : m.generation < b.content.generation) {events : List (MarkEvent α)}
    (hderives : ∀ event ∈ events, event.Derives) :
    (events.foldl Bag.follow (b, m)).2.generation <
      (events.foldl Bag.follow (b, m)).1.content.generation := by
  induction events generalizing b m with
  | nil => exact h
  | cons event events ih =>
    exact ih (stale_follow h (hderives event List.mem_cons_self)) fun e he =>
      hderives e (List.mem_cons_of_mem _ he)

/-! ## Runs -/

/-- What a mark means for the rest of the life of a bag. -/
structure KeepsMeaning (b : Bag α) (m : Mark) : Prop where
  /-- As long as no elements are moved it reads the element that it reads now, if
  this one is never removed. -/
  same : ∀ x, b.get? m = some x → ∀ later : List (BagEvent α),
    (∀ op, .act op ∈ later → ¬ op.Removes x) → b.relocations later = 0 →
      (later.foldl undergo b).get? m = some x
  /-- Once any are moved it reads nothing. -/
  lost : ∀ later : List (BagEvent α), b.relocations later ≠ 0 →
    (later.foldl undergo b).isValid m = false ∧ (later.foldl undergo b).get? m = none
  /-- If it is stale it stays stale and reads nothing, and so does whatever mark
  it leads to. -/
  stale : m.generation ≠ b.content.generation → ∀ later : List (MarkEvent α),
    (∀ event ∈ later, event.Derives) →
      let x := later.foldl Bag.follow (b, m)
      x.2.generation ≠ x.1.content.generation ∧ x.1.isValid x.2 = false ∧ x.1.get? x.2 = none

theorem Marked.keepsMeaning (h : b.Marked m) : b.KeepsMeaning m where
  same x hx later hkept hstays := by
    obtain ⟨hsame, i, hslot, hx⟩ := get?_eq_some_iff.mp hx
    refine get?_eq_some_iff.mpr ⟨?_, i, hslot, element?_run h.wellFormed hx hkept hstays⟩
    rw [b.generation_run, hstays]
    exact hsame
  lost later hmoved := by
    apply get?_of_ne
    rw [b.generation_run]
    have hle := h.generation_le
    omega
  stale hne later hderives := by
    have hlt := Nat.lt_of_le_of_ne h.generation_le hne
    have hstale := Nat.ne_of_lt (stale_run hlt hderives)
    exact ⟨hstale, get?_of_ne hstale⟩

end Bag

/-- A mark keeps its meaning or loses it for good.  This holds of every mark to
which moves lead, at different moments as it may be, in whatever bag and with
snapshots of it held as you like. -/
theorem mark_keeps_meaning (capacity load : Nat) (ops : List (TableOp α))
    (events : List (MarkEvent α)) :
    let start : Bag α := .of (runAll IdentTable.perform (.withLoad capacity load) ops).2
    let x := events.foldl Bag.follow (start, .invalid)
    x.1.KeepsMeaning x.2 := by
  have hstart : Bag.Marked (.of (runAll IdentTable.perform (.withLoad capacity load) ops).2 : Bag α)
      .invalid :=
    ⟨(IdentTable.wellFormed_of_run capacity load ops).1, Nat.zero_le _⟩
  exact (hstart.run events).keepsMeaning

end Identity

/-- A second element does not fit a small table, and the mark of the first one
reads nothing in the large one. -/
example :
    let b : Bag Record := ((Bag.withLoad 0 10).insert ⟨⟨1⟩, 0, ⟨1⟩, ""⟩).2
    b.get? b.first = some ⟨⟨1⟩, 0, ⟨1⟩, ""⟩ ∧
      (b.insert ⟨⟨2⟩, 0, ⟨1⟩, ""⟩).2.get? b.first = none := by
  decide

end SnapshotIndex
