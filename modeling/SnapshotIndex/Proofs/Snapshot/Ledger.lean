import SnapshotIndex.Proofs.Snapshot.Captures
import SnapshotIndex.Proofs.Snapshot.Shelves
import SnapshotIndex.Session

/-!
# Sessions and ledgers

An `Action` is anything that can happen to an index and to what is kept of it:
a change of the index, the capture of a cursor, an iterator, a walk or a
snapshot, a use of what was captured, a copy of it, or its end.  A session
carries actions out on one index of which it keeps cursors, walks and
snapshots (`Session.act`).

A `Ledger` is what a session is meant to be.  When something is captured it
writes down the elements of the range at that moment, and whatever is done
with the capture from then on is done with this list.  It looks at the live
index on capture and at no other time (`Ledger.act`), so that nothing that
happens to the index or to other captures can have any influence.

An action that is not a change does no more to the index than to take
snapshots and to let them go (`Session.recounted_act`).
-/

namespace SnapshotIndex

/-- Anything that can happen to an index and to what is kept of it. -/
inductive Action (α : Type) : Type 1
  | change (op : IndexOp α)
  | cursor (name : String) (r : Range α)
  | iterator (name : String)
  | walk (name : String) (r : Range α)
  | snapshot (name : String)
  | copyCursor (source name : String)
  | copySnapshot (source name : String)
  /-- Takes the snapshot that a cursor traverses. -/
  | snapshotOf (source name : String)
  | useCursor (name : String) (use : CursorUse α)
  | useWalk (name : String) (use : WalkUse)
  | readSnapshot (name : String)
  | dropCursor (name : String)
  | dropWalk (name : String)
  | dropSnapshot (name : String)

/-- What can be seen of something captured. -/
inductive Report (α : Type)
  /-- The elements that a cursor has visited, whether it stands on an element
  now and on which one, and the number of elements it can visit. -/
  | cursor (visited : List α) (valid : Bool) (here : Except Fault α) (size : Nat)
  /-- The elements that a walk has given, and the number of those left. -/
  | walk (taken : List α) (remaining : Nat)
  /-- All that a snapshot holds. -/
  | content (content : EitherStore α)

variable {α : Type}

/-- The operation that an action carries out on the index, if it is a change. -/
def Action.op? : Action α → Option (IndexOp α)
  | .change op => some op
  | _ => none

theorem Action.eq_change_of_op? {action : Action α} {op : IndexOp α} (h : action.op? = some op) :
    action = .change op := by
  cases action with
  | change op' => exact congrArg Action.change (Option.some.inj h)
  | _ => exact absurd h (Option.some_ne_none op).symm

/-! ## Ledgers -/

/-- A cursor over a list, and all that the index held at its capture. -/
structure Captured (α : Type) where
  list : ListCursor α
  content : EitherStore α

/-- What was captured, by name. -/
structure Ledger (α : Type) where
  cursors : Assoc String (Captured α) := .empty
  walks : Assoc String (ListWalk α) := .empty
  snapshots : Assoc String (EitherStore α) := .empty

def ListCursor.report (c : ListCursor α) (use : CursorUse α) : Report α × ListCursor α :=
  let (visited, c) := c.use use
  (.cursor visited c.isValid c.get c.elements.length, c)

def ListWalk.report (w : ListWalk α) (use : WalkUse) : Report α × ListWalk α :=
  let (taken, w) := w.use use
  (.walk taken w.left.length, w)

namespace Ledger

/-- Uses the cursor of a name. -/
def useCursor (l : Ledger α) (name : String) (use : CursorUse α) :
    Option (Report α) × Ledger α :=
  match l.cursors.get? name with
  | none => (none, l)
  | some c =>
    (some (c.list.report use).1,
      { l with
        cursors := l.cursors.modify name fun c => { c with list := (c.list.report use).2 } })

/-- Uses the walk of a name. -/
def useWalk (l : Ledger α) (name : String) (use : WalkUse) : Option (Report α) × Ledger α :=
  match l.walks.get? name with
  | none => (none, l)
  | some w =>
    (some (w.report use).1,
      { l with walks := l.walks.modify name fun w => (w.report use).2 })

variable [Identified α]

/-- One action, as a ledger has it, when the live index is as given. -/
def act (live : Index α) (l : Ledger α) : Action α → Option (Report α) × Ledger α
  | .change _ => (none, l)
  | .cursor name r =>
    match live.listCursor? r with
    | none => (none, l)
    | some c => (none, { l with cursors := l.cursors.insert name ⟨c, live.content⟩ })
  | .iterator name =>
    (none, { l with cursors := l.cursors.insert name ⟨live.listIterator, live.content⟩ })
  | .walk name r =>
    match live.listWalk? r with
    | none => (none, l)
    | some w => (none, { l with walks := l.walks.insert name w })
  | .snapshot name => (none, { l with snapshots := l.snapshots.insert name live.content })
  | .copyCursor source name =>
    match l.cursors.get? source with
    | none => (none, l)
    | some c => (none, { l with cursors := l.cursors.insert name c })
  | .copySnapshot source name =>
    match l.snapshots.get? source with
    | none => (none, l)
    | some content => (none, { l with snapshots := l.snapshots.insert name content })
  | .snapshotOf source name =>
    match l.cursors.get? source with
    | none => (none, l)
    | some c => (none, { l with snapshots := l.snapshots.insert name c.content })
  | .useCursor name use => l.useCursor name use
  | .useWalk name use => l.useWalk name use
  | .readSnapshot name => ((l.snapshots.get? name).map .content, l)
  | .dropCursor name => (none, { l with cursors := l.cursors.erase name })
  | .dropWalk name => (none, { l with walks := l.walks.erase name })
  | .dropSnapshot name => (none, { l with snapshots := l.snapshots.erase name })

end Ledger

/-! ## Who holds what -/

/-- What becomes of an index while snapshots of it are taken and let go, and
nothing else happens to it. -/
inductive Index.Recounted (i : Index α) : Index α → Prop
  | refl : i.Recounted i
  | hold {j : Index α} (h : i.Recounted j) (x : EitherSnapshot α) : i.Recounted (j.hold x)
  | release {j : Index α} (h : i.Recounted j) (x : EitherSnapshot α) : i.Recounted (j.release x)

theorem Index.Recounted.keeps {P : Index α → Prop} (hhold : ∀ i x, P i → P (i.hold x))
    (hrelease : ∀ i x, P i → P (i.release x)) {i j : Index α} (h : i.Recounted j) (hi : P i) :
    P j := by
  induction h with
  | refl => exact hi
  | hold _ x ih => exact hhold _ x ih
  | release _ x ih => exact hrelease _ x ih

namespace Session

variable {s : Session (Index α) α} {i : Index α}

theorem recounted_modify {j : Index α} (h : i.Recounted j) {f : Index α → Index α}
    (hf : i.Recounted (f j)) (owner : Nat) : i.Recounted (Host.modify j owner f) := by
  change i.Recounted (if owner = 0 then f j else j)
  split
  · exact hf
  · exact h

theorem recounted_hold (h : i.Recounted s.host) (owner : Nat) (x : EitherSnapshot α) :
    i.Recounted (s.hold owner x).host :=
  recounted_modify h (h.hold x) owner

theorem recounted_releaseHeld {κ : Type} (h : i.Recounted s.host)
    (snapshotOf : κ → EitherSnapshot α) (old : Option (Held κ)) :
    i.Recounted (s.releaseHeld snapshotOf old).host := by
  cases old with
  | none => exact h
  | some held => exact recounted_modify h (h.release _) held.owner

theorem recounted_keepCursor (s : Session (Index α) α) (name : String)
    (held : Held (EitherCursor α)) : s.host.Recounted (s.keepCursor name held).host := by
  apply recounted_releaseHeld
  exact recounted_hold .refl held.owner _

theorem recounted_keepWalk (s : Session (Index α) α) (name : String)
    (held : Held (EitherWalk α)) : s.host.Recounted (s.keepWalk name held).host := by
  apply recounted_releaseHeld
  exact recounted_hold .refl held.owner _

theorem recounted_keepSnapshot (s : Session (Index α) α) (name : String)
    (held : Held (EitherSnapshot α)) : s.host.Recounted (s.keepSnapshot name held).host := by
  apply recounted_releaseHeld
  exact recounted_hold .refl held.owner _

@[simp] theorem cursors_releaseHeld {κ : Type} (s : Session (Index α) α)
    (snapshotOf : κ → EitherSnapshot α) (old : Option (Held κ)) :
    (s.releaseHeld snapshotOf old).cursors = s.cursors := by
  cases old <;> rfl

@[simp] theorem walks_releaseHeld {κ : Type} (s : Session (Index α) α)
    (snapshotOf : κ → EitherSnapshot α) (old : Option (Held κ)) :
    (s.releaseHeld snapshotOf old).walks = s.walks := by
  cases old <;> rfl

@[simp] theorem snapshots_releaseHeld {κ : Type} (s : Session (Index α) α)
    (snapshotOf : κ → EitherSnapshot α) (old : Option (Held κ)) :
    (s.releaseHeld snapshotOf old).snapshots = s.snapshots := by
  cases old <;> rfl

section Use

variable {ρ : Type} (s : Session (Index α) α) (name : String)

/-- Whoever uses a cursor touches nothing but the cursor. -/
theorem useCursor_others (use : EitherCursor α → EitherStore α → ρ × EitherCursor α) :
    (s.useCursor name use).2.host = s.host ∧ (s.useCursor name use).2.walks = s.walks ∧
      (s.useCursor name use).2.snapshots = s.snapshots := by
  unfold Session.useCursor
  split <;> exact ⟨rfl, rfl, rfl⟩

/-- Whoever uses a walk touches nothing but the walk. -/
theorem useWalk_others (use : EitherWalk α → EitherStore α → ρ × EitherWalk α) :
    (s.useWalk name use).2.host = s.host ∧ (s.useWalk name use).2.cursors = s.cursors ∧
      (s.useWalk name use).2.snapshots = s.snapshots := by
  unfold Session.useWalk
  split <;> exact ⟨rfl, rfl, rfl⟩

end Use

end Session

/-! ## Sessions -/

variable [Identified α]

def EitherCursor.report (use : CursorUse α) (c : EitherCursor α) (content : EitherStore α) :
    Report α × EitherCursor α :=
  let (visited, c) := c.use content use
  (.cursor visited (c.isValid content) (c.get content) c.size, c)

def EitherWalk.report (use : WalkUse) (w : EitherWalk α) (content : EitherStore α) :
    Report α × EitherWalk α :=
  let (taken, w) := w.use content use
  (.walk taken w.remaining, w)

/-- One action of a session on one index. -/
def Session.act (s : Session (Index α) α) : Action α → Option (Report α) × Session (Index α) α
  | .change op => (none, (s.change 0 fun i => ((), i.perform op)).2)
  | .cursor name r =>
    match s.host.cursor? r with
    | none => (none, s)
    | some c => (none, s.keepCursor name ⟨0, c, true⟩)
  | .iterator name => (none, s.keepCursor name ⟨0, s.host.iterator, true⟩)
  | .walk name r =>
    match s.host.walk? r with
    | none => (none, s)
    | some w => (none, s.keepWalk name ⟨0, w, true⟩)
  | .snapshot name => (none, s.keepSnapshot name ⟨0, s.host.snapshot, true⟩)
  | .copyCursor source name =>
    match s.cursors.get? source with
    | none => (none, s)
    | some held => (none, s.keepCursor name held)
  | .copySnapshot source name =>
    match s.snapshots.get? source with
    | none => (none, s)
    | some held => (none, s.keepSnapshot name held)
  | .snapshotOf source name =>
    match s.cursors.get? source with
    | none => (none, s)
    | some held => (none, s.keepSnapshot name ⟨held.owner, held.item.snapshot, held.wrapped⟩)
  | .useCursor name use => s.useCursor name (EitherCursor.report use)
  | .useWalk name use => s.useWalk name (EitherWalk.report use)
  | .readSnapshot name => ((s.snapshot? name).map .content, s)
  | .dropCursor name => (none, s.dropCursor name)
  | .dropWalk name => (none, s.dropWalk name)
  | .dropSnapshot name => (none, s.dropSnapshot name)

/-- Captures, uses and drops change at most who holds which snapshot. -/
theorem Session.recounted_act (s : Session (Index α) α) {action : Action α}
    (hcapture : action.op? = none) : s.host.Recounted (s.act action).2.host := by
  cases action with
  | change op => exact absurd hcapture (Option.some_ne_none op)
  | cursor name r =>
    simp only [Session.act]
    split
    · exact .refl
    · exact s.recounted_keepCursor name _
  | iterator name => exact s.recounted_keepCursor name _
  | walk name r =>
    simp only [Session.act]
    split
    · exact .refl
    · exact s.recounted_keepWalk name _
  | snapshot name => exact s.recounted_keepSnapshot name _
  | copyCursor source name =>
    simp only [Session.act]
    split
    · exact .refl
    · exact s.recounted_keepCursor name _
  | copySnapshot source name =>
    simp only [Session.act]
    split
    · exact .refl
    · exact s.recounted_keepSnapshot name _
  | snapshotOf source name =>
    simp only [Session.act]
    split
    · exact .refl
    · exact s.recounted_keepSnapshot name _
  | useCursor name use =>
    obtain ⟨hhost, -, -⟩ := s.useCursor_others name (EitherCursor.report use)
    simp only [Session.act, hhost]
    exact .refl
  | useWalk name use =>
    obtain ⟨hhost, -, -⟩ := s.useWalk_others name (EitherWalk.report use)
    simp only [Session.act, hhost]
    exact .refl
  | readSnapshot name => exact .refl
  | dropCursor name =>
    apply Session.recounted_releaseHeld
    exact .refl
  | dropWalk name =>
    apply Session.recounted_releaseHeld
    exact .refl
  | dropSnapshot name =>
    apply Session.recounted_releaseHeld
    exact .refl

section Use

variable {β : Type} {s : Session (Index α) α}

/-- A use of a cursor keeps all that depends on what it remembers of its index. -/
theorem Session.related_useCursor {R : Held (EitherCursor α) → β → Prop} {n : Assoc String β}
    (h : s.cursors.Related R n)
    (hR : ∀ held c b, c.snapshot = held.item.snapshot → c.changes = held.item.changes →
      R held b → R { held with item := c } b) (name : String) (use : CursorUse α) :
    (s.useCursor name (EitherCursor.report use)).2.cursors.Related R n := by
  unfold Session.useCursor
  split
  · exact h
  · rename_i cursor content hcursor
    obtain ⟨held, hget, hopen⟩ := Option.bind_eq_some_iff.mp hcursor
    obtain ⟨content', -, heq⟩ := Option.map_eq_some_iff.mp hopen
    obtain rfl : held.item = cursor := congrArg Prod.fst heq
    obtain ⟨hsnapshot, hchanges⟩ := held.item.snapshot_changes_use content use
    exact h.modify_left hget fun b hb => hR held _ b hsnapshot hchanges hb

theorem Session.related_useWalk {R : Held (EitherWalk α) → β → Prop} {n : Assoc String β}
    (h : s.walks.Related R n)
    (hR : ∀ held w b, w.snapshot = held.item.snapshot → R held b → R { held with item := w } b)
    (name : String) (use : WalkUse) :
    (s.useWalk name (EitherWalk.report use)).2.walks.Related R n := by
  unfold Session.useWalk
  split
  · exact h
  · rename_i walk content hwalk
    obtain ⟨held, hget, hopen⟩ := Option.bind_eq_some_iff.mp hwalk
    obtain ⟨content', -, heq⟩ := Option.map_eq_some_iff.mp hopen
    obtain rfl : held.item = walk := congrArg Prod.fst heq
    exact h.modify_left hget fun b hb => hR held _ b (held.item.snapshot_use content use) hb

end Use

/-- A session and a ledger side by side, with what both of them report. -/
def actBeside (x : Session (Index α) α × Ledger α) (action : Action α) :
    (Option (Report α) × Option (Report α)) × Session (Index α) α × Ledger α :=
  (((x.1.act action).1, (x.2.act x.1.host action).1),
    ((x.1.act action).2, (x.2.act x.1.host action).2))

end SnapshotIndex
