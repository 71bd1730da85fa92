import SnapshotIndex.Assoc
import SnapshotIndex.Index.Shared
import SnapshotIndex.Session.Notice

/-!
# Sessions

A session works on one or more indexes and keeps cursors, walks and snapshots
of them under names.  Whatever is kept holds its snapshot until it is dropped,
used up or replaced by another one of the same name, and the session tells the
index about each of these events, so that an index always knows how many
snapshots of its present content are held.

A replacement is made before the one it replaces is released, so a cursor that
takes the place of another one of the same index finds the content shared.
-/

namespace SnapshotIndex

/-- What a session can work on: something that has indexes, by number. -/
class Host (H : Type) (α : outParam Type) where
  /-- The index of a number. -/
  index? : H → Nat → Option (Index α)
  /-- Changes the index of a number. -/
  modify : H → Nat → (Index α → Index α) → H

instance {α : Type} : Host (Index α) α where
  index? i n := if n = 0 then some i else none
  modify i n f := if n = 0 then f i else i

instance {α : Type} : Host (Shared α) α where
  index? s n := if n = 0 then some s.index else none
  modify s n f := if n = 0 then { s with index := f s.index } else s

instance {α : Type} : Host (Catalog α) α where
  index? c n := c.entries[n]?.map Entry.index
  modify c n f := c.modifyAt n f

/-- Something that a session keeps. -/
structure Held (κ : Type) where
  /-- The number of the index that it was taken from. -/
  owner : Nat
  /-- What is kept. -/
  item : κ
  /-- Whether it was taken from an index of either kind, and not from what is
  known to be a bag or a sorted index. -/
  wrapped : Bool

/-- Indexes, and what is kept of them under names. -/
structure Session (H α : Type) where
  host : H
  cursors : Assoc String (Held (EitherCursor α)) := .empty
  walks : Assoc String (Held (EitherWalk α)) := .empty
  snapshots : Assoc String (Held (EitherSnapshot α)) := .empty
  /-- What was noticed so far. -/
  notices : List Notice := []

/-- A kept cursor as shown to a programmer. -/
def Held.describeCursor {α : Type} (h : Held (EitherCursor α)) : String :=
  if h.wrapped then h.item.describe else h.item.describeInner

/-- A kept walk as shown to a programmer. -/
def Held.describeWalk {α : Type} (h : Held (EitherWalk α)) : String :=
  if h.wrapped then h.item.describe else h.item.describeInner

/-- Whether two kept snapshots share their content. -/
def Held.sameContent {α : Type} (h k : Held (EitherSnapshot α)) : Bool :=
  h.owner == k.owner && h.item.sameContent k.item

namespace Session

variable {H α ρ κ : Type}

/-! ## Operations on what a session works on -/

/-- Runs an operation and notes what there is to notice about it. -/
def perform (s : Session H α) (observe : H → H → List Notice) (f : H → ρ × H) :
    ρ × Session H α :=
  let (result, host) := f s.host
  (result, { s with host := host, notices := s.notices ++ observe s.host host })

/-! ## Operations on one index -/

variable [Host H α]

/-- The index of a number. -/
def index? (s : Session H α) (owner : Nat) : Option (Index α) := Host.index? s.host owner

/-- Runs an operation on the index of a number. -/
def change (s : Session H α) (owner : Nat) (f : Index α → ρ × Index α) :
    Option ρ × Session H α :=
  match s.index? owner with
  | none => (none, s)
  | some index =>
    let (result, changed) := f index
    (some result,
      { s with
        host := Host.modify s.host owner fun _ => changed
        notices := s.notices ++ Notice.ofIndex index changed })

/-! ## Using what is kept -/

/-- What a snapshot of the index of a number reads. -/
def read? (s : Session H α) (owner : Nat) (snapshot : EitherSnapshot α) :
    Option (EitherStore α) :=
  (s.index? owner).bind (·.read? snapshot)

/-- Something kept, with the content that it reads. -/
def open? (s : Session H α) (snapshotOf : κ → EitherSnapshot α) (held : Held κ) :
    Option (κ × EitherStore α) :=
  (s.read? held.owner (snapshotOf held.item)).map fun content => (held.item, content)

/-- The cursor of a name, with the content that it reads. -/
def cursor? (s : Session H α) (name : String) : Option (EitherCursor α × EitherStore α) :=
  (s.cursors.get? name).bind (s.open? EitherCursor.snapshot)

/-- The walk of a name, with the content that it reads. -/
def walk? (s : Session H α) (name : String) : Option (EitherWalk α × EitherStore α) :=
  (s.walks.get? name).bind (s.open? EitherWalk.snapshot)

/-- What the snapshot of a name reads. -/
def snapshot? (s : Session H α) (name : String) : Option (EitherStore α) :=
  ((s.snapshots.get? name).bind (s.open? id)).map Prod.snd

/-- Uses the cursor of a name, which stands elsewhere afterwards. -/
def useCursor (s : Session H α) (name : String)
    (use : EitherCursor α → EitherStore α → ρ × EitherCursor α) : Option ρ × Session H α :=
  match s.cursor? name with
  | none => (none, s)
  | some (cursor, content) =>
    (some (use cursor content).1,
      { s with
        cursors := s.cursors.modify name fun h => { h with item := (use cursor content).2 } })

/-- Uses the walk of a name, which has less left afterwards. -/
def useWalk (s : Session H α) (name : String)
    (use : EitherWalk α → EitherStore α → ρ × EitherWalk α) : Option ρ × Session H α :=
  match s.walk? name with
  | none => (none, s)
  | some (walk, content) =>
    (some (use walk content).1,
      { s with
        walks := s.walks.modify name fun h => { h with item := (use walk content).2 } })

/-! ## Keeping and dropping -/

/-- Tells an index that a snapshot of it has one more holder. -/
def hold (s : Session H α) (owner : Nat) (snapshot : EitherSnapshot α) : Session H α :=
  { s with host := Host.modify s.host owner (·.hold snapshot) }

/-- Tells an index that a snapshot of it has one holder less. -/
def release (s : Session H α) (owner : Nat) (snapshot : EitherSnapshot α) : Session H α :=
  { s with host := Host.modify s.host owner (·.release snapshot) }

/-- Tells an index that something is no longer kept, if it was. -/
def releaseHeld (s : Session H α) (snapshotOf : κ → EitherSnapshot α) :
    Option (Held κ) → Session H α
  | none => s
  | some held => s.release held.owner (snapshotOf held.item)

/-- Keeps a cursor under a name. -/
def keepCursor (s : Session H α) (name : String) (held : Held (EitherCursor α)) : Session H α :=
  let s := s.hold held.owner held.item.snapshot
  let old := s.cursors.get? name
  { s with cursors := s.cursors.insert name held }.releaseHeld EitherCursor.snapshot old

/-- Keeps a walk under a name. -/
def keepWalk (s : Session H α) (name : String) (held : Held (EitherWalk α)) : Session H α :=
  let s := s.hold held.owner held.item.snapshot
  let old := s.walks.get? name
  { s with walks := s.walks.insert name held }.releaseHeld EitherWalk.snapshot old

/-- Keeps a snapshot under a name. -/
def keepSnapshot (s : Session H α) (name : String) (held : Held (EitherSnapshot α)) :
    Session H α :=
  let s := s.hold held.owner held.item
  let old := s.snapshots.get? name
  { s with snapshots := s.snapshots.insert name held }.releaseHeld id old

/-- Drops the cursor of a name. -/
def dropCursor (s : Session H α) (name : String) : Session H α :=
  { s with cursors := s.cursors.erase name }.releaseHeld EitherCursor.snapshot
    (s.cursors.get? name)

/-- Drops the walk of a name. -/
def dropWalk (s : Session H α) (name : String) : Session H α :=
  { s with walks := s.walks.erase name }.releaseHeld EitherWalk.snapshot (s.walks.get? name)

/-- Drops the snapshot of a name. -/
def dropSnapshot (s : Session H α) (name : String) : Session H α :=
  { s with snapshots := s.snapshots.erase name }.releaseHeld id (s.snapshots.get? name)

/-- Drops everything of a name, and says whether there was anything. -/
def drop (s : Session H α) (name : String) : Bool × Session H α :=
  (s.cursors.contains name || s.walks.contains name || s.snapshots.contains name,
    ((s.dropCursor name).dropWalk name).dropSnapshot name)

/-- Whether a kept snapshot shows the present content of an index. -/
def isCurrent (s : Session H α) (owner : Nat) (held : Held (EitherSnapshot α)) : Bool :=
  held.owner == owner && (s.index? owner).any (·.isCurrent held.item)

end Session

end SnapshotIndex
