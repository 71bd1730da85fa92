import SnapshotIndex.Catalog
import SnapshotIndex.Index.Traversal

/-!
# Notices

What indexes and catalogs tell an observer about the work they do out of
sight: when shared content is copied or left behind, when a table is rebuilt,
and what a catalog defines, ignores and clears.

A notice is read off from the states before and after an operation, so that
the operations themselves need not know of it.
-/

namespace SnapshotIndex

/-- A report of something that happened. -/
inductive Notice
  /-- Content that `outstanding` snapshots share was copied before a change;
  it was the copy of that number. -/
  | copying (outstanding copies : Nat)
  /-- Content that `outstanding` snapshots share was left to them. -/
  | detaching (outstanding : Nat)
  /-- A table was rebuilt with another number of slots or other slots for its
  elements. -/
  | rebuilding (oldSize newSize count markers generation : Nat)
  /-- A catalog defined an index. -/
  | defining (label : String) (tag : Tag) (kind : Kind)
  /-- A catalog has no index for the tag of an element. -/
  | unrouted (id : Ident) (tag : Tag)
  /-- A catalog cleared its indexes. -/
  | flushing (indexes : Nat)

/-- How much a notice matters. -/
inductive Level
  | trace
  | debug
deriving DecidableEq

/-- The word for a level. -/
def Level.word : Level → String
  | trace => "TRACE"
  | debug => "DEBUG"

/-- A detail of a notice. -/
inductive Detail
  | number (n : Nat)
  | text (s : String)

namespace Notice

/-- How much a notice matters: the work on one index less than that of a
catalog. -/
def level : Notice → Level
  | copying .. | detaching .. | rebuilding .. => .trace
  | defining .. | unrouted .. | flushing .. => .debug

/-- The message of a notice. -/
def message : Notice → String
  | copying .. => "copying shared backing store before mutation"
  | detaching .. => "detaching shared backing store"
  | rebuilding .. => "rebuilding identity hash table"
  | defining .. => "defining index"
  | unrouted .. => "no index for type"
  | flushing .. => "flushing all indexes"

/-- The details of a notice by name. -/
def details : Notice → List (String × Detail)
  | copying outstanding copies =>
    [("outstanding", .number outstanding), ("copies", .number copies)]
  | detaching outstanding => [("outstanding", .number outstanding)]
  | rebuilding oldSize newSize count markers generation =>
    [("from", .number oldSize), ("to", .number newSize), ("len", .number count),
      ("removed", .number markers), ("generation", .number generation)]
  | defining label tag kind =>
    [("label", .text label), ("type_code", .text tag.digits), ("kind", .text kind.word)]
  | unrouted id tag => [("id", .text id.digits), ("type_code", .text tag.digits)]
  | flushing indexes => [("indexes", .number indexes)]

variable {α σ : Type}

/-! ## What changed between two states -/

/-- The notices of one operation on a backing store. -/
def ofBacking (before after : Backing σ) : List Notice :=
  if before.copies < after.copies then [copying before.outstanding after.copies]
  else if before.version < after.version then [detaching before.outstanding]
  else []

/-- The notices of one operation on a table: an insertion that went to another
generation rebuilt the table. -/
def ofTable (before after : IdentTable α) : List Notice :=
  if after.count = before.count + 1 ∧ before.generation < after.generation then
    [rebuilding before.size after.size before.count before.markers after.generation]
  else []

/-- The notices of one operation on an index. -/
def ofIndex : Index α → Index α → List Notice
  | .bag before, .bag after =>
    ofBacking before.store after.store ++ ofTable before.content after.content
  | .sorted before, .sorted after => ofBacking before.store after.store
  | _, _ => []

/-- The notices of one operation on every index of a catalog, in the order of
definition. -/
def ofIndexes (before after : Catalog α) : List Notice :=
  (List.zipWith (fun e f => ofIndex e.index f.index) before.entries after.entries).flatten

/-- The notices of a definition, which is the last one if it succeeded. -/
def ofDefinition (before after : Catalog α) : List Notice :=
  (after.entries.drop before.size).map fun e => defining e.label e.tag e.index.kind

/-- The notices of adding an element to a catalog. -/
def ofInsertion [Identified α] (a : α) (before after : Catalog α) : List Notice :=
  if (before.entriesFor (Identified.tag a)).isEmpty then
    [unrouted (Identified.ident a) (Identified.tag a)]
  else ofIndexes before after

/-- The notices of clearing a catalog. -/
def ofClearing (before after : Catalog α) : List Notice :=
  flushing before.size :: ofIndexes before after

end Notice

end SnapshotIndex
