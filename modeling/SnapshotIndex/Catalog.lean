import SnapshotIndex.Assoc
import SnapshotIndex.Catalog.Label
import SnapshotIndex.Index

/-!
# Catalogs

A catalog holds indexes under labels.  Each index is defined for one tag, and
an element that comes to the catalog goes to every index of its tag, in the
order of definition.  Elements of a tag without indexes are ignored.

An index is reached by its slot, that is, its number in the order of
definition.  One register leads from labels to slots and another one from tags
to the slots of their indexes.
-/

namespace SnapshotIndex

universe u

/-- An index of a catalog, with its label and the tag of its elements. -/
structure Entry (α : Type) where
  label : String
  tag : Tag
  index : Index α

/-- An entry after a change of its index. -/
def Entry.modify {α : Type} (e : Entry α) (f : Index α → Index α) : Entry α :=
  { e with index := f e.index }

/-- Indexes under labels, in the order of definition, and two registers of
their slots. -/
structure Catalog (α : Type) where
  /-- The sizing of the indexes. -/
  config : Config
  entries : List (Entry α)
  /-- The slot of each label. -/
  byLabel : Assoc String Nat
  /-- The slots for each tag, in the order of definition. -/
  byTag : Assoc Tag (List Nat)
  /-- No label leads past the entries. -/
  labelled : ∀ label slot, byLabel.get? label = some slot → slot < entries.length
  /-- Nor does a tag. -/
  routed : ∀ tag, ∀ slot ∈ (byTag.get? tag).getD [], slot < entries.length

namespace Catalog

variable {α : Type}

/-- A catalog without indexes. -/
def ofConfig (config : Config) : Catalog α where
  config := config
  entries := []
  byLabel := .empty
  byTag := .empty
  labelled := nofun
  routed := nofun

/-- A catalog without indexes and with the usual sizing. -/
def new : Catalog α := ofConfig {}

/-- A catalog without indexes, if the sizing is acceptable. -/
def withConfig (config : Config) : Except ConfigFault (Catalog α) :=
  match config.validate with
  | .error fault => .error fault
  | .ok () => .ok (ofConfig config)

def size (c : Catalog α) : Nat := c.entries.length

def isEmpty (c : Catalog α) : Bool := c.entries.isEmpty

def labels (c : Catalog α) : List String := c.entries.map Entry.label

/-- The slots of the indexes for a tag, in the order of definition. -/
def slots (c : Catalog α) (tag : Tag) : List Nat := (c.byTag.get? tag).getD []

theorem slots_lt (c : Catalog α) (tag : Tag) : ∀ slot ∈ c.slots tag, slot < c.entries.length :=
  c.routed tag

/-! ## Definitions -/

/-- Adds an entry after the others, and to both registers. -/
def append (c : Catalog α) (e : Entry α) : Catalog α where
  config := c.config
  entries := c.entries ++ [e]
  byLabel := c.byLabel.insert e.label c.entries.length
  byTag := c.byTag.insert e.tag (c.slots e.tag ++ [c.entries.length])
  labelled := by
    intro label slot h
    rw [List.length_append, List.length_singleton]
    rw [Assoc.get?_insert] at h
    split at h
    · obtain rfl := Option.some.inj h
      exact Nat.lt_succ_self _
    · exact Nat.lt_succ_of_lt (c.labelled label slot h)
  routed := by
    intro tag slot h
    rw [List.length_append, List.length_singleton]
    rw [Assoc.get?_insert] at h
    split at h
    · rcases List.mem_append.mp h with hold | hnew
      · exact Nat.lt_succ_of_lt (c.routed e.tag slot hold)
      · obtain rfl := List.mem_singleton.mp hnew
        exact Nat.lt_succ_self _
    · exact Nat.lt_succ_of_lt (c.routed tag slot h)

/-- Defines an index under a label that is not taken. -/
def define (c : Catalog α) (label : String) (tag : Tag) (index : Index α) :
    Except Fault (Catalog α) :=
  if c.byLabel.contains label then .error (.duplicateIndex label)
  else .ok (c.append ⟨label, tag, index⟩)

def defineBag (c : Catalog α) (label : String) (tag : Tag) : Except Fault (Catalog α) :=
  c.define label tag (Index.newBag c.config)

def defineSorted (c : Catalog α) (label : String) (tag : Tag) (order : KeyOrder α) :
    Except Fault (Catalog α) :=
  c.define label tag (Index.newSorted order)

/-! ## Looking up -/

/-- The slot of the index under a label. -/
def position (c : Catalog α) (label : String) : Except Fault (Fin c.entries.length) :=
  match h : c.byLabel.get? label with
  | some slot => .ok ⟨slot, c.labelled label slot h⟩
  | none => .error (.unknownIndex label (Label.closest? label c.labels))

/-- The index under a label, with its tag. -/
def entry (c : Catalog α) (label : String) : Except Fault (Entry α) :=
  (c.position label).map c.entries.get

/-- The index under a label. -/
def index (c : Catalog α) (label : String) : Except Fault (Index α) :=
  (c.entry label).map Entry.index

/-- The kind of the index under a label, and the tag of its elements. -/
def describe (c : Catalog α) (label : String) : Except Fault (Kind × Tag) :=
  (c.entry label).map fun e => (e.index.kind, e.tag)

/-- The indexes for a tag, in the order of definition. -/
def entriesFor (c : Catalog α) (tag : Tag) : List (Entry α) :=
  (c.slots tag).pmap (fun slot h => c.entries.get ⟨slot, h⟩) (c.slots_lt tag)

/-! ## Changing indexes -/

/-- A catalog with other indexes in the same slots. -/
def withEntries (c : Catalog α) (entries : List (Entry α))
    (h : entries.length = c.entries.length) : Catalog α :=
  { c with
    entries := entries
    labelled := fun label slot hslot => h ▸ c.labelled label slot hslot
    routed := fun tag slot hslot => h ▸ c.routed tag slot hslot }

/-- Changes the index in a slot. -/
def modifyAt (c : Catalog α) (slot : Nat) (f : Index α → Index α) : Catalog α :=
  c.withEntries (c.entries.modify slot (·.modify f)) (List.length_modify ..)

/-- Does an operation on the index under a label. -/
def change {ρ : Type u} (c : Catalog α) (label : String) (f : Index α → ρ × Index α) :
    Except Fault ρ × Catalog α :=
  match c.position label with
  | .ok slot => (.ok (f (c.entries.get slot).index).1, c.modifyAt slot fun i => (f i).2)
  | .error fault => (.error fault, c)

/-- Removes all elements from all indexes, and keeps the definitions. -/
def clear (c : Catalog α) : Catalog α :=
  c.withEntries (c.entries.map (·.modify Index.clear)) (List.length_map _)

/-! ## Elements -/

/-- Does an operation on the index in each of some slots, one after the other,
and counts how often it says yes. -/
def countRouted (op : Index α → Bool × Index α) :
    (slots : List Nat) → (entries : List (Entry α)) →
      (∀ slot ∈ slots, slot < entries.length) → Nat × List (Entry α)
  | [], entries, _ => (0, entries)
  | slot :: slots, entries, within =>
    let e := entries.get ⟨slot, within slot List.mem_cons_self⟩
    let (count, entries) :=
      countRouted op slots (entries.set slot (e.modify fun i => (op i).2)) fun other h => by
        rw [List.length_set]
        exact within other (List.mem_cons_of_mem slot h)
    (if (op e.index).1 then count + 1 else count, entries)

theorem length_countRouted (op : Index α → Bool × Index α) (slots : List Nat)
    (entries : List (Entry α)) (within : ∀ slot ∈ slots, slot < entries.length) :
    (countRouted op slots entries within).2.length = entries.length := by
  induction slots generalizing entries with
  | nil => rfl
  | cons slot slots ih =>
    rw [countRouted]
    dsimp only
    rw [ih, List.length_set]

/-- Does an operation on every index for a tag, and counts how often it says
yes. -/
def route (c : Catalog α) (tag : Tag) (op : Index α → Bool × Index α) : Nat × Catalog α :=
  let routed := countRouted op (c.slots tag) c.entries (c.slots_lt tag)
  (routed.1, c.withEntries routed.2 (length_countRouted ..))

variable [Identified α]

/-- Adds an element to every index of its tag, and counts those it was new
to. -/
def insert (c : Catalog α) (a : α) : Nat × Catalog α := c.route (Identified.tag a) (·.insert a)

/-- Removes an element from every index of its tag, and counts those that held
it. -/
def remove (c : Catalog α) (a : α) : Nat × Catalog α := c.route (Identified.tag a) (·.remove a)

/-- Whether some index of its tag holds an element. -/
def contains (c : Catalog α) (a : α) : Bool :=
  (c.entriesFor (Identified.tag a)).any (·.index.contains a)

end Catalog

end SnapshotIndex
