import SnapshotIndex.Proofs.Catalog.Registers
import SnapshotIndex.Proofs.Run
import SnapshotIndex.Proofs.Snapshot.Changes

/-!
# What becomes of a definition

A catalog undergoes definitions of indexes, elements that come and go,
clearing, and whatever is done to the index under one label, captures among
it.  Its entries come from the definitions that succeeded, each with what has
reached its index since then: an element of its tag, a clearing of everything,
or an operation under its label (`CatalogOp.indexOp?`).

`definitions` reads this off the operations alone, without a catalog.  A step
lemma says what one operation does to the entries (`Registered.perform`), and
`entries_after` carries it over to runs: the entries are those of the
definitions, in the same order, each after what has reached it.
-/

namespace SnapshotIndex

universe u

/-! ## Operations -/

/-- The operations that change a catalog. -/
inductive CatalogOp (α : Type) : Type 1
  | defineBag (label : String) (tag : Tag)
  | defineSorted (label : String) (tag : Tag) (order : KeyOrder α)
  | insert (a : α)
  | remove (a : α)
  | clear
  /-- An operation on the index under a label. -/
  | change (label : String) (op : IndexOp α)
  /-- A snapshot of the index under a label gets a holder. -/
  | hold (label : String) (s : EitherSnapshot α)
  /-- A snapshot of the index under a label loses a holder. -/
  | release (label : String) (s : EitherSnapshot α)

/-- What an operation answers. -/
inductive CatalogAnswer (α : Type) : Type 1
  | defined (result : Except Fault Unit)
  /-- How many indexes have changed. -/
  | counted (n : Nat)
  /-- What the index under a label answers. -/
  | changed (result : Except Fault (SortedAnswer α))
  | silent

/-- The entry that a definition makes, if it is accepted. -/
def CatalogOp.entry? {α : Type} (config : Config) : CatalogOp α → Option (Entry α)
  | .defineBag label tag => some ⟨label, tag, .newBag config⟩
  | .defineSorted label tag order => some ⟨label, tag, .newSorted order⟩
  | _ => none

/-- A definition that is refused leaves a catalog as it is. -/
def Catalog.settle {α : Type} (c : Catalog α) :
    Except Fault (Catalog α) → CatalogAnswer α × Catalog α
  | .ok d => (.defined (.ok ()), d)
  | .error fault => (.defined (.error fault), c)

variable {α : Type} [Identified α]

/-- Carries out one operation. -/
def Catalog.perform (c : Catalog α) : CatalogOp α → CatalogAnswer α × Catalog α
  | .defineBag label tag => c.settle (c.defineBag label tag)
  | .defineSorted label tag order => c.settle (c.defineSorted label tag order)
  | .insert a => (.counted (c.insert a).1, (c.insert a).2)
  | .remove a => (.counted (c.remove a).1, (c.remove a).2)
  | .clear => (.silent, c.clear)
  | .change label op =>
    let changed := c.change label fun i => (i.answer op, i.perform op)
    (.changed changed.1, changed.2)
  | .hold label s => (.silent, (c.change label fun i => ((), i.hold s)).2)
  | .release label s => (.silent, (c.change label fun i => ((), i.release s)).2)

/-- A catalog after some operations. -/
def Catalog.after (c : Catalog α) (ops : List (CatalogOp α)) : Catalog α :=
  (runAll Catalog.perform c ops).2

/-! ## What reaches an index -/

namespace CatalogOp

/-- The change that an operation makes to the index of an entry. -/
def indexOp? (e : Entry α) : CatalogOp α → Option (IndexOp α)
  | .insert a => if e.tag = Identified.tag a then some (.insert a) else none
  | .remove a => if e.tag = Identified.tag a then some (.remove a) else none
  | .clear => some .clear
  | .change label op => if e.label = label then some op else none
  | _ => none

end CatalogOp

/-- An entry after an operation of its catalog. -/
def Entry.follow (e : Entry α) : CatalogOp α → Entry α
  | .insert a => if e.tag = Identified.tag a then e.modify fun i => (i.insert a).2 else e
  | .remove a => if e.tag = Identified.tag a then e.modify fun i => (i.remove a).2 else e
  | .clear => e.modify Index.clear
  | .change label op => if e.label = label then e.modify (·.perform op) else e
  | .hold label s => if e.label = label then e.modify (·.hold s) else e
  | .release label s => if e.label = label then e.modify (·.release s) else e
  | _ => e

/-- An entry after some operations of its catalog. -/
def Entry.after (e : Entry α) (ops : List (CatalogOp α)) : Entry α := ops.foldl Entry.follow e

/-! ## Definitions -/

/-- A definition that was accepted. -/
structure Definition (α : Type) where
  /-- The entry that it made. -/
  made : Entry α
  /-- The operations since then. -/
  since : List (CatalogOp α)

/-- The entry of a definition as it is now. -/
def Definition.now (d : Definition α) : Entry α := d.made.after d.since

/-- The definitions in a list of operations that are accepted when some labels
are taken: the first one of each other label. -/
def definitions (config : Config) (taken : List String) :
    List (CatalogOp α) → List (Definition α)
  | [] => []
  | op :: ops =>
    match op.entry? config with
    | none => definitions config taken ops
    | some e =>
      if e.label ∈ taken then definitions config taken ops
      else ⟨e, ops⟩ :: definitions config (taken ++ [e.label]) ops

/-! ## One step -/

namespace Entry

/-- What reaches an entry is a change of its index, or somebody comes or goes who
holds a snapshot of it, or it is nothing. -/
inductive Reached (e : Entry α) (op : CatalogOp α) : Entry α → Prop
  | change {o : IndexOp α} (h : op.indexOp? e = some o) : Reached e op (e.modify (·.perform o))
  | hold (h : op.indexOp? e = none) (s : EitherSnapshot α) : Reached e op (e.modify (·.hold s))
  | release (h : op.indexOp? e = none) (s : EitherSnapshot α) :
    Reached e op (e.modify (·.release s))
  | nothing (h : op.indexOp? e = none) : Reached e op e

theorem reached_follow (e : Entry α) (op : CatalogOp α) : e.Reached op (e.follow op) := by
  cases op with
  | defineBag label tag => exact .nothing rfl
  | defineSorted label tag order => exact .nothing rfl
  | insert a =>
    rw [follow]
    split
    · rename_i htag
      exact .change (o := .insert a) (if_pos htag)
    · rename_i htag
      exact .nothing (if_neg htag)
  | remove a =>
    rw [follow]
    split
    · rename_i htag
      exact .change (o := .remove a) (if_pos htag)
    · rename_i htag
      exact .nothing (if_neg htag)
  | clear => exact .change (o := .clear) rfl
  | change label op =>
    rw [follow]
    split
    · rename_i hlabel
      exact .change (if_pos hlabel)
    · rename_i hlabel
      exact .nothing (if_neg hlabel)
  | hold label s =>
    rw [follow]
    split
    · exact .hold rfl s
    · exact .nothing rfl
  | release label s =>
    rw [follow]
    split
    · exact .release rfl s
    · exact .nothing rfl

theorem Reached.label_eq {e d : Entry α} {op : CatalogOp α} (h : e.Reached op d) :
    d.label = e.label := by
  cases h <;> rfl

theorem Reached.tag_eq {e d : Entry α} {op : CatalogOp α} (h : e.Reached op d) :
    d.tag = e.tag := by
  cases h <;> rfl

@[simp] theorem label_follow (e : Entry α) (op : CatalogOp α) : (e.follow op).label = e.label :=
  (e.reached_follow op).label_eq

@[simp] theorem tag_follow (e : Entry α) (op : CatalogOp α) : (e.follow op).tag = e.tag :=
  (e.reached_follow op).tag_eq

@[simp] theorem label_after (e : Entry α) (ops : List (CatalogOp α)) :
    (e.after ops).label = e.label := by
  induction ops generalizing e with
  | nil => rfl
  | cons op ops ih => exact (ih (e.follow op)).trans (e.label_follow op)

@[simp] theorem tag_after (e : Entry α) (ops : List (CatalogOp α)) :
    (e.after ops).tag = e.tag := by
  induction ops generalizing e with
  | nil => rfl
  | cons op ops ih => exact (ih (e.follow op)).trans (e.tag_follow op)

/-- A definition does not reach what is there. -/
theorem follow_of_entry? {config : Config} {op : CatalogOp α} {d : Entry α}
    (hop : op.entry? config = some d) (e : Entry α) : e.follow op = e := by
  cases op with
  | defineBag label tag => rfl
  | defineSorted label tag order => rfl
  | _ => exact absurd hop nofun

end Entry

namespace Catalog

variable {c : Catalog α}

omit [Identified α] in
theorem config_settle (c : Catalog α) (label : String) (tag : Tag) (index : Index α) :
    (c.settle (c.define label tag index)).2.config = c.config := by
  unfold define
  split <;> rfl

theorem config_perform (c : Catalog α) (op : CatalogOp α) :
    (c.perform op).2.config = c.config := by
  cases op with
  | defineBag label tag => exact c.config_settle label tag _
  | defineSorted label tag order => exact c.config_settle label tag _
  | insert a => rfl
  | remove a => rfl
  | clear => rfl
  | change label op => exact (c.registers_change label _).1
  | hold label s => exact (c.registers_change label _).1
  | release label s => exact (c.registers_change label _).1

namespace Registered

omit [Identified α] in
theorem settle_define (h : c.Registered) (e : Entry α) :
    c.settle (c.define e.label e.tag e.index) =
      if e.label ∈ c.labels then (.defined (.error (.duplicateIndex e.label)), c)
      else (.defined (.ok ()), c.append e) := by
  split
  · rename_i hmem
    rw [h.define_of_mem hmem]
    rfl
  · rename_i hnew
    rw [h.define_of_not_mem hnew]
    rfl

/-- A definition is refused if its label is taken, and changes nothing then. -/
theorem perform_definition (h : c.Registered) {op : CatalogOp α} {e : Entry α}
    (hop : op.entry? c.config = some e) :
    c.perform op =
      if e.label ∈ c.labels then (.defined (.error (.duplicateIndex e.label)), c)
      else (.defined (.ok ()), c.append e) := by
  cases op with
  | defineBag label tag =>
    obtain rfl := Option.some.inj hop
    exact h.settle_define ⟨label, tag, .newBag c.config⟩
  | defineSorted label tag order =>
    obtain rfl := Option.some.inj hop
    exact h.settle_define ⟨label, tag, .newSorted order⟩
  | _ => exact absurd hop nofun

/-- Any other operation reaches the entries that are there. -/
theorem entries_perform (h : c.Registered) {op : CatalogOp α}
    (hop : op.entry? c.config = none) :
    (c.perform op).2.entries = c.entries.map (·.follow op) := by
  cases op with
  | defineBag label tag => exact absurd hop nofun
  | defineSorted label tag order => exact absurd hop nofun
  | insert a => exact (h.route_eq (Identified.tag a) (·.insert a)).2
  | remove a => exact (h.route_eq (Identified.tag a) (·.remove a)).2
  | clear => rfl
  | change label op => exact h.entries_change label _
  | hold label s => exact h.entries_change label _
  | release label s => exact h.entries_change label _

theorem perform (h : c.Registered) (op : CatalogOp α) : (c.perform op).2.Registered := by
  cases hop : op.entry? c.config with
  | some e =>
    rw [h.perform_definition hop]
    split
    · exact h
    · rename_i hnew
      exact h.append hnew
  | none =>
    cases op with
    | defineBag label tag => exact absurd hop nofun
    | defineSorted label tag order => exact absurd hop nofun
    | insert a => exact h.route _ _
    | remove a => exact h.route _ _
    | clear => exact h.clear
    | change label op => exact h.change label _
    | hold label s => exact h.change label _
    | release label s => exact h.change label _

end Registered

/-! ## Runs -/

/-- The registers agree with the entries after every run. -/
theorem registered_after (config : Config) (ops : List (CatalogOp α)) :
    ((ofConfig config).after ops).Registered := by
  have hstep : ∀ (c : Catalog α) (op : CatalogOp α), c.Registered → (c.perform op).2.Registered :=
    fun _ op h => h.perform op
  exact runAll_invariant hstep (registered_ofConfig config) ops

/-- The entries after a run are those from before it and those of the
definitions that were accepted, each after what has reached it. -/
theorem entries_after (h : c.Registered) (ops : List (CatalogOp α)) :
    (c.after ops).entries =
      c.entries.map (·.after ops) ++ (definitions c.config c.labels ops).map Definition.now := by
  induction ops generalizing c with
  | nil => exact (List.map_id' _).symm.trans (List.append_nil _).symm
  | cons op ops ih =>
    change ((c.perform op).2.after ops).entries = _
    rw [ih (h.perform op), config_perform, definitions]
    cases hop : op.entry? c.config with
    | none =>
      have hentries := h.entries_perform hop
      have hlabels : (c.perform op).2.labels = c.labels := by
        rw [labels, hentries, List.map_map]
        exact List.map_congr_left fun e _ => e.label_follow op
      rw [hlabels, hentries, List.map_map]
      rfl
    | some e =>
      -- a definition does not reach the entries that are there
      have hsame : c.entries.map (·.after (op :: ops)) = c.entries.map (·.after ops) := by
        refine List.map_congr_left fun d _ => ?_
        exact congrArg (Entry.after · ops) (Entry.follow_of_entry? hop d)
      rw [h.perform_definition hop, hsame]
      dsimp only
      split
      · rfl
      · change (c.entries ++ [e]).map _ ++ _ = _
        rw [List.map_append, List.append_assoc, labels_append]
        rfl

/-- From a catalog without indexes they are those of the definitions alone. -/
theorem entries_ofConfig_after (config : Config) (ops : List (CatalogOp α)) :
    ((ofConfig config).after ops).entries = (definitions config [] ops).map Definition.now :=
  entries_after (registered_ofConfig config) ops

end Catalog

end SnapshotIndex
