import SnapshotIndex.Proofs.Catalog.Definitions
import SnapshotIndex.Proofs.Snapshot.Reached

/-!
# What a catalog consists of

Whoever defines indexes sees which definitions are accepted.  `granted` reads
them off the answers of a run, each with the operations since then.
`ConsistsOf` says of a catalog that it has exactly these and treats each of them
rightly: what it lists, what it finds under a label or for a tag, what it
changes under a label, and what it answers to a label that it does not know or
to a definition of one that it knows.

A run that begins without indexes ends in such a catalog
(`registry_consistent`).  The answers are those of the catalog while the
definitions are computed without one, so the two have to be matched first
(`granted_eq`); the rest is read off the entries after the run.
-/

namespace SnapshotIndex

universe u

variable {α : Type}

/-! ## Definitions and their answers -/

/-- The entry of a definition, if the answer is that it was accepted. -/
def CatalogOp.granted? (config : Config) (op : CatalogOp α) : CatalogAnswer α → Option (Entry α)
  | .defined (.ok ()) => op.entry? config
  | _ => none

/-- The definitions in a list of operations that were accepted according to the
answers. -/
def granted (config : Config) :
    List (CatalogOp α) → List (CatalogAnswer α) → List (Definition α)
  | op :: ops, answer :: answers =>
    ((op.granted? config answer).map (⟨·, ops⟩)).toList ++ granted config ops answers
  | _, _ => []

variable [Identified α]

/-- A catalog that has exactly the indexes of some definitions. -/
structure Catalog.ConsistsOf (config : Config) (defs : List (Definition α)) (c : Catalog α) :
    Prop where
  config_eq : c.config = config
  size_eq : c.size = defs.length
  /-- The labels are listed in the order of definition. -/
  labels_eq : c.labels = defs.map (·.made.label)
  labels_nodup : c.labels.Nodup
  /-- A label leads to the index of its own definition. -/
  index_eq : ∀ d ∈ defs, c.index d.made.label = .ok d.now.index
  describe_eq : ∀ d ∈ defs, c.describe d.made.label = .ok (d.made.index.kind, d.made.tag)
  /-- What is done under a label is done to the index of its definition. -/
  change_eq : ∀ d ∈ defs, ∀ {ρ : Type u} (f : Index α → ρ × Index α),
    (c.change d.made.label f).1 = .ok (f d.now.index).1 ∧
      (c.change d.made.label f).2.entries =
        c.entries.map fun e => if e.label = d.made.label then e.modify fun i => (f i).2 else e
  /-- A tag leads to the indexes defined for it, in the order of definition. -/
  entriesFor_eq : ∀ tag,
    c.entriesFor tag = (defs.filter (·.made.tag = tag)).map Definition.now
  /-- Another label leads nowhere, with a hint at the closest label there is. -/
  unknown : ∀ label, label ∉ defs.map (·.made.label) →
    let fault := Fault.unknownIndex label (Label.closest? label (defs.map (·.made.label)))
    c.index label = .error fault ∧ c.describe label = .error fault ∧
      ∀ {ρ : Type u} (f : Index α → ρ × Index α), c.change label f = (.error fault, c)
  /-- Another label can be defined. -/
  accepts : ∀ op e, op.entry? config = some e → e.label ∉ defs.map (·.made.label) →
    (c.perform op).1 = .defined (.ok ()) ∧ (c.perform op).2.entries = c.entries ++ [e]
  /-- A label that is defined already is refused, and nothing changes. -/
  refuses : ∀ op e, op.entry? config = some e → e.label ∈ defs.map (·.made.label) →
    c.perform op = (.defined (.error (.duplicateIndex e.label)), c)

/-! ## Entries of definitions -/

@[simp] theorem Definition.label_now (d : Definition α) : d.now.label = d.made.label :=
  d.made.label_after d.since

@[simp] theorem Definition.tag_now (d : Definition α) : d.now.tag = d.made.tag :=
  d.made.tag_after d.since

theorem Entry.Reached.kind_eq {e d : Entry α} {op : CatalogOp α} (h : e.Reached op d) :
    d.index.kind = e.index.kind := by
  cases h with
  | change h => exact e.index.kind_perform _
  | hold h s => exact e.index.kind_hold s
  | release h s => exact e.index.kind_release s
  | nothing h => rfl

theorem Entry.kind_after (e : Entry α) (ops : List (CatalogOp α)) :
    (e.after ops).index.kind = e.index.kind := by
  induction ops generalizing e with
  | nil => rfl
  | cons op ops ih => exact (ih (e.follow op)).trans (e.reached_follow op).kind_eq

@[simp] theorem Definition.kind_now (d : Definition α) :
    d.now.index.kind = d.made.index.kind :=
  d.made.kind_after d.since

namespace Catalog

variable {c : Catalog α}

theorem config_after (c : Catalog α) (ops : List (CatalogOp α)) :
    (c.after ops).config = c.config := by
  have hstep : ∀ (d : Catalog α) (op : CatalogOp α),
      d.config = c.config → (d.perform op).2.config = c.config :=
    fun d op h => (d.config_perform op).trans h
  exact runAll_invariant hstep rfl ops

theorem labels_perform (h : c.Registered) {op : CatalogOp α} (hop : op.entry? c.config = none) :
    (c.perform op).2.labels = c.labels := by
  rw [labels, h.entries_perform hop, List.map_map]
  exact List.map_congr_left fun e _ => e.label_follow op

/-! ## Answers -/

omit [Identified α] in
theorem granted?_of_none {config : Config} {op : CatalogOp α} (hop : op.entry? config = none)
    (answer : CatalogAnswer α) : op.granted? config answer = none := by
  unfold CatalogOp.granted?
  split
  · exact hop
  · rfl

/-- What is accepted is what has a new label. -/
theorem granted_eq (h : c.Registered) (ops : List (CatalogOp α)) :
    granted c.config ops (runAll perform c ops).1 = definitions c.config c.labels ops := by
  induction ops generalizing c with
  | nil => rfl
  | cons op ops ih =>
    have hlater := ih (h.perform op)
    rw [config_perform] at hlater
    rw [runAll_cons, granted, hlater, definitions]
    cases hop : op.entry? c.config with
    | none =>
      rw [granted?_of_none hop, labels_perform h hop]
      rfl
    | some e =>
      rw [h.perform_definition hop]
      dsimp only
      split
      · rfl
      · rw [labels_append, CatalogOp.granted?, hop]
        rfl

/-! ## Runs -/

theorem Registered.consistsOf (h : c.Registered) {config : Config} (hconfig : c.config = config)
    {defs : List (Definition α)} (hentries : c.entries = defs.map Definition.now) :
    c.ConsistsOf.{u} config defs := by
  subst hconfig
  have hlabels : c.labels = defs.map (·.made.label) := by
    rw [labels, hentries, List.map_map]
    exact List.map_congr_left fun d _ => d.label_now
  have hentry : ∀ d ∈ defs, c.entry d.made.label = .ok d.now := by
    intro d hd
    rw [h.entry_eq_ok_iff, hentries]
    exact ⟨List.mem_map_of_mem hd, d.label_now⟩
  exact {
    config_eq := rfl
    size_eq := by rw [size, hentries, List.length_map]
    labels_eq := hlabels
    labels_nodup := h.labels_nodup
    index_eq := by
      intro d hd
      rw [index, hentry d hd]
      rfl
    describe_eq := by
      intro d hd
      rw [describe, hentry d hd, Except.map, d.kind_now, d.tag_now]
    change_eq := by
      intro d hd ρ f
      have hmem : d.now ∈ c.entries := hentries ▸ List.mem_map_of_mem hd
      have hchange := h.change_of_mem hmem f
      rwa [d.label_now] at hchange
    entriesFor_eq := by
      intro tag
      rw [h.entriesFor_eq, hentries, List.filter_map]
      refine congrArg _ (List.filter_congr fun d _ => ?_)
      rw [Function.comp_apply, d.tag_now]
    unknown := by
      intro label hunknown
      rw [← hlabels] at hunknown ⊢
      have hnone := h.entry_of_not_mem hunknown
      refine ⟨?_, ?_, fun f => h.change_of_not_mem hunknown f⟩
      · rw [index, hnone]
        rfl
      · rw [describe, hnone]
        rfl
    accepts := by
      intro op e hop hnew
      rw [← hlabels] at hnew
      rw [h.perform_definition hop, if_neg hnew]
      exact ⟨rfl, rfl⟩
    refuses := by
      intro op e hop hmem
      rw [← hlabels] at hmem
      rw [h.perform_definition hop, if_pos hmem] }

/-- After every run, a catalog consists of the definitions that were accepted:
it lists each of them once in the order of definition, it finds under each
label and for each tag the indexes that were defined there and no other ones,
and it accepts just the definitions of other labels. -/
theorem registry_consistent (config : Config) (ops : List (CatalogOp α)) :
    let run := runAll perform (ofConfig config) ops
    run.2.ConsistsOf.{u} config (granted config ops run.1) := by
  intro run
  have hdefs : granted config ops run.1 = definitions config [] ops :=
    granted_eq (registered_ofConfig config) ops
  have hconfig : run.2.config = config := config_after (ofConfig config) ops
  rw [hdefs]
  exact (registered_after config ops).consistsOf hconfig (entries_ofConfig_after config ops)

end Catalog

end SnapshotIndex
