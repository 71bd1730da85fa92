import SnapshotIndex.Proofs.Catalog.Registry
import SnapshotIndex.Proofs.Snapshot.Alike

/-!
# A catalog as a router

Beside each index of a catalog one can imagine another one that stands alone.
It is made as the definition says, and from then on it undergoes what reaches
the index of the catalog (`Definition.alone`).  It is not told of any snapshots,
so the two need not be the same; but one cannot tell them apart otherwise
(`Entry.alike_after`), and that is enough for every answer of the catalog.

`RoutesTo` says what a catalog has to do with the indexes that stand alone:
each of its indexes shows the same as one of them, elements are counted as they
count them, and elements of another tag do not reach an index at all.  The main
result is `routes_to_alone`, for every run from a catalog without indexes.
-/

namespace SnapshotIndex

variable {α : Type} [Identified α]

/-- The index of a definition as it would be outside of a catalog. -/
def Definition.alone (d : Definition α) : Index α :=
  (d.since.filterMap (·.indexOp? d.made)).foldl Index.perform d.made.index

/-- A catalog that hands elements to the indexes of their tag, and does nothing
else to them. -/
structure Catalog.RoutesTo (defs : List (Definition α)) (c : Catalog α) : Prop where
  labels_eq : c.labels = defs.map (·.made.label)
  /-- Under each label one finds what an index that stands alone would show. -/
  shows : ∀ d ∈ defs, ∃ i, c.index d.made.label = .ok i ∧ i.toList = d.alone.toList ∧
    i.changes = d.alone.changes ∧ i.kind = d.alone.kind ∧ i.sight = d.alone.sight
  /-- As many indexes take an element as would do so if they stood alone. -/
  insert_count : ∀ a, (c.insert a).1 =
    defs.countP fun d => d.made.tag = Identified.tag a ∧ (d.alone.insert a).1
  remove_count : ∀ a, (c.remove a).1 =
    defs.countP fun d => d.made.tag = Identified.tag a ∧ (d.alone.remove a).1
  contains_iff : ∀ a, c.contains a = true ↔
    ∃ d ∈ defs, d.made.tag = Identified.tag a ∧ d.alone.contains a = true
  /-- An element does not reach the indexes of another tag. -/
  other_tag : ∀ a, ∀ d ∈ defs, d.made.tag ≠ Identified.tag a →
    (c.insert a).2.index d.made.label = c.index d.made.label ∧
      (c.remove a).2.index d.made.label = c.index d.made.label
  /-- An element of a tag without indexes changes nothing. -/
  no_tag : ∀ a, Identified.tag a ∉ defs.map (·.made.tag) →
    c.insert a = (0, c) ∧ c.remove a = (0, c)

/-! ## Beside each index one that stands alone -/

theorem CatalogOp.indexOp?_congr {d e : Entry α} (hlabel : d.label = e.label)
    (htag : d.tag = e.tag) (op : CatalogOp α) : op.indexOp? d = op.indexOp? e := by
  unfold indexOp?
  rw [hlabel, htag]

namespace Entry

variable {e : Entry α} {j : Index α}

/-- What reaches an entry leaves its index like another one that undergoes the
changes only. -/
theorem Reached.alike {d : Entry α} {op : CatalogOp α} (h : e.Reached op d)
    (halike : e.index.Alike j) :
    d.index.Alike ((op.indexOp? e).toList.foldl Index.perform j) := by
  cases h with
  | change hop =>
    rw [hop]
    exact (halike.perform _).2
  | hold hop s =>
    rw [hop]
    exact halike.hold s
  | release hop s =>
    rw [hop]
    exact halike.release s
  | nothing hop =>
    rw [hop]
    exact halike

theorem alike_after (halike : e.index.Alike j) (ops : List (CatalogOp α)) :
    (e.after ops).index.Alike ((ops.filterMap (·.indexOp? e)).foldl Index.perform j) := by
  induction ops generalizing e j with
  | nil => exact halike
  | cons op ops ih =>
    have hnext := ih ((e.reached_follow op).alike halike)
    have hsame : (·.indexOp? (e.follow op)) = fun o : CatalogOp α => o.indexOp? e :=
      funext (CatalogOp.indexOp?_congr (e.label_follow op) (e.tag_follow op))
    rw [hsame, ← List.foldl_append] at hnext
    have hsplit : (op :: ops).filterMap (·.indexOp? e) =
        (op.indexOp? e).toList ++ ops.filterMap (·.indexOp? e) := by
      rw [List.filterMap_cons]
      cases op.indexOp? e <;> rfl
    rw [hsplit]
    exact hnext

end Entry

/-- A new index is like itself, so that there is something to begin with. -/
theorem CatalogOp.alike_of_entry? {config : Config} {op : CatalogOp α} {e : Entry α}
    (hop : op.entry? config = some e) : e.index.Alike e.index := by
  cases op with
  | defineBag label tag =>
    obtain rfl := Option.some.inj hop
    have hwell := (IdentTable.wellFormed_withLoad (α := α) config.bagCapacity config.loadPercent).1
    exact .bag ⟨⟨_, hwell, ⟨0, rfl⟩, 0, rfl⟩, rfl⟩
  | defineSorted label tag order =>
    obtain rfl := Option.some.inj hop
    exact .sorted ⟨rfl, rfl⟩
  | _ => exact absurd hop nofun

omit [Identified α] in
/-- A definition stands somewhere in the operations, and what comes after it is
what it has seen since. -/
theorem exists_of_mem_definitions {config : Config} {taken : List String}
    {ops : List (CatalogOp α)} {d : Definition α} (hd : d ∈ definitions config taken ops) :
    ∃ before op, ops = before ++ op :: d.since ∧ op.entry? config = some d.made := by
  induction ops generalizing taken with
  | nil => exact absurd hd List.not_mem_nil
  | cons op ops ih =>
    -- one that is found later has one more operation before it
    have hlater : ∀ {taken}, d ∈ definitions config taken ops →
        ∃ before o, op :: ops = before ++ o :: d.since ∧ o.entry? config = some d.made := by
      intro taken hmem
      obtain ⟨before, o, rfl, ho⟩ := ih hmem
      exact ⟨op :: before, o, rfl, ho⟩
    rw [definitions] at hd
    split at hd
    · exact hlater hd
    · rename_i e hop
      split at hd
      · exact hlater hd
      · rcases List.mem_cons.mp hd with rfl | hmem
        · exact ⟨[], op, rfl, hop⟩
        · exact hlater hmem

theorem Definition.now_alike {config : Config} {taken : List String} {ops : List (CatalogOp α)}
    {d : Definition α} (hd : d ∈ definitions config taken ops) : d.now.index.Alike d.alone := by
  obtain ⟨-, op, -, hop⟩ := exists_of_mem_definitions hd
  exact Entry.alike_after (CatalogOp.alike_of_entry? hop) d.since

namespace Index.Alike

variable {i j : Index α}

theorem insert_eq (h : i.Alike j) (a : α) : (i.insert a).1 = (j.insert a).1 :=
  SortedAnswer.changed.inj (h.perform (.insert a)).1

theorem remove_eq (h : i.Alike j) (a : α) : (i.remove a).1 = (j.remove a).1 :=
  SortedAnswer.changed.inj (h.perform (.remove a)).1

theorem kind_eq (h : i.Alike j) : i.kind = j.kind := by
  cases h <;> rfl

end Index.Alike

/-! ## Elements on their way -/

namespace Catalog

variable {c : Catalog α}

omit [Identified α] in
theorem withEntries_eq_self {entries : List (Entry α)} (hsame : entries = c.entries)
    (h : entries.length = c.entries.length) : c.withEntries entries h = c := by
  subst hsame
  rfl

namespace Registered

section Route

variable (h : c.Registered) {tag : Tag} (op : Index α → Bool × Index α)

include h

omit [Identified α] in
/-- What goes to a tag does not reach the indexes of other tags. -/
theorem index_route {e : Entry α} (hmem : e ∈ c.entries) (hother : e.tag ≠ tag) :
    (c.route tag op).2.index e.label = c.index e.label := by
  have hstays : e ∈ (c.route tag op).2.entries := by
    rw [(h.route_eq tag op).2]
    exact List.mem_map.mpr ⟨e, hmem, if_neg hother⟩
  rw [index, index, (h.route tag op).entry_of_mem hstays, h.entry_of_mem hmem]

omit [Identified α] in
/-- What goes to a tag without indexes does nothing. -/
theorem route_of_not_mem (hnone : tag ∉ c.tags) : c.route tag op = (0, c) := by
  have hother : ∀ e ∈ c.entries, e.tag ≠ tag := by
    rintro e he rfl
    exact hnone (List.mem_map_of_mem he)
  obtain ⟨hcount, hentries⟩ := h.route_eq tag op
  have hempty : c.entriesFor tag = [] := by
    rw [h.entriesFor_eq, List.filter_eq_nil_iff]
    intro e he
    exact fun htag => hother e he (of_decide_eq_true htag)
  have hsame : (c.route tag op).2.entries = c.entries := by
    rw [hentries, List.map_congr_left fun e he => if_neg (hother e he), List.map_id']
  refine Prod.ext ?_ (withEntries_eq_self hsame (length_countRouted ..))
  rw [hcount, hempty]
  rfl

end Route

variable {defs : List (Definition α)}

/-- The entries for a tag come from the definitions for it. -/
theorem countP_entriesFor (h : c.Registered) (hentries : c.entries = defs.map Definition.now)
    (tag : Tag) (p : Index α → Bool) (hsame : ∀ d ∈ defs, p d.now.index = p d.alone) :
    (c.entriesFor tag).countP (fun e => p e.index) =
      defs.countP fun d => d.made.tag = tag ∧ p d.alone := by
  rw [h.entriesFor_eq, List.countP_filter, hentries, List.countP_map]
  refine List.countP_congr ?_
  intro d hd
  simp [hsame d hd, and_comm]

/-- What goes to a tag is counted as the indexes that stand alone count it. -/
theorem count_route (h : c.Registered) (hentries : c.entries = defs.map Definition.now)
    {tag : Tag} {op : Index α → Bool × Index α}
    (hsame : ∀ d ∈ defs, (op d.now.index).1 = (op d.alone).1) :
    (c.route tag op).1 = defs.countP fun d => d.made.tag = tag ∧ (op d.alone).1 := by
  calc (c.route tag op).1
      = (c.entriesFor tag).countP fun e => (op e.index).1 := (h.route_eq tag op).1
    _ = defs.countP fun d => d.made.tag = tag ∧ (op d.alone).1 :=
        h.countP_entriesFor hentries tag (fun i => (op i).1) hsame

theorem routesTo (h : c.Registered) (hentries : c.entries = defs.map Definition.now)
    (halike : ∀ d ∈ defs, d.now.index.Alike d.alone) : c.RoutesTo defs := by
  have hnow : ∀ d ∈ defs, d.now ∈ c.entries := fun d hd => hentries ▸ List.mem_map_of_mem hd
  have htags : c.tags = defs.map (·.made.tag) := by
    rw [tags, hentries, List.map_map]
    exact List.map_congr_left fun d _ => d.tag_now
  have hconsists : c.ConsistsOf.{0} c.config defs := h.consistsOf rfl hentries
  exact {
    labels_eq := hconsists.labels_eq
    shows := by
      intro d hd
      have hsight := (halike d hd).sight_eq
      exact ⟨d.now.index, hconsists.index_eq d hd, congrArg Sight.elements hsight,
        congrArg Sight.changes hsight, (halike d hd).kind_eq, hsight⟩
    insert_count := fun a => h.count_route hentries fun d hd => (halike d hd).insert_eq a
    remove_count := fun a => h.count_route hentries fun d hd => (halike d hd).remove_eq a
    contains_iff := by
      intro a
      have hcount := h.countP_entriesFor hentries (Identified.tag a) (·.contains a) fun d hd =>
        congrArg (Sight.contains · a) (halike d hd).sight_eq
      rw [contains, List.any_eq_true, ← List.countP_pos_iff, hcount, List.countP_pos_iff]
      simp only [decide_eq_true_iff]
    other_tag := by
      intro a d hd hother
      have htag : d.now.tag ≠ Identified.tag a := by rwa [d.tag_now]
      have hinsert := h.index_route (·.insert a) (hnow d hd) htag
      have hremove := h.index_route (·.remove a) (hnow d hd) htag
      rw [d.label_now] at hinsert hremove
      exact ⟨hinsert, hremove⟩
    no_tag := by
      intro a hnone
      rw [← htags] at hnone
      exact ⟨h.route_of_not_mem _ hnone, h.route_of_not_mem _ hnone⟩ }

end Registered

/-- A catalog is a router.  After every run from a catalog without indexes, each
label shows what an index would show that was made like it and stood alone
since its definition, where it got the elements of its tag, the clearings and
what was done under its label.  An element is taken, found and removed by as
many indexes of the catalog as it would be by those that stand alone. -/
theorem routes_to_alone (config : Config) (ops : List (CatalogOp α)) :
    ((ofConfig config).after ops).RoutesTo (definitions config [] ops) :=
  (registered_after config ops).routesTo (entries_ofConfig_after config ops)
    fun _ hd => Definition.now_alike hd

end Catalog

end SnapshotIndex
