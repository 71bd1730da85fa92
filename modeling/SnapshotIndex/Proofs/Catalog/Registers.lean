import Mathlib.Data.List.Nodup
import SnapshotIndex.Catalog

/-!
# The registers of a catalog

A catalog finds its indexes through two registers of slots, which it keeps
beside the entries: one by label and one by tag.  `Registered` says that both
agree with the entries.  It survives every new entry of a new label
(`Registered.append`) and every change that leaves the entries in their slots,
with their labels and tags (`Registered.of_map`).

As long as it holds nothing depends on slots any more.  What is found under a
label is the entry of that label (`Registered.entry_eq_ok_iff`), what is found
for a tag are the entries of that tag (`Registered.entriesFor_eq`), and what is
done to indexes slot by slot is done to the entries that match
(`Registered.route_eq`, `Registered.entries_change`).  The obstacle is that the
entries change while the slots are gone through; `getElem?_countRouted` says
what becomes of each slot, since no slot is visited twice.
-/

namespace SnapshotIndex

universe u

/-! ## Elements by number -/

section Numbers

variable {β : Type} (xs : List β)

theorem map_getElem?_range : (List.range xs.length).map (xs[·]?) = xs.map some := by
  apply List.ext_getElem?
  intro i
  rw [List.getElem?_map, List.getElem?_map]
  rcases Nat.lt_or_ge i xs.length with hlt | hge
  · rw [List.getElem?_range hlt, Option.map_some, List.getElem?_eq_getElem hlt, Option.map_some]
  · rw [List.getElem?_eq_none (by rwa [List.length_range]), List.getElem?_eq_none hge]
    rfl

theorem countP_range_getElem? (p : β → Bool) :
    (List.range xs.length).countP (fun i => xs[i]?.any p) = xs.countP p := by
  have hmap : (List.range xs.length).countP (fun i => xs[i]?.any p) =
      ((List.range xs.length).map (xs[·]?)).countP (Option.any p) := by
    rw [List.countP_map]
    rfl
  rw [hmap, map_getElem?_range, List.countP_map]
  rfl

theorem filterMap_range_getElem? (p : β → Bool) :
    (List.range xs.length).filterMap (fun i => xs[i]?.filter p) = xs.filter p := by
  have hmap : (List.range xs.length).filterMap (fun i => xs[i]?.filter p) =
      ((List.range xs.length).map (xs[·]?)).filterMap (Option.filter p) := by
    rw [List.filterMap_map]
    rfl
  rw [hmap, map_getElem?_range, List.filterMap_map, ← List.filterMap_eq_filter]
  exact List.filterMap_congr fun a _ => rfl

theorem pmap_get (is : List Nat) (h : ∀ i ∈ is, i < xs.length) :
    is.pmap (fun i hi => xs.get ⟨i, hi⟩) h = is.filterMap (xs[·]?) := by
  induction is with
  | nil => rfl
  | cons i is ih =>
    have hi : xs[i]? = some (xs.get ⟨i, h i List.mem_cons_self⟩) :=
      List.getElem?_eq_getElem (h i List.mem_cons_self)
    rw [List.pmap_cons, List.filterMap_cons_some hi, ih]

end Numbers

namespace Catalog

variable {α : Type} {c : Catalog α}

/-- The tags of the indexes, in the order of definition. -/
def tags (c : Catalog α) : List Tag := c.entries.map Entry.tag

/-- Both registers agree with the entries: a label leads to the slot of the one
entry that has it, and a tag to the slots of all entries that have it, in
order. -/
structure Registered (c : Catalog α) : Prop where
  byLabel_iff : ∀ label slot, c.byLabel.get? label = some slot ↔ c.labels[slot]? = some label
  slots_eq : ∀ tag, c.slots tag = (List.range c.size).filter fun slot => c.tags[slot]? = some tag

/-! ## Entries -/

@[simp] theorem length_labels (c : Catalog α) : c.labels.length = c.size := List.length_map _

@[simp] theorem length_tags (c : Catalog α) : c.tags.length = c.size := List.length_map _

theorem getElem?_labels (c : Catalog α) (slot : Nat) :
    c.labels[slot]? = c.entries[slot]?.map Entry.label := List.getElem?_map

theorem getElem?_tags (c : Catalog α) (slot : Nat) :
    c.tags[slot]? = c.entries[slot]?.map Entry.tag := List.getElem?_map

theorem labels_append (c : Catalog α) (e : Entry α) :
    (c.append e).labels = c.labels ++ [e.label] := List.map_append

theorem tags_append (c : Catalog α) (e : Entry α) : (c.append e).tags = c.tags ++ [e.tag] :=
  List.map_append

theorem slots_append (c : Catalog α) (e : Entry α) (tag : Tag) :
    (c.append e).slots tag = if e.tag = tag then c.slots tag ++ [c.size] else c.slots tag := by
  unfold slots append
  rw [Assoc.get?_insert]
  split
  · rename_i htag
    rw [← htag]
    rfl
  · rfl

/-- A change under a label touches neither the sizing nor the registers. -/
theorem registers_change {ρ : Type u} (c : Catalog α) (label : String)
    (f : Index α → ρ × Index α) :
    (c.change label f).2.config = c.config ∧ (c.change label f).2.byLabel = c.byLabel ∧
      (c.change label f).2.byTag = c.byTag := by
  unfold change
  split <;> exact ⟨rfl, rfl, rfl⟩

/-! ## What keeps the registers right -/

theorem registered_ofConfig (config : Config) : (ofConfig config : Catalog α).Registered :=
  ⟨fun _ _ => ⟨nofun, nofun⟩, fun _ => rfl⟩

namespace Registered

/-- No label is given twice. -/
theorem labels_nodup (h : c.Registered) : c.labels.Nodup := by
  rw [List.nodup_iff_injective_getElem]
  intro i j hsame
  have hi := (h.byLabel_iff c.labels[j] i).mpr (List.getElem?_eq_some_iff.mpr ⟨i.2, hsame⟩)
  have hj := (h.byLabel_iff c.labels[j] j).mpr (List.getElem?_eq_getElem j.2)
  exact Fin.ext (Option.some.inj (hi.symm.trans hj))

theorem contains_byLabel (h : c.Registered) (label : String) :
    c.byLabel.contains label = true ↔ label ∈ c.labels := by
  rw [Assoc.contains, Option.isSome_iff_exists, List.mem_iff_getElem?]
  exact exists_congr fun slot => h.byLabel_iff label slot

/-- An entry of a new label goes into both registers. -/
theorem append (h : c.Registered) {e : Entry α} (hnew : e.label ∉ c.labels) :
    (c.append e).Registered where
  byLabel_iff label slot := by
    rw [labels_append, List.getElem?_append, length_labels]
    change (c.byLabel.insert e.label c.size).get? label = some slot ↔ _
    rw [Assoc.get?_insert]
    by_cases hlabel : e.label = label
    · -- the label of the new entry leads to it and to no other one
      subst hlabel
      rw [if_pos rfl, Option.some.injEq]
      split
      · rename_i hlt
        constructor
        · intro heq
          omega
        · intro hget
          exact absurd (List.mem_of_getElem? hget) hnew
      · rw [List.getElem?_singleton]
        split
        · exact ⟨fun _ => rfl, fun _ => by omega⟩
        · exact ⟨fun heq => by omega, nofun⟩
    · rw [if_neg hlabel, h.byLabel_iff]
      split
      · rfl
      · rename_i hge
        rw [List.getElem?_eq_none (by rw [length_labels]; omega), List.getElem?_singleton]
        split
        · rw [Option.some.injEq]
          exact ⟨nofun, fun heq => absurd heq hlabel⟩
        · rfl
  slots_eq tag := by
    have hsize : (c.append e).size = c.size + 1 := List.length_append
    have hold : ∀ slot ∈ List.range c.size,
        decide ((c.append e).tags[slot]? = some tag) = decide (c.tags[slot]? = some tag) := by
      intro slot hslot
      rw [tags_append, List.getElem?_append_left (by simpa using hslot)]
    have hlast : (c.append e).tags[c.size]? = some e.tag := by
      rw [tags_append, ← length_tags, List.getElem?_concat_length]
    rw [slots_append, hsize, List.range_succ, List.filter_append, List.filter_congr hold,
      ← h.slots_eq tag, List.filter_singleton, hlast]
    split
    · rename_i htag
      rw [htag, decide_eq_true rfl]
      rfl
    · rename_i htag
      rw [decide_eq_false fun heq => htag (Option.some.inj heq)]
      simp

/-- What stays in its slot, with its label and its tag, stays registered. -/
theorem of_map (h : c.Registered) {d : Catalog α} {f : Entry α → Entry α}
    (hlabel : d.byLabel = c.byLabel) (htag : d.byTag = c.byTag)
    (hentries : d.entries = c.entries.map f) (hf : ∀ e, (f e).label = e.label ∧ (f e).tag = e.tag) :
    d.Registered where
  byLabel_iff label slot := by
    have hlabels : d.labels = c.labels := by
      rw [labels, hentries, List.map_map]
      exact List.map_congr_left fun e _ => (hf e).1
    rw [hlabel, hlabels]
    exact h.byLabel_iff label slot
  slots_eq tag := by
    have htags : d.tags = c.tags := by
      rw [tags, hentries, List.map_map]
      exact List.map_congr_left fun e _ => (hf e).2
    have hsize : d.size = c.size := by rw [← length_tags, htags, length_tags]
    rw [htags, hsize, slots, htag]
    exact h.slots_eq tag

/-! ## Definitions and lookups -/

theorem define_of_mem (h : c.Registered) {label : String} (hmem : label ∈ c.labels) (tag : Tag)
    (index : Index α) : c.define label tag index = .error (.duplicateIndex label) := by
  unfold define
  rw [if_pos ((h.contains_byLabel label).mpr hmem)]

theorem define_of_not_mem (h : c.Registered) {label : String} (hnew : label ∉ c.labels)
    (tag : Tag) (index : Index α) :
    c.define label tag index = .ok (c.append ⟨label, tag, index⟩) := by
  unfold define
  rw [if_neg fun hcontains => hnew ((h.contains_byLabel label).mp hcontains)]

/-- The slot of a label is that of the entry that has it. -/
theorem position_of_getElem? (h : c.Registered) {slot : Nat} {e : Entry α}
    (hget : c.entries[slot]? = some e) :
    c.position e.label = .ok ⟨slot, (List.getElem?_eq_some_iff.mp hget).1⟩ := by
  have hfound : c.byLabel.get? e.label = some slot := by
    rw [h.byLabel_iff, getElem?_labels, hget]
    rfl
  unfold position
  split
  · rename_i other hother
    obtain rfl := Option.some.inj (hother.symm.trans hfound)
    rfl
  · rename_i hnone
    exact absurd (hnone.symm.trans hfound) nofun

theorem position_of_not_mem (h : c.Registered) {label : String} (hunknown : label ∉ c.labels) :
    c.position label = .error (.unknownIndex label (Label.closest? label c.labels)) := by
  unfold position
  split
  · rename_i slot hslot
    exact absurd (List.mem_of_getElem? ((h.byLabel_iff label slot).mp hslot)) hunknown
  · rfl

theorem entry_of_mem (h : c.Registered) {e : Entry α} (hmem : e ∈ c.entries) :
    c.entry e.label = .ok e := by
  obtain ⟨slot, hslot⟩ := List.mem_iff_getElem?.mp hmem
  obtain ⟨hlt, rfl⟩ := List.getElem?_eq_some_iff.mp hslot
  unfold entry
  rw [h.position_of_getElem? hslot]
  rfl

theorem entry_of_not_mem (h : c.Registered) {label : String} (hunknown : label ∉ c.labels) :
    c.entry label = .error (.unknownIndex label (Label.closest? label c.labels)) := by
  unfold entry
  rw [h.position_of_not_mem hunknown]
  rfl

/-- Under a label stands the entry that has it. -/
theorem entry_eq_ok_iff (h : c.Registered) {label : String} {e : Entry α} :
    c.entry label = .ok e ↔ e ∈ c.entries ∧ e.label = label := by
  constructor
  · intro hentry
    by_cases hmem : label ∈ c.labels
    · obtain ⟨d, hd, rfl⟩ := List.mem_map.mp hmem
      obtain rfl := Except.ok.inj ((h.entry_of_mem hd).symm.trans hentry)
      exact ⟨hd, rfl⟩
    · rw [h.entry_of_not_mem hmem] at hentry
      exact absurd hentry nofun
  · rintro ⟨hmem, rfl⟩
    exact h.entry_of_mem hmem

/-- The slots of a tag are those in which an entry has it. -/
theorem mem_slots_iff (h : c.Registered) {tag : Tag} {slot : Nat} :
    slot ∈ c.slots tag ↔ c.tags[slot]? = some tag := by
  rw [h.slots_eq, List.mem_filter, List.mem_range, decide_eq_true_iff]
  refine and_iff_right_of_imp fun htag => ?_
  rw [← length_tags]
  exact (List.getElem?_eq_some_iff.mp htag).1

/-- For a tag stand the entries that have it. -/
theorem entriesFor_eq (h : c.Registered) (tag : Tag) :
    c.entriesFor tag = c.entries.filter (·.tag = tag) := by
  unfold entriesFor
  rw [pmap_get, h.slots_eq, List.filterMap_filter, ← filterMap_range_getElem?]
  refine List.filterMap_congr ?_
  intro slot _
  rw [getElem?_tags]
  cases c.entries[slot]? with
  | none => simp
  | some e => by_cases htag : e.tag = tag <;> simp [htag, Option.filter]

end Registered

/-! ## Changes slot by slot -/

section Routed

variable (op : Index α → Bool × Index α) {slots : List Nat}

/-- What becomes of each slot if no slot is visited twice. -/
theorem getElem?_countRouted (hnodup : slots.Nodup) (entries : List (Entry α))
    (within : ∀ slot ∈ slots, slot < entries.length) (i : Nat) :
    (countRouted op slots entries within).2[i]? =
      entries[i]?.map fun e => if i ∈ slots then e.modify fun x => (op x).2 else e := by
  induction slots generalizing entries with
  | nil =>
    rw [countRouted]
    simp
  | cons slot slots ih =>
    obtain ⟨hnot, hrest⟩ := List.nodup_cons.mp hnodup
    rw [countRouted]
    dsimp only
    rw [ih hrest, List.getElem?_set]
    by_cases hi : slot = i
    · -- this slot is done now, and not visited again
      subst hi
      have hlt : slot < entries.length := within slot List.mem_cons_self
      simp [hnot, hlt]
    · simp [hi, Ne.symm hi]

/-- Each answer is that of the index before the operation. -/
theorem count_countRouted (hnodup : slots.Nodup) (entries : List (Entry α))
    (within : ∀ slot ∈ slots, slot < entries.length) :
    (countRouted op slots entries within).1 =
      slots.countP fun slot => entries[slot]?.any fun e => (op e.index).1 := by
  induction slots generalizing entries with
  | nil => rfl
  | cons slot slots ih =>
    obtain ⟨hnot, hrest⟩ := List.nodup_cons.mp hnodup
    have hlt : slot < entries.length := within slot List.mem_cons_self
    have hlater : ∀ other ∈ slots,
        ((entries.set slot ((entries.get ⟨slot, hlt⟩).modify fun x => (op x).2))[other]?.any
          fun e => (op e.index).1) = entries[other]?.any fun e => (op e.index).1 := by
      intro other hother
      have hne : slot ≠ other := fun heq => hnot (heq ▸ hother)
      rw [List.getElem?_set_ne hne]
    have hhere : (entries[slot]?.any fun e => (op e.index).1) =
        (op (entries.get ⟨slot, hlt⟩).index).1 := by
      rw [List.getElem?_eq_getElem hlt]
      rfl
    rw [countRouted, List.countP_cons, hhere]
    dsimp only
    rw [ih hrest, List.countP_congr fun other hother => by rw [hlater other hother]]
    split <;> rfl

end Routed

namespace Registered

theorem slots_nodup (h : c.Registered) (tag : Tag) : (c.slots tag).Nodup := by
  rw [h.slots_eq]
  exact List.nodup_range.filter _

/-- An operation that goes to a tag changes the entries that have the tag, and
is counted once for each of them that says yes. -/
theorem route_eq (h : c.Registered) (tag : Tag) (op : Index α → Bool × Index α) :
    (c.route tag op).1 = (c.entriesFor tag).countP (fun e => (op e.index).1) ∧
      (c.route tag op).2.entries =
        c.entries.map fun e => if e.tag = tag then e.modify fun i => (op i).2 else e := by
  have hnodup := h.slots_nodup tag
  constructor
  · change (countRouted op (c.slots tag) c.entries (c.slots_lt tag)).1 = _
    rw [count_countRouted op hnodup, h.entriesFor_eq, h.slots_eq, List.countP_filter,
      List.countP_filter, ← countP_range_getElem? c.entries]
    refine List.countP_congr ?_
    intro slot _
    rw [getElem?_tags]
    cases c.entries[slot]? with
    | none => simp
    | some e => simp
  · apply List.ext_getElem?
    intro i
    change (countRouted op (c.slots tag) c.entries (c.slots_lt tag)).2[i]? = _
    rw [getElem?_countRouted op hnodup, List.getElem?_map]
    cases hi : c.entries[i]? with
    | none => rfl
    | some e =>
      have hslot : i ∈ c.slots tag ↔ e.tag = tag := by
        rw [h.mem_slots_iff, getElem?_tags, hi, Option.map_some, Option.some.injEq]
      simp only [Option.map_some, hslot]

theorem route (h : c.Registered) (tag : Tag) (op : Index α → Bool × Index α) :
    (c.route tag op).2.Registered := by
  refine h.of_map rfl rfl (h.route_eq tag op).2 fun e => ?_
  split <;> exact ⟨rfl, rfl⟩

/-- To change what is in the slot of a label is to change the entry that has
it. -/
theorem change_of_mem {ρ : Type u} (h : c.Registered) {e : Entry α} (hmem : e ∈ c.entries)
    (f : Index α → ρ × Index α) :
    (c.change e.label f).1 = .ok (f e.index).1 ∧
      (c.change e.label f).2.entries =
        c.entries.map fun d => if d.label = e.label then d.modify fun i => (f i).2 else d := by
  obtain ⟨slot, hslot⟩ := List.mem_iff_getElem?.mp hmem
  obtain ⟨hlt, rfl⟩ := List.getElem?_eq_some_iff.mp hslot
  unfold change
  rw [h.position_of_getElem? hslot]
  refine ⟨rfl, ?_⟩
  apply List.ext_getElem?
  intro i
  change (c.entries.modify slot _)[i]? = _
  rw [List.getElem?_modify, List.getElem?_map]
  cases hi : c.entries[i]? with
  | none => rfl
  | some d =>
    -- no other slot has the label
    have hlabel : d.label = c.entries[slot].label ↔ slot = i := by
      constructor
      · intro hsame
        have hhere := h.position_of_getElem? hslot
        rw [← hsame, h.position_of_getElem? hi] at hhere
        exact (Fin.mk.inj (Except.ok.inj hhere)).symm
      · rintro rfl
        exact congrArg Entry.label (Option.some.inj (hi.symm.trans hslot))
    simp only [Option.map_some, hlabel]
    split <;> rfl

theorem change_of_not_mem {ρ : Type u} (h : c.Registered) {label : String}
    (hunknown : label ∉ c.labels) (f : Index α → ρ × Index α) :
    c.change label f = (.error (.unknownIndex label (Label.closest? label c.labels)), c) := by
  unfold change
  rw [h.position_of_not_mem hunknown]

/-- What is done under a label is done to the entry that has it, if there is
one. -/
theorem entries_change {ρ : Type u} (h : c.Registered) (label : String)
    (f : Index α → ρ × Index α) :
    (c.change label f).2.entries =
      c.entries.map fun e => if e.label = label then e.modify fun i => (f i).2 else e := by
  by_cases hmem : label ∈ c.labels
  · obtain ⟨e, he, rfl⟩ := List.mem_map.mp hmem
    exact (h.change_of_mem he f).2
  · have hother : ∀ e ∈ c.entries,
        (if e.label = label then e.modify fun i => (f i).2 else e) = e := by
      intro e he
      apply if_neg
      rintro rfl
      exact hmem (List.mem_map_of_mem he)
    rw [h.change_of_not_mem hmem, List.map_congr_left hother, List.map_id']

theorem change {ρ : Type u} (h : c.Registered) (label : String) (f : Index α → ρ × Index α) :
    (c.change label f).2.Registered := by
  obtain ⟨-, hlabel, htag⟩ := c.registers_change label f
  refine h.of_map hlabel htag (h.entries_change label f) fun e => ?_
  split <;> exact ⟨rfl, rfl⟩

theorem clear (h : c.Registered) : c.clear.Registered :=
  h.of_map rfl rfl rfl fun _ => ⟨rfl, rfl⟩

end Registered

end Catalog

end SnapshotIndex
