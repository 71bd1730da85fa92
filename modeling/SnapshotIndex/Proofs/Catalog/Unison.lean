import SnapshotIndex.Proofs.Catalog.Routing
import SnapshotIndex.Proofs.Snapshot.Agreement
import SnapshotIndex.Proofs.Snapshot.Idle

/-!
# The indexes of one tag agree

An element that comes to a catalog goes to every index of its tag, of whatever
kind and order they are.  If they are all there from the first element on, and
only the catalog changes them, then they hold the same elements at any time,
as far as elements of one identity have equal keys (`KeyOrder.Consistent`).
`Definition.Common` is what has to be known of each of them, and `InUnison` is
what follows for the catalog.

The indexes have not been through the same operations, since one may have been
defined after elements were removed or everything was cleared.  But this does
nothing to an empty index.  So each of them compares with one and the same bag,
made at the very beginning (`commonBag`): a bag of the catalog cannot be told
from it, and a sorted index goes in step with it, apart from snapshots.
-/

namespace SnapshotIndex

open Identified (ident)

variable {α : Type} [Identified α]

/-! ## Operations and one tag -/

namespace CatalogOp

/-- Whether an operation adds an element of a tag. -/
def adds (t : Tag) : CatalogOp α → Bool
  | .insert a => Identified.tag a = t
  | _ => false

/-- The element that an operation hands to the catalog. -/
def element? : CatalogOp α → Option α
  | .insert a => some a
  | .remove a => some a
  | _ => none

/-- The change that an operation makes to every index of a tag. -/
def sharedOp? (t : Tag) : CatalogOp α → Option (IndexOp α)
  | .insert a => if t = Identified.tag a then some (.insert a) else none
  | .remove a => if t = Identified.tag a then some (.remove a) else none
  | .clear => some .clear
  | _ => none

end CatalogOp

/-- One of the indexes of a tag that share their elements: some handles of the
tag are of one order if they are of one identity, nothing was added to the
catalog before the index was defined, and nothing was done to it alone. -/
structure Definition.Common (t : Tag) (as : List α) (ops : List (CatalogOp α))
    (d : Definition α) : Prop where
  ordered : ∀ s, d.made.index = .sorted s → Std.TransCmp s.order.keys ∧ s.order.Consistent as
  /-- It has seen all elements of the tag that were added. -/
  early : d.since.countP (·.adds t) = ops.countP (·.adds t)
  untouched : ∀ op, .change d.made.label op ∉ d.since

/-- A catalog in which all indexes for a tag hold the same, and do the same with
some handles. -/
structure Catalog.InUnison (t : Tag) (as : List α) (c : Catalog α) : Prop where
  /-- No identity is stored twice. -/
  distinct : ∀ e ∈ c.entriesFor t, (e.index.toList.map ident).Nodup
  perm : ∀ d ∈ c.entriesFor t, ∀ e ∈ c.entriesFor t, d.index.toList.Perm e.index.toList
  /-- Of each identity they store the same element. -/
  stored : ∀ d ∈ c.entriesFor t, ∀ e ∈ c.entriesFor t, ∀ id,
    d.index.toList.find? (ident · = id) = e.index.toList.find? (ident · = id)
  /-- All of them take an element if it is new, and otherwise none. -/
  insert_count : ∀ a ∈ as, Identified.tag a = t →
    (c.insert a).1 = if c.contains a then 0 else (c.entriesFor t).length
  /-- All of them had an element that is removed, or none. -/
  remove_count : ∀ a ∈ as, Identified.tag a = t →
    (c.remove a).1 = if c.contains a then (c.entriesFor t).length else 0
  contains_eq : ∀ a ∈ as, Identified.tag a = t → ∀ e ∈ c.entriesFor t,
    c.contains a = e.index.contains a ∧
      (c.contains a = true ↔ ∃ b ∈ e.index.toList, ident b = ident a)

/-! ## Indexes that do the same -/

/-- Two indexes that hold the same and do the same with some handles. -/
structure Index.Twin (as : List α) (i j : Index α) : Prop where
  perm : i.toList.Perm j.toList
  contains_eq : ∀ a ∈ as, i.contains a = j.contains a
  insert_eq : ∀ a ∈ as, (i.insert a).1 = (j.insert a).1
  remove_eq : ∀ a ∈ as, (i.remove a).1 = (j.remove a).1

namespace Index

variable {as : List α} {i j k : Index α}

theorem Alike.twin (h : i.Alike j) (as : List α) : j.Twin as i where
  perm := List.Perm.of_eq (congrArg Sight.elements h.sight_eq).symm
  contains_eq a _ := (congrArg (Sight.contains · a) h.sight_eq).symm
  insert_eq a _ := (h.insert_eq a).symm
  remove_eq a _ := (h.remove_eq a).symm

theorem Twin.trans (h : i.Twin as j) (h' : j.Twin as k) : i.Twin as k where
  perm := h.perm.trans h'.perm
  contains_eq a ha := (h.contains_eq a ha).trans (h'.contains_eq a ha)
  insert_eq a ha := (h.insert_eq a ha).trans (h'.insert_eq a ha)
  remove_eq a ha := (h.remove_eq a ha).trans (h'.remove_eq a ha)

section InStep

variable {order : KeyOrder α} [Std.TransCmp order.keys] (hconsistent : order.Consistent as)

include hconsistent

theorem InStep.twin (h : i.InStep (SameElements order as) j) : i.Twin as j := by
  cases h with
  | of h =>
    exact {
      perm := h.content.perm
      contains_eq := fun a ha => h.content.contains_eq hconsistent ha
      insert_eq := fun a ha => (inStep_insert hconsistent h ha).1
      remove_eq := fun a ha => (inStep_remove hconsistent h ha).1 }

/-- Two indexes in step stay so over operations that both have. -/
theorem InStep.foldl (h : i.InStep (SameElements order as) j) {os : List (IndexOp α)}
    (hos : ∀ o ∈ os, (Request.act (.change o)).IsShared ∧
      ∀ a ∈ (Request.act (.change o)).element?, a ∈ as) :
    (os.foldl Index.perform i).InStep (SameElements order as) (os.foldl Index.perform j) := by
  induction os generalizing i j with
  | nil => exact h
  | cons o os ih =>
    obtain ⟨hshared, hknown⟩ := hos o List.mem_cons_self
    exact ih (h.perform hconsistent hshared hknown) fun o' ho' =>
      hos o' (List.mem_cons_of_mem o ho')

end InStep

/-! ## Bags -/

/-- Only to add something to a new bag does something to it. -/
theorem idle_newBag (config : Config) {o : IndexOp α} (ho : ∀ a, o ≠ .insert a) :
    (newBag config).Idle o := by
  obtain ⟨hwell, hempty⟩ :=
    IdentTable.wellFormed_withLoad (α := α) config.bagCapacity config.loadPercent
  cases o with
  | insert a => exact absurd rfl (ho a)
  | remove a =>
    refine Bool.eq_false_iff.mpr fun hcontains => ?_
    obtain ⟨b, hb, -⟩ := (hwell.contains_iff a).mp hcontains
    rw [hempty] at hb
    exact absurd hb List.not_mem_nil
  | clear => rfl
  | sorted op => trivial

/-- A bag stays a bag with a well-formed table. -/
theorem bag_foldl {b : Bag α} (h : (bag b).Sound) (os : List (IndexOp α)) :
    ∃ c, os.foldl Index.perform (bag b) = .bag c ∧ c.content.WellFormed := by
  induction os generalizing b with
  | nil => exact ⟨b, rfl, h.2⟩
  | cons o os ih =>
    obtain ⟨c, hc⟩ : ∃ c, (bag b).perform o = .bag c := by
      cases o <;> exact ⟨_, rfl⟩
    have hsound := (follows_perform h o).sound
    rw [hc] at hsound
    rw [List.foldl_cons, hc]
    exact ih hsound

end Index

/-! ## One bag for all of them -/

/-- A bag that stands alone from the beginning and gets everything that goes to
a tag. -/
def commonBag (config : Config) (t : Tag) (ops : List (CatalogOp α)) : Index α :=
  (ops.filterMap (·.sharedOp? t)).foldl Index.perform (.newBag config)

namespace CatalogOp

variable {t : Tag}

/-- What reaches an index to which nothing is done alone goes to its tag. -/
theorem indexOp?_eq_sharedOp? {e : Entry α} {op : CatalogOp α}
    (hop : ∀ o, op ≠ .change e.label o) : op.indexOp? e = op.sharedOp? e.tag := by
  cases op with
  | change label o =>
    refine if_neg ?_
    rintro rfl
    exact hop o rfl
  | _ => rfl

/-- Nothing that goes to a tag is an operation of sorted indexes only, and its
elements are known. -/
theorem shared_of_mem {as : List α} {ops : List (CatalogOp α)}
    (hknown : ∀ op ∈ ops, ∀ a ∈ op.element?, Identified.tag a = t → a ∈ as) {o : IndexOp α}
    (ho : o ∈ ops.filterMap (·.sharedOp? t)) :
    (Request.act (.change o)).IsShared ∧ ∀ a ∈ (Request.act (.change o)).element?, a ∈ as := by
  obtain ⟨op, hop, hshared⟩ := List.mem_filterMap.mp ho
  have hthese := hknown op hop
  cases op with
  | insert a =>
    obtain ⟨htag, ho⟩ := Option.ite_none_right_eq_some.mp hshared
    obtain rfl := Option.some.inj ho
    refine ⟨trivial, ?_⟩
    rintro _ ⟨⟩
    exact hthese a rfl htag.symm
  | remove a =>
    obtain ⟨htag, ho⟩ := Option.ite_none_right_eq_some.mp hshared
    obtain rfl := Option.some.inj ho
    refine ⟨trivial, ?_⟩
    rintro _ ⟨⟩
    exact hthese a rfl htag.symm
  | clear =>
    obtain rfl := Option.some.inj hshared
    exact ⟨trivial, nofun⟩
  | _ => exact absurd hshared nofun

/-- As long as nothing is added, an empty bag is not changed. -/
theorem commonBag_of_not_adds (config : Config) {ops : List (CatalogOp α)}
    (hops : ∀ op ∈ ops, op.adds t = false) : commonBag config t ops = .newBag config := by
  have hstays : ∀ os : List (IndexOp α), (∀ o ∈ os, ∀ a, o ≠ .insert a) →
      os.foldl Index.perform (.newBag config) = .newBag config := by
    intro os hos
    induction os with
    | nil => rfl
    | cons o os ih =>
      rw [List.foldl_cons,
        Index.perform_of_idle (Index.idle_newBag config (hos o List.mem_cons_self))]
      exact ih fun o' ho' => hos o' (List.mem_cons_of_mem o ho')
  refine hstays _ ?_
  rintro _ ho a rfl
  obtain ⟨op, hop, hshared⟩ := List.mem_filterMap.mp ho
  have hadds := hops op hop
  cases op with
  | insert b =>
    obtain ⟨htag, -⟩ := Option.ite_none_right_eq_some.mp hshared
    exact absurd htag.symm (of_decide_eq_false hadds)
  | remove b =>
    obtain ⟨-, ho⟩ := Option.ite_none_right_eq_some.mp hshared
    exact absurd ho nofun
  | _ => exact absurd hshared nofun

end CatalogOp

namespace Definition.Common

variable {config : Config} {t : Tag} {as : List α} {ops : List (CatalogOp α)} {d : Definition α}

/-- What has reached the index of a definition is what went to its tag. -/
theorem filterMap_indexOp? (h : d.Common t as ops) (htag : d.made.tag = t) :
    d.since.filterMap (·.indexOp? d.made) = d.since.filterMap (·.sharedOp? t) := by
  refine List.filterMap_congr ?_
  intro op hop
  rw [← htag]
  apply CatalogOp.indexOp?_eq_sharedOp?
  rintro o rfl
  exact h.untouched o hop

/-- What went to the tag before a definition did nothing. -/
theorem commonBag_eq (h : d.Common t as ops) (hd : d ∈ definitions config [] ops) :
    commonBag config t ops = commonBag config t d.since := by
  obtain ⟨before, op, hsplit, hop⟩ := exists_of_mem_definitions hd
  have hnone : ∀ o ∈ before, o.adds t = false := by
    have hcount := h.early
    rw [hsplit, List.countP_append, List.countP_cons] at hcount
    have hzero : before.countP (·.adds t) = 0 := by omega
    intro o ho
    exact Bool.eq_false_iff.mpr (List.countP_eq_zero.mp hzero o ho)
  have hdefinition : op.sharedOp? t = none := by
    cases op with
    | defineBag label tag => rfl
    | defineSorted label tag order => rfl
    | _ => exact absurd hop nofun
  have hstart := CatalogOp.commonBag_of_not_adds config hnone
  unfold commonBag at hstart ⊢
  rw [hsplit, List.filterMap_append, List.filterMap_cons_none hdefinition, List.foldl_append,
    hstart]

/-- The index of a definition does the same as the bag. -/
theorem twin (h : d.Common t as ops) (hd : d ∈ definitions config [] ops)
    (htag : d.made.tag = t)
    (hknown : ∀ op ∈ ops, ∀ a ∈ op.element?, Identified.tag a = t → a ∈ as) :
    (commonBag config t ops).Twin as d.now.index := by
  obtain ⟨before, op, hsplit, hop⟩ := exists_of_mem_definitions hd
  have halone := (Definition.now_alike hd).twin as
  have hsame : d.alone =
      (d.since.filterMap (·.sharedOp? t)).foldl Index.perform d.made.index := by
    rw [alone, h.filterMap_indexOp? htag]
  rw [h.commonBag_eq hd]
  refine Index.Twin.trans ?_ halone
  rw [hsame, commonBag]
  have hordered := h.ordered
  cases op with
  | defineBag label tag =>
    rw [← Option.some.inj hop]
    exact ⟨List.Perm.refl _, fun _ _ => rfl, fun _ _ => rfl, fun _ _ => rfl⟩
  | defineSorted label tag order =>
    rw [← Option.some.inj hop] at hordered ⊢
    obtain ⟨htrans, hconsistent⟩ : Std.TransCmp order.keys ∧ order.Consistent as :=
      hordered _ rfl
    have hstart : (Index.newBag config).InStep (SameElements order as) (.newSorted order) :=
      .of (.of (.of_empty (IdentTable.wellFormed_withLoad config.bagCapacity config.loadPercent)))
    refine (hstart.foldl hconsistent ?_).twin hconsistent
    intro o ho
    refine CatalogOp.shared_of_mem (fun op hop => hknown op ?_) ho
    rw [hsplit]
    exact List.mem_append_right before (List.mem_cons_of_mem _ hop)
  | _ => exact absurd hop nofun

end Definition.Common

/-! ## The catalog -/

namespace Catalog

variable {c : Catalog α} {t : Tag} {as : List α}

omit [Identified α] in
/-- If the indexes of a tag say the same, all of them are counted or none. -/
theorem Registered.route_count (h : c.Registered) {op : Index α → Bool × Index α} {answer : Bool}
    (hsame : ∀ e ∈ c.entriesFor t, (op e.index).1 = answer) :
    (c.route t op).1 = if answer then (c.entriesFor t).length else 0 := by
  rw [(h.route_eq t op).1]
  cases answer with
  | true => exact List.countP_eq_length.mpr hsame
  | false =>
    refine List.countP_eq_zero.mpr ?_
    intro e he
    rw [hsame e he]
    exact Bool.false_ne_true

/-- Indexes that compare with one bag are in unison. -/
theorem Registered.inUnison (h : c.Registered) {b : Bag α} (hwell : b.content.WellFormed)
    (htwin : ∀ e ∈ c.entriesFor t, (Index.bag b).Twin as e.index) : c.InUnison t as := by
  have hbag : (b.toList.map ident).Nodup :=
    List.pairwise_map.mpr hwell.toLinked.pairwise_ident_ne
  have hdistinct : ∀ e ∈ c.entriesFor t, (e.index.toList.map ident).Nodup := by
    intro e he
    exact ((htwin e he).perm.map ident).nodup_iff.mp hbag
  have hperm : ∀ d ∈ c.entriesFor t, ∀ e ∈ c.entriesFor t,
      d.index.toList.Perm e.index.toList := by
    intro d hd e he
    exact (htwin d hd).perm.symm.trans (htwin e he).perm
  have hcontains : ∀ a ∈ as, Identified.tag a = t → ∀ e ∈ c.entriesFor t,
      c.contains a = b.contains a := by
    rintro a ha rfl e he
    rw [contains, Bool.eq_iff_iff, List.any_eq_true]
    constructor
    · rintro ⟨d, hd, hfound⟩
      rwa [← (htwin d hd).contains_eq a ha] at hfound
    · intro hfound
      exact ⟨e, he, ((htwin e he).contains_eq a ha).symm.trans hfound⟩
  -- without any index there is nothing to count
  have hanswer : ∀ a ∈ as, Identified.tag a = t → ∀ p : Bool → Bool,
      (if p (b.contains a) then (c.entriesFor t).length else 0) =
        if p (c.contains a) then (c.entriesFor t).length else 0 := by
    intro a ha htag p
    cases hentries : c.entriesFor t with
    | nil => simp
    | cons e rest => rw [hcontains a ha htag e (hentries ▸ List.mem_cons_self)]
  exact {
    distinct := hdistinct
    perm := hperm
    stored := by
      intro d hd e he id
      apply Option.ext
      intro a
      rw [find?_ident_iff (hdistinct d hd), find?_ident_iff (hdistinct e he),
        (hperm d hd e he).mem_iff]
    insert_count := by
      rintro a ha rfl
      have hnew : ∀ e ∈ c.entriesFor (Identified.tag a), (e.index.insert a).1 = !b.contains a :=
        fun e he => ((htwin e he).insert_eq a ha).symm.trans (Bag.insert_fst hwell a)
      refine ((h.route_count hnew).trans (hanswer a ha rfl (!·))).trans ?_
      cases c.contains a <;> rfl
    remove_count := by
      rintro a ha rfl
      have hold : ∀ e ∈ c.entriesFor (Identified.tag a), (e.index.remove a).1 = b.contains a :=
        fun e he => ((htwin e he).remove_eq a ha).symm.trans (b.remove_fst a)
      exact (h.route_count hold).trans (hanswer a ha rfl id)
    contains_eq := by
      intro a ha htag e he
      rw [hcontains a ha htag e he]
      refine ⟨(htwin e he).contains_eq a ha, (hwell.contains_iff a).trans ?_⟩
      exact exists_congr fun b => and_congr_left' (htwin e he).perm.mem_iff }

/-- All indexes of a tag agree.  If those that are defined for it in a run are
there before the first element of the tag, if only elements that come and go
and the clearing of everything change them, and if handles of one identity are
equal in the order of each of them, then they hold the same elements after the
run, and they take, remove and find the same ones. -/
theorem tag_in_unison (config : Config) (t : Tag) (as : List α) (ops : List (CatalogOp α))
    (hknown : ∀ op ∈ ops, ∀ a ∈ op.element?, Identified.tag a = t → a ∈ as)
    (hcommon : ∀ d ∈ definitions config [] ops, d.made.tag = t → d.Common t as ops) :
    ((ofConfig config).after ops).InUnison t as := by
  have hregistered := registered_after config ops
  have hsound : (Index.newBag config : Index α).Sound :=
    Index.sound_bagOver config.bagCapacity config.loadPercent []
  obtain ⟨b, hb, hwell⟩ := Index.bag_foldl hsound (ops.filterMap (·.sharedOp? t))
  refine hregistered.inUnison hwell ?_
  intro e he
  rw [hregistered.entriesFor_eq, entries_ofConfig_after, List.mem_filter, List.mem_map] at he
  obtain ⟨⟨d, hd, rfl⟩, htag⟩ := he
  have htag : d.made.tag = t := by
    rw [← d.tag_now]
    exact of_decide_eq_true htag
  rw [← hb]
  exact (hcommon d hd htag).twin hd htag hknown

/-- A bag and an order by tens for one tag, the latter defined after an element
has been removed in vain, and a bag for another tag.  A record comes twice, with
two keys of one bucket. -/
theorem tag_in_unison_bucket :
    let first : Record := ⟨⟨1⟩, 11, ⟨1⟩, ""⟩
    let again : Record := ⟨⟨1⟩, 14, ⟨1⟩, ""⟩
    let second : Record := ⟨⟨2⟩, 3, ⟨1⟩, ""⟩
    let other : Record := ⟨⟨3⟩, 3, ⟨2⟩, ""⟩
    let as := [first, again, second]
    let ops : List (CatalogOp Record) :=
      [.defineBag "all" ⟨1⟩, .remove first, .defineSorted "tens" ⟨1⟩ RecordOrder.bucket.keyOrder,
        .defineBag "others" ⟨2⟩, .insert first, .insert second, .defineBag "all" ⟨1⟩,
        .insert other, .insert again, .change "others" .clear, .remove second]
    (∀ op ∈ ops, ∀ a ∈ op.element?, Identified.tag a = ⟨1⟩ → a ∈ as) ∧
      (∀ d ∈ definitions {} [] ops, d.made.tag = ⟨1⟩ → d.Common ⟨1⟩ as ops) ∧
      ((ofConfig {}).after ops).InUnison ⟨1⟩ as := by
  intro first again second other as ops
  have htrans : Std.TransCmp RecordOrder.bucket.keyOrder.keys := inferInstance
  have hconsistent : RecordOrder.bucket.keyOrder.Consistent as := by
    unfold KeyOrder.Consistent
    decide
  have hknown : ∀ op ∈ ops, ∀ a ∈ op.element?, Identified.tag a = ⟨1⟩ → a ∈ as := by
    simp [ops, as, CatalogOp.element?, first, again, second, other, Identified.tag]
  have hcommon : ∀ d ∈ definitions {} [] ops, d.made.tag = ⟨1⟩ → d.Common ⟨1⟩ as ops := by
    intro d hd htag
    simp [ops, definitions, CatalogOp.entry?] at hd
    rcases hd with rfl | rfl | rfl
    · refine ⟨?_, rfl, by simp⟩
      rintro s ⟨⟩
    · refine ⟨?_, rfl, by simp⟩
      rintro s ⟨⟩
      exact ⟨htrans, hconsistent⟩
    · exact absurd htag (by decide)
  exact ⟨hknown, hcommon, tag_in_unison {} ⟨1⟩ as ops hknown hcommon⟩

-- An index that is defined too late never catches up: it alone takes a record
-- that the other one has already.
example :
    let r : Record := ⟨⟨1⟩, 11, ⟨1⟩, ""⟩
    let ops : List (CatalogOp Record) :=
      [.defineBag "early" ⟨1⟩, .insert r,
        .defineSorted "late" ⟨1⟩ RecordOrder.bucket.keyOrder]
    (((ofConfig {}).after ops).insert r).1 = 1 := by
  decide

end Catalog

end SnapshotIndex
