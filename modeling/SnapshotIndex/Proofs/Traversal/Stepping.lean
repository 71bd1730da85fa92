import Mathlib.Data.List.Chain
import Mathlib.Data.List.Iterate
import Mathlib.Order.Bounds.Basic
import SnapshotIndex.Proofs.Table.Operations
import SnapshotIndex.Proofs.Traversal.ArrayPlaces
import SnapshotIndex.Proofs.Traversal.TablePlaces

/-!
# Stores are walked like doubly linked lists

No store has links between its elements.  A table looks for the nearest slot
that is occupied, whatever lies between, and an array counts; the place past the
end is the number of slots in the one and the number of elements in the other,
and how many elements there are is read off a counter that is kept on the side.
Yet whoever walks through a store by its positions is to see one and the same
thing, `DoublyLinked`.

What the stores have in common is a row of places: the place before the start,
those of the elements, and the one past the end, each of them one step away from
the next in both directions (`Row`).  The two conventions for the ends differ in
nothing but the number of the last place.

* `Row.doublyLinked`: the row is all that a walk depends on.
* `IdentTable.row`, `SortedArray.row`: the rows of the stores.
* `IdentTable.stepsToNearest`: steps in a table, from any slot at all.
* `stores_doubly_linked`: every table that can be reached, and every array.
-/

namespace SnapshotIndex

namespace Position

/-- Each place comes before all that are listed after it. -/
def Increasing (places : List Position) : Prop := places.Pairwise fun p q => p.order q = .lt

@[simp] theorem order_before_nth (i : Nat) : before.order (nth i) = .lt :=
  Nat.compare_eq_lt.mpr (Nat.succ_pos i)

theorem order_nth_iff {i j : Nat} : (nth i).order (nth j) = .lt ↔ i < j :=
  Nat.compare_eq_lt.trans Nat.succ_lt_succ_iff

theorem order_self_ne_lt (p : Position) : p.order p ≠ .lt :=
  fun hlt => Nat.lt_irrefl p.rank (Nat.compare_eq_lt.mp hlt)

end Position

section Walks

variable {σ α : Type} [Positional σ α]

/-- The places that one comes by from the first one on, as many as there are
elements. -/
def Positional.ascent (content : σ) : List Position :=
  List.iterate (Positional.next content) (Positional.first content) (Positional.size content)

/-- The places that one comes by from the last one back. -/
def Positional.descent (content : σ) : List Position :=
  List.iterate (Positional.prev content) (Positional.last content) (Positional.size content)

/-- A store that is walked like a doubly linked list of some elements. -/
structure DoublyLinked (content : σ) (xs : List α) : Prop where
  size_eq : Positional.size content = xs.length
  /-- On the way up are all places that hold an element, and no others, -/
  holds_iff : ∀ p, Positional.holds content p = true ↔ p ∈ Positional.ascent content
  /-- in increasing order, -/
  increasing : Position.Increasing (Positional.ascent content)
  /-- with the elements as they are listed. -/
  reads : (Positional.ascent content).map (Positional.get? content) = xs.map some
  /-- One step more leads to a place without an element. -/
  past_last : Positional.holds content
    ((Positional.next content)^[Positional.size content] (Positional.first content)) = false
  /-- The way down goes by the same places in reverse order, -/
  descent_eq : Positional.descent content = (Positional.ascent content).reverse
  /-- and then to the place before the start. -/
  past_first :
    (Positional.prev content)^[Positional.size content] (Positional.last content) = .before
  /-- Steps up and down undo each other, -/
  prev_next : ∀ p, Positional.holds content p = true →
    Positional.prev content (Positional.next content p) = p
  next_prev : ∀ p, Positional.holds content p = true →
    Positional.next content (Positional.prev content p) = p
  /-- also at the ends, and whether or not there is an element. -/
  next_before : Positional.next content .before = Positional.first content
  prev_next_last : Positional.prev content (Positional.next content (Positional.last content)) =
    Positional.last content
  /-- A store without elements begins and ends nowhere. -/
  ends_of_empty : Positional.size content = 0 →
    Positional.holds content (Positional.first content) = false ∧
      Positional.holds content (Positional.last content) = false

theorem DoublyLinked.holds_first {content : σ} {xs : List α} (h : DoublyLinked content xs)
    (hsize : Positional.size content ≠ 0) :
    Positional.holds content (Positional.first content) = true := by
  obtain ⟨n, hn⟩ := Nat.exists_eq_succ_of_ne_zero hsize
  rw [h.holds_iff, Positional.ascent, hn]
  exact List.mem_cons_self

/-! ## Rows -/

/-- One step apart, in both directions. -/
def Adjacent (content : σ) (p q : Position) : Prop :=
  Positional.next content p = q ∧ Positional.prev content q = p

/-- The place before the start, places that hold some elements, and the place past
the end are in a row. -/
structure Row (content : σ) (places : List Position) (past : Position) (xs : List α) : Prop where
  linked : List.IsChain (Adjacent content) (.before :: places ++ [past])
  increasing : Position.Increasing (.before :: places ++ [past])
  holds_iff : ∀ p, Positional.holds content p = true ↔ p ∈ places
  reads : places.map (Positional.get? content) = xs.map some
  size_eq : Positional.size content = xs.length
  first_eq : Positional.first content = Positional.next content .before
  last_eq : Positional.last content = Positional.prev content past

theorem iterate_of_isChain {f : Position → Position} {p : Position} {places : List Position}
    (h : List.IsChain (fun p q => f p = q) (p :: places)) :
    List.iterate f p (places.length + 1) = p :: places := by
  induction places generalizing p with
  | nil => rfl
  | cons q places ih =>
    obtain ⟨rfl, hrest⟩ := List.isChain_cons_cons.mp h
    exact congrArg (p :: ·) (ih hrest)

/-- Steps from one end of a row go by all that is between the ends, and then to the
other end. -/
theorem iterate_between {f : Position → Position} {p q : Position} {places : List Position}
    (h : List.IsChain (fun p q => f p = q) (p :: places ++ [q])) :
    List.iterate f (f p) places.length = places ∧ f^[places.length] (f p) = q := by
  have hall : List.iterate f p ((places ++ [q]).length + 1) = p :: (places ++ [q]) :=
    iterate_of_isChain h
  rw [List.length_append, List.length_singleton, List.iterate, List.cons.injEq,
    List.iterate_add] at hall
  obtain ⟨hplaces, hend⟩ := List.append_inj hall.2 (List.length_iterate _ _ _)
  exact ⟨hplaces, List.head_eq_of_cons_eq hend⟩

namespace Row

variable {content : σ} {places : List Position} {past : Position} {xs : List α}

theorem length_places (h : Row content places past xs) :
    places.length = Positional.size content := by
  have hlength := congrArg List.length h.reads
  rw [List.length_map, List.length_map] at hlength
  rw [h.size_eq, hlength]

theorem up (h : Row content places past xs) : Positional.ascent content = places ∧
    (Positional.next content)^[Positional.size content] (Positional.first content) = past := by
  unfold Positional.ascent
  rw [h.first_eq, ← h.length_places]
  exact iterate_between (h.linked.imp fun _ _ hpq => hpq.1)

theorem down (h : Row content places past xs) :
    Positional.descent content = places.reverse ∧
      (Positional.prev content)^[Positional.size content] (Positional.last content) =
        .before := by
  have hback : List.IsChain (fun p q => Positional.prev content p = q)
      (past :: places.reverse ++ [.before]) := by
    have hrow : past :: places.reverse ++ [.before] = (.before :: places ++ [past]).reverse := by
      simp
    rw [hrow, List.isChain_reverse]
    exact h.linked.imp fun _ _ hpq => hpq.2
  unfold Positional.descent
  rw [h.last_eq, ← h.length_places, ← List.length_reverse]
  exact iterate_between hback

theorem prev_next (h : Row content places past xs) {p : Position} (hp : p ∈ .before :: places) :
    Positional.prev content (Positional.next content p) = p := by
  obtain ⟨left, right, hsplit⟩ := List.append_of_mem hp
  have hlinked := h.linked
  rw [hsplit, List.append_assoc, List.cons_append, List.isChain_append] at hlinked
  obtain ⟨-, hright, -⟩ := hlinked
  obtain ⟨q, rest, hrest⟩ := List.exists_cons_of_ne_nil
    (List.append_ne_nil_of_right_ne_nil right (List.cons_ne_nil past []))
  rw [hrest] at hright
  obtain ⟨⟨hnext, hprev⟩, -⟩ := List.isChain_cons_cons.mp hright
  rw [hnext, hprev]

theorem next_prev (h : Row content places past xs) {q : Position} (hq : q ∈ places ++ [past]) :
    Positional.next content (Positional.prev content q) = q := by
  obtain ⟨left, right, hsplit⟩ := List.append_of_mem hq
  have hlinked := h.linked
  rw [List.cons_append, hsplit, ← List.cons_append] at hlinked
  obtain ⟨hnext, hprev⟩ :=
    hlinked.rel_getLast_head_of_append (List.cons_ne_nil _ _) (List.cons_ne_nil _ _)
  rw [List.head_cons] at hnext hprev
  rw [hprev, hnext]

theorem not_holds_past (h : Row content places past xs) :
    Positional.holds content past = false := by
  rw [Bool.eq_false_iff, Ne, h.holds_iff]
  intro hmem
  have hless := (List.pairwise_append.mp h.increasing).2.2 past
    (List.mem_cons_of_mem _ hmem) past (List.mem_singleton_self past)
  exact past.order_self_ne_lt hless

theorem last_mem (h : Row content places past xs) :
    Positional.last content ∈ .before :: places := by
  obtain ⟨-, hprev⟩ :=
    h.linked.rel_getLast_head_of_append (List.cons_ne_nil _ _) (List.cons_ne_nil _ _)
  rw [List.head_cons] at hprev
  rw [h.last_eq, hprev]
  exact List.getLast_mem _

/-- The row is all that a walk depends on. -/
theorem doublyLinked (h : Row content places past xs) : DoublyLinked content xs where
  size_eq := h.size_eq
  holds_iff := by
    rw [h.up.1]
    exact h.holds_iff
  increasing := by
    rw [h.up.1]
    exact (List.pairwise_append.mp h.increasing).1.of_cons
  reads := by
    rw [h.up.1]
    exact h.reads
  past_last := by
    rw [h.up.2]
    exact h.not_holds_past
  descent_eq := by rw [h.down.1, h.up.1]
  past_first := h.down.2
  prev_next p hp := h.prev_next (List.mem_cons_of_mem _ ((h.holds_iff p).mp hp))
  next_prev p hp := h.next_prev (List.mem_append_left _ ((h.holds_iff p).mp hp))
  next_before := h.first_eq.symm
  prev_next_last := h.prev_next h.last_mem
  ends_of_empty := by
    intro hempty
    -- without elements there are no places, and so none that holds an element
    have hnil : places = [] := List.eq_nil_of_length_eq_zero (h.length_places.trans hempty)
    have hnone : ∀ p, Positional.holds content p = false := by
      intro p
      rw [Bool.eq_false_iff, Ne, h.holds_iff, hnil]
      exact List.not_mem_nil
    exact ⟨hnone _, hnone _⟩

end Row

/-- Places in a chain, between the two ends, are in a row. -/
theorem Chain.linked {content : σ} {places : List Nat} {xs : List α} {past : Position}
    (h : Chain content places xs)
    (hfirst : ∀ p, places.head? = some p → Adjacent content .before (.nth p))
    (hlast : ∀ p, places.getLast? = some p → Adjacent content (.nth p) past)
    (hempty : places = [] → Adjacent content .before past) :
    List.IsChain (Adjacent content) (.before :: places.map .nth ++ [past]) := by
  have hwithin : List.IsChain (Adjacent content) (places.map .nth) := by
    rw [List.isChain_map, List.isChain_iff_getElem]
    intro i hi
    have hp := List.getElem?_eq_getElem (Nat.lt_of_succ_lt hi)
    have hq := List.getElem?_eq_getElem hi
    exact ⟨h.next_eq i _ _ hp hq, h.prev_eq i _ _ hp hq⟩
  rcases List.eq_nil_or_concat' places with rfl | ⟨rest, p, rfl⟩
  · exact .cons_cons (hempty rfl) (.singleton past)
  · refine List.IsChain.append (hwithin.cons ?_) (.singleton past) ?_
    · intro q hq
      rw [List.head?_map] at hq
      obtain ⟨i, hi, rfl⟩ := Option.map_eq_some_iff.mp hq
      exact hfirst i hi
    · intro q hq r hr
      have hend : (Position.before :: (rest ++ [p]).map .nth).getLast? = some (.nth p) := by
        simp [List.getLast?_cons]
      obtain rfl := Option.some.inj (hend.symm.trans hq)
      obtain rfl := Option.some.inj hr
      exact hlast p List.getLast?_concat

theorem increasing_row {places : List Nat} {n : Nat} (hplaces : places.Pairwise (· < ·))
    (hn : ∀ p ∈ places, p < n) :
    Position.Increasing (.before :: places.map .nth ++ [.nth n]) := by
  have hlist : Position.before :: places.map .nth ++ [.nth n] =
      .before :: (places ++ [n]).map .nth := by
    simp
  rw [hlist, Position.Increasing, List.pairwise_cons, List.pairwise_map]
  constructor
  · intro q hq
    obtain ⟨i, -, rfl⟩ := List.mem_map.mp hq
    exact Position.order_before_nth i
  · have hall : (places ++ [n]).Pairwise (· < ·) := by
      refine List.pairwise_append.mpr ⟨hplaces, List.pairwise_singleton _ n, ?_⟩
      intro p hp q hq
      obtain rfl := List.mem_singleton.mp hq
      exact hn p hp
    exact hall.imp fun hij => Position.order_nth_iff.mpr hij

theorem Chain.reads {content : σ} {places : List Nat} {xs : List α} (h : Chain content places xs) :
    (places.map .nth).map (Positional.get? content) = xs.map some := by
  rw [List.map_map]
  apply List.ext_getElem?
  intro i
  rw [List.getElem?_map, List.getElem?_map]
  by_cases hi : i < places.length
  · have hp := List.getElem?_eq_getElem hi
    have hxs : i < xs.length := h.length_eq ▸ hi
    have hread := h.get?_eq i _ hp
    rw [List.getElem?_eq_getElem hxs] at hread ⊢
    rw [hp]
    exact congrArg some hread
  · have hxs : xs.length ≤ i := h.length_eq ▸ Nat.le_of_not_lt hi
    rw [List.getElem?_eq_none (Nat.le_of_not_lt hi), List.getElem?_eq_none hxs]
    rfl

end Walks

/-! ## The rows of the stores -/

section Stores

variable {α : Type}

namespace SortedArray

theorem mem_wholePlaces {xs : SortedArray α} {p : Nat} :
    p ∈ spanPlaces xs.wholeSpan ↔ p < xs.size := by
  rw [mem_spanPlaces]
  exact and_iff_right (Nat.zero_le p)

/-- The indexes of an array are in a row. -/
theorem row (xs : SortedArray α) :
    Row xs ((spanPlaces xs.wholeSpan).map .nth) (.nth xs.size) xs.toList where
  linked := by
    apply xs.window_whole.linked
    · intro p hp
      obtain ⟨-, rfl⟩ := head?_spanPlaces hp
      exact ⟨rfl, rfl⟩
    · intro p hp
      obtain ⟨hlt, rfl⟩ := getLast?_spanPlaces hp
      have hsucc : xs.size - 1 + 1 = xs.size := Nat.sub_add_cancel hlt
      constructor
      · exact congrArg Position.nth hsucc
      · change Position.pred xs.size = .nth (xs.size - 1)
        rw [← hsucc]
        rfl
    · intro hnil
      have hsize : xs.size = 0 := by
        by_contra hpos
        have hzero := mem_wholePlaces.mpr (Nat.pos_of_ne_zero hpos)
        rw [hnil] at hzero
        exact List.not_mem_nil hzero
      rw [hsize]
      exact ⟨rfl, rfl⟩
  increasing := increasing_row List.pairwise_lt_range' fun _ hp => mem_wholePlaces.mp hp
  holds_iff := by
    intro q
    cases q with
    | before => simp [Positional.holds, Positional.get?, Position.index?]
    | nth p =>
      rw [List.mem_map_of_injective fun _ _ => Position.nth.inj, mem_wholePlaces]
      change (xs.get? p).isSome = true ↔ _
      rw [xs.get?_eq, ← xs.length_toList]
      simp
  reads := xs.window_whole.reads
  size_eq := xs.length_toList.symm
  first_eq := rfl
  last_eq := rfl

end SortedArray

namespace IdentTable

variable [Identified α]

/-- The occupied slots of a table are in a row, up to the number of its slots. -/
theorem row {t : IdentTable α} (hcount : t.count = t.toList.length) :
    Row t (t.places.map .nth) (.nth t.size) t.toList where
  linked := by
    apply t.chain_places.linked
    · intro p hp
      refine ⟨first_eq_nth hp, ?_⟩
      have hsize := lt_size_of_mem_places (List.mem_of_head? hp)
      change t.placeBelow (min p t.size) = .before
      rw [Nat.min_eq_left (Nat.le_of_lt hsize)]
      exact placeBelow_past fun s hs => le_of_head_places hp hs
    · intro p hp
      constructor
      · exact placeFrom_past fun s hs => Nat.lt_succ_of_le (le_of_last_places hp hs)
      · change t.placeBelow (min t.size t.size) = .nth p
        rw [Nat.min_self]
        exact last_eq_nth hp
    · intro hnil
      have hnone : ∀ s, s ∉ t.places := by simp [hnil]
      exact ⟨placeFrom_past fun s hs => absurd hs (hnone s),
        placeBelow_past fun s hs => absurd hs (hnone s)⟩
  increasing := increasing_row (List.Pairwise.filter _ List.pairwise_lt_range)
    fun _ hp => lt_size_of_mem_places hp
  holds_iff := by
    intro q
    cases q with
    | before => simp [Positional.holds, Positional.get?, Position.index?]
    | nth p =>
      rw [List.mem_map_of_injective fun _ _ => Position.nth.inj, mem_places]
      rfl
  reads := t.chain_places.reads
  size_eq := hcount
  first_eq := rfl
  last_eq := by
    change t.placeBelow t.size = t.placeBelow (min t.size t.size)
    rw [Nat.min_self]

/-- Steps from a slot, whatever has become of the element that was there, lead to the
nearest slots after and before it that are occupied, or out of the table if there are
none. -/
structure StepsToNearest (t : IdentTable α) (slot : Nat) : Prop where
  next : (∃ p, IsLeast {s | slot < s ∧ t.isOccupied s = true} p ∧
      Positional.next t (.nth slot) = .nth p) ∨
    (∀ s, slot < s → t.isOccupied s = false) ∧ Positional.next t (.nth slot) = .nth t.size
  prev : (∃ p, IsGreatest {s | s < slot ∧ t.isOccupied s = true} p ∧
      Positional.prev t (.nth slot) = .nth p) ∨
    (∀ s, s < slot → t.isOccupied s = false) ∧ Positional.prev t (.nth slot) = .before

theorem stepsToNearest (t : IdentTable α) (slot : Nat) : t.StepsToNearest slot where
  next := by
    obtain ⟨p, hp, ⟨hplace, hlt⟩ | rfl, hnearest⟩ := t.placeFrom_nearest (slot + 1)
    · left
      refine ⟨p, ⟨⟨hlt, mem_places.mp hplace⟩, ?_⟩, hp⟩
      rintro s ⟨hslot, hs⟩
      exact hnearest s (mem_places.mpr hs) hslot
    · right
      refine ⟨?_, hp⟩
      intro s hslot
      rw [Bool.eq_false_iff]
      intro hs
      have hplace := mem_places.mpr hs
      exact absurd (lt_size_of_mem_places hplace) (Nat.not_lt.mpr (hnearest s hplace hslot))
  prev := by
    -- occupied slots before this one are also before the end of the table
    have hwithin : ∀ s ∈ t.places, s < slot → s < min slot t.size :=
      fun s hs hslot => Nat.lt_min.mpr ⟨hslot, lt_size_of_mem_places hs⟩
    rcases t.placeBelow_nearest (min slot t.size) with
      ⟨p, hplace, hp, hlt, hnearest⟩ | ⟨hp, hnone⟩
    · left
      refine ⟨p, ⟨⟨(Nat.lt_min.mp hlt).1, mem_places.mp hplace⟩, ?_⟩, hp⟩
      rintro s ⟨hslot, hs⟩
      exact hnearest s (mem_places.mpr hs) (hwithin s (mem_places.mpr hs) hslot)
    · right
      refine ⟨?_, hp⟩
      intro s hslot
      rw [Bool.eq_false_iff]
      intro hs
      have hplace := mem_places.mpr hs
      exact absurd (hwithin s hplace hslot) (Nat.not_lt.mpr (hnone s hplace))

end IdentTable

/-- Every table that can be reached is walked like a doubly linked list of its
elements, slot by slot, and steps from a slot that has lost its element lead to its
neighbours.  Every array is walked like a doubly linked list of its elements in their
order. -/
theorem stores_doubly_linked [Identified α] :
    (∀ (capacity load : Nat) (ops : List (TableOp α)),
      let t := (runAll IdentTable.perform (.withLoad capacity load) ops).2
      DoublyLinked t t.toList ∧ ∀ slot, t.StepsToNearest slot) ∧
      ∀ xs : SortedArray α, DoublyLinked xs xs.toList := by
  constructor
  · intro capacity load ops t
    have hwell : t.WellFormed := (IdentTable.wellFormed_of_run capacity load ops).1
    exact ⟨(IdentTable.row hwell.count_eq).doublyLinked, t.stepsToNearest⟩
  · intro xs
    exact xs.row.doublyLinked

end Stores

end SnapshotIndex
