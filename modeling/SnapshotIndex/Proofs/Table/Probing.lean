import SnapshotIndex.Proofs.Table.Slots

/-!
# Following the path of an identity

The path of an identity begins at its home and goes round the circle of slots;
`along` is the slot after so many steps, and `distance` the number of steps to
a slot.  A table is `Linked` if every element can be found by following its
path, that is, if no empty slot comes before it there and no other element has
its identity.

* `probe_eq_found_iff`: in a linked table a search ends at a slot exactly if
  that slot holds the identity.
* `probe_eq_vacant`: a search for an identity that is not there ends, if only
  one slot is empty, and `Landing` says which slot it gives back: one that
  holds no element, with no empty slot before it on the path.
* `Linked.fill`, `Linked.vacate`: writing an element into such a slot, or a
  marker over an element, leaves the table linked.
-/

namespace SnapshotIndex

open Identified (ident)

/-! ## Steps on a circle -/

/-- From `h` it takes `i - h` steps, modulo `n`, to come to `i`. -/
theorem circle_forward {h i n : Nat} (hh : h < n) (hi : i < n) :
    (h + (i + n - h) % n) % n = i := by
  rcases Nat.lt_or_ge i h with hlt | hge
  · have hstep : (i + n - h) % n = i + n - h := Nat.mod_eq_of_lt (by omega)
    rw [hstep, show h + (i + n - h) = i + n by omega, Nat.add_mod_right, Nat.mod_eq_of_lt hi]
  · have hstep : (i + n - h) % n = i - h := by
      rw [show i + n - h = i - h + n by omega, Nat.add_mod_right]
      exact Nat.mod_eq_of_lt (by omega)
    rw [hstep, show h + (i - h) = i by omega, Nat.mod_eq_of_lt hi]

/-- After fewer than `n` steps from `h`, so many steps are counted back. -/
theorem circle_back {h d n : Nat} (hh : h < n) (hd : d < n) :
    ((h + d) % n + n - h) % n = d := by
  rcases Nat.lt_or_ge (h + d) n with hlt | hge
  · rw [Nat.mod_eq_of_lt hlt, show h + d + n - h = d + n by omega, Nat.add_mod_right,
      Nat.mod_eq_of_lt hd]
  · have hstep : (h + d) % n = h + d - n := by
      rw [Nat.mod_eq_sub_mod hge]
      exact Nat.mod_eq_of_lt (by omega)
    rw [hstep, show h + d - n + n - h = d by omega, Nat.mod_eq_of_lt hd]

namespace IdentTable

variable {α : Type}

/-- The slot after `d` steps on the path of an identity. -/
def along (t : IdentTable α) (id : Ident) (d : Nat) : Nat := (t.home id + d) % t.size

/-- The number of steps on the path of an identity to a slot. -/
def distance (t : IdentTable α) (id : Ident) (slot : Nat) : Nat :=
  (slot + t.size - t.home id) % t.size

section Circle

variable {t : IdentTable α}

theorem home_lt (hsize : 0 < t.size) (id : Ident) : t.home id < t.size :=
  Nat.mod_lt _ hsize

theorem along_lt (hsize : 0 < t.size) (id : Ident) (d : Nat) : t.along id d < t.size :=
  Nat.mod_lt _ hsize

theorem distance_lt (hsize : 0 < t.size) (id : Ident) (slot : Nat) :
    t.distance id slot < t.size :=
  Nat.mod_lt _ hsize

theorem along_zero (hsize : 0 < t.size) (id : Ident) : t.along id 0 = t.home id :=
  Nat.mod_eq_of_lt (home_lt hsize id)

theorem after_along (id : Ident) (d : Nat) : t.after (t.along id d) = t.along id (d + 1) := by
  unfold after along
  rw [Nat.mod_add_mod]
  rfl

theorem along_distance (id : Ident) {slot : Nat} (hslot : slot < t.size) :
    t.along id (t.distance id slot) = slot :=
  circle_forward (home_lt (by omega) id) hslot

theorem distance_along (id : Ident) {d : Nat} (hd : d < t.size) :
    t.distance id (t.along id d) = d :=
  circle_back (home_lt (by omega) id) hd

/-- The search of a rebuilding table for an empty slot ends at the first one. -/
theorem vacancyFrom_eq_some {id : Ident} {e : Nat}
    (hempty : t.slots[t.along id e]? = some .empty) :
    ∀ {steps d : Nat}, d ≤ e → e < d + steps →
      ∃ f, d ≤ f ∧ f ≤ e ∧ t.vacancyFrom steps (t.along id d) = some (t.along id f) ∧
        t.slots[t.along id f]? = some .empty ∧
        ∀ g, d ≤ g → g < f → t.slots[t.along id g]? ≠ some .empty := by
  -- the search is `d` slots from home and has enough steps left to get to slot `e`
  intro steps
  induction steps with
  | zero => intro d hle hlt; omega
  | succ steps ih =>
    intro d hle hlt
    by_cases hhere : t.slots[t.along id d]? = some .empty
    · refine ⟨d, Nat.le_refl d, hle, ?_, hhere, fun g _ _ => by omega⟩
      unfold vacancyFrom
      simp [hhere]
    · have hde : d + 1 ≤ e := by
        rcases Nat.lt_or_eq_of_le hle with hde | rfl
        · exact hde
        · exact absurd hempty hhere
      obtain ⟨f, hf, hfe, hfound, hfempty, hpath⟩ := ih hde (by omega)
      refine ⟨f, by omega, hfe, ?_, hfempty, fun g hg hgf => ?_⟩
      · unfold vacancyFrom
        rw [after_along, hfound]
        split
        · rename_i h
          exact absurd h hhere
        · rfl
      · rcases Nat.lt_or_eq_of_le hg with hdg | rfl
        · exact hpath g hdg hgf
        · exact hhere

variable {u : IdentTable α} {slot : Nat} {new : Slot α}

theorem Written.along_eq (h : Written t u slot new) (id : Ident) (d : Nat) :
    u.along id d = t.along id d := by
  simp [along, h.size_eq, h.home_eq]

theorem Written.distance_eq (h : Written t u slot new) (id : Ident) (i : Nat) :
    u.distance id i = t.distance id i := by
  simp [distance, h.size_eq, h.home_eq]

/-- A slot that is written with something else than emptiness makes no path
worse. -/
theorem Written.ne_empty (h : Written t u slot new) (hnew : new ≠ .empty) {i : Nat}
    (hi : t.slots[i]? ≠ some .empty) : u.slots[i]? ≠ some .empty := by
  by_cases hs : slot = i
  · subst hs
    rw [h.slots_self]
    simpa using hnew
  · rwa [h.slots_of_ne hs]

end Circle

section Identity

variable [Identified α]

/-- Every element can be found along its path. -/
structure Linked (t : IdentTable α) : Prop where
  /-- No two slots hold the same identity. -/
  unique : ∀ i j a b, t.element? i = some a → t.element? j = some b → ident a = ident b → i = j
  /-- No empty slot lies on the path from the home of an element to its slot. -/
  path : ∀ i a, t.element? i = some a →
    ∀ d < t.distance (ident a) i, t.slots[t.along (ident a) d]? ≠ some .empty

/-- No slot holds an identity. -/
def Lacks (t : IdentTable α) (id : Ident) : Prop :=
  ∀ i a, t.element? i = some a → ident a ≠ id

variable {t : IdentTable α}

theorem lacks_iff {id : Ident} : t.Lacks id ↔ ∀ a ∈ t.toList, ident a ≠ id := by
  constructor
  · intro h a ha
    obtain ⟨i, hi⟩ := mem_toList.mp ha
    exact h i a hi
  · intro h i a hi
    exact h a (mem_toList.mpr ⟨i, hi⟩)

/-! ## Where a search ends -/

/-- A search that ends at a slot ends at one that holds the identity. -/
theorem element?_of_probeFrom {id : Ident} {steps slot i : Nat} {marker : Option Nat}
    (h : t.probeFrom id steps slot marker = .found i) :
    ∃ a, t.element? i = some a ∧ ident a = id := by
  induction steps generalizing slot marker with
  | zero => simp [probeFrom] at h
  | succ steps ih =>
    unfold probeFrom at h
    split at h
    · simp at h
    · simp at h
    · exact ih h
    · rename_i a ha
      split at h
      · rename_i hid
        obtain rfl : slot = i := by simpa using h
        exact ⟨a, element?_eq_some_iff.mpr ha, hid⟩
      · exact ih h

/-- A search goes past slots that are not empty and hold other identities, up
to the one that holds the identity. -/
theorem probeFrom_eq_found {id : Ident} {a : α} {e : Nat} (hsize : 0 < t.size)
    (hheld : t.element? (t.along id e) = some a) (hid : ident a = id) :
    ∀ {steps d : Nat} {marker : Option Nat}, d ≤ e → e < d + steps →
      (∀ f, d ≤ f → f < e → t.slots[t.along id f]? ≠ some .empty ∧
        ∀ b, t.element? (t.along id f) = some b → ident b ≠ id) →
      t.probeFrom id steps (t.along id d) marker = .found (t.along id e) := by
  intro steps
  induction steps with
  | zero => intro d marker hle hlt; omega
  | succ steps ih =>
    intro d marker hle hlt hpath
    have hslot := element?_eq_some_iff.mp hheld
    rcases Nat.lt_or_eq_of_le hle with hde | rfl
    · -- whether a marker was met makes no difference to an identity that is found
      have hon : ∀ m, t.probeFrom id steps (t.along id (d + 1)) m = .found (t.along id e) :=
        fun m => ih (by omega) (by omega) fun f hf => hpath f (by omega)
      obtain ⟨hempty, hother⟩ := hpath d (Nat.le_refl d) hde
      obtain ⟨slot, hget⟩ := exists_slot (along_lt hsize id d)
      unfold probeFrom
      rw [hget, after_along]
      cases slot with
      | empty => exact absurd hget hempty
      | removed => exact hon _
      | occupied b =>
        have hb := hother b (element?_eq_some_iff.mpr hget)
        simp only [if_neg hb]
        exact hon _
    · unfold probeFrom
      simp [hslot, hid]

/-- The slot that a search for a missing identity gives back: the marker it was
given, or else the first slot of its path from `d` on that holds no element. -/
def Landing (t : IdentTable α) (id : Ident) (d : Nat) (marker : Option Nat) (slot : Nat) :
    Prop :=
  match marker with
  | some m => slot = m
  | none => ∃ e, d ≤ e ∧ e < d + t.size ∧ slot = t.along id e ∧ t.element? slot = none ∧
      ∀ f, d ≤ f → f < e → t.slots[t.along id f]? ≠ some .empty

omit [Identified α] in
theorem Landing.lt {id : Ident} {slot : Nat} (hsize : 0 < t.size)
    (h : t.Landing id 0 none slot) : slot < t.size ∧ t.element? slot = none := by
  obtain ⟨e, -, -, rfl, hfree, -⟩ := h
  exact ⟨along_lt hsize id e, hfree⟩

/-- A search for a missing identity ends at the first empty slot, if not before. -/
theorem probeFrom_eq_vacant {id : Ident} {e : Nat} (hsize : 0 < t.size) (hlacks : t.Lacks id)
    (hempty : t.slots[t.along id e]? = some .empty) :
    ∀ {steps d : Nat} {marker : Option Nat}, d ≤ e → e < d + steps → e < d + t.size →
      ∃ slot, t.probeFrom id steps (t.along id d) marker = .vacant slot ∧
        t.Landing id d marker slot := by
  intro steps
  induction steps with
  | zero => intro d marker hle hlt; omega
  | succ steps ih =>
    intro d marker hle hlt hround
    obtain ⟨slot, hget⟩ := exists_slot (along_lt hsize id d)
    have hnext : t.slots[t.along id d]? ≠ some .empty → d + 1 ≤ e := by
      intro hne
      rcases Nat.lt_or_eq_of_le hle with hde | rfl
      · exact hde
      · exact absurd hempty hne
    unfold probeFrom
    rw [hget, after_along]
    cases slot with
    | empty =>
      refine ⟨_, rfl, ?_⟩
      cases marker with
      | some m => rfl
      | none =>
        exact ⟨d, Nat.le_refl d, by omega, rfl, by simp [element?, hget], fun f _ _ => by omega⟩
    | removed =>
      have hde := hnext (by simp [hget])
      obtain ⟨found, hprobe, hlanding⟩ :=
        @ih (d + 1) (marker.or (some (t.along id d))) hde (by omega) (by omega)
      refine ⟨found, hprobe, ?_⟩
      cases marker with
      | some m => exact hlanding
      | none =>
        -- the marker on this slot is the first one
        obtain rfl : found = t.along id d := hlanding
        exact ⟨d, Nat.le_refl d, by omega, rfl, by simp [element?, hget], fun f _ _ => by omega⟩
    | occupied b =>
      have hde := hnext (by simp [hget])
      have hb : ident b ≠ id := hlacks _ b (element?_eq_some_iff.mpr hget)
      simp only [if_neg hb]
      obtain ⟨found, hprobe, hlanding⟩ := @ih (d + 1) marker hde (by omega) (by omega)
      refine ⟨found, hprobe, ?_⟩
      cases marker with
      | some m => exact hlanding
      | none =>
        obtain ⟨g, hg, hground, hslot, hfree, hpath⟩ := hlanding
        -- it cannot have gone round, since it would have stopped at slot `e`
        rcases Nat.lt_or_ge g (d + t.size) with hnear | hfar
        · refine ⟨g, by omega, hnear, hslot, hfree, fun f hf hfg => ?_⟩
          rcases Nat.lt_or_eq_of_le hf with hdf | rfl
          · exact hpath f hdf hfg
          · simp [hget]
        · exact absurd hempty (hpath e hde (by omega))

/-- A search for a missing identity ends, and gives back a slot without an
element and without an empty slot before it. -/
theorem probe_eq_vacant {id : Ident} (hlacks : t.Lacks id)
    (hempty : ∃ i : Nat, t.slots[i]? = some .empty) :
    ∃ slot, t.probe id = .vacant slot ∧ t.Landing id 0 none slot := by
  obtain ⟨i, hi⟩ := hempty
  have hlt : i < t.size := (Array.getElem?_eq_some_iff.mp hi).1
  have hsize : 0 < t.size := by omega
  have hd := distance_lt hsize id i
  have hslot : t.slots[t.along id (t.distance id i)]? = some .empty := by
    rw [along_distance id hlt, hi]
  rw [probe, ← along_zero hsize id]
  exact probeFrom_eq_vacant hsize hlacks hslot (Nat.zero_le _) (by omega) (by omega)

/-- In a linked table a search ends at a slot exactly if that slot holds the
identity. -/
theorem probe_eq_found_iff (hlinked : t.Linked) {id : Ident} {i : Nat} :
    t.probe id = .found i ↔ ∃ a, t.element? i = some a ∧ ident a = id := by
  refine ⟨element?_of_probeFrom, ?_⟩
  rintro ⟨a, ha, rfl⟩
  have hlt := lt_size_of_element? ha
  have hsize : 0 < t.size := by omega
  have hd := distance_lt hsize (ident a) i
  have halong := along_distance (ident a) hlt
  have hpath : ∀ f, 0 ≤ f → f < t.distance (ident a) i →
      t.slots[t.along (ident a) f]? ≠ some .empty ∧
        ∀ b, t.element? (t.along (ident a) f) = some b → ident b ≠ ident a := by
    intro f _ hf
    refine ⟨hlinked.path i a ha f hf, fun b hb hid => ?_⟩
    have hsame := hlinked.unique _ _ b a hb ha hid
    have hback := distance_along (ident a) (show f < t.size by omega)
    rw [hsame] at hback
    omega
  rw [probe, ← along_zero hsize (ident a),
    probeFrom_eq_found hsize (halong.symm ▸ ha) rfl (Nat.zero_le _) (by omega) hpath, halong]

/-! ## Writing one slot -/

/-- An element that goes where its search landed can be found there, and the
others can still be found. -/
theorem Linked.fill {u : IdentTable α} {a : α} {slot : Nat} (hlinked : t.Linked)
    (hlacks : t.Lacks (ident a)) (hlanding : t.Landing (ident a) 0 none slot)
    (h : Written t u slot (.occupied a)) : u.Linked := by
  obtain ⟨e, -, he, rfl, hfree, hpath⟩ := hlanding
  have hself := h.element?_self
  constructor
  · -- the new identity is in the filled slot alone, and the others are where they were
    intro i j b c hi hj hid
    by_cases his : t.along (ident a) e = i <;> by_cases hjs : t.along (ident a) e = j
    · exact his.symm.trans hjs
    · obtain rfl : b = a := by
        rw [← his, hself] at hi
        simpa using hi.symm
      rw [h.element?_of_ne hjs] at hj
      exact absurd hid.symm (hlacks j c hj)
    · obtain rfl : c = a := by
        rw [← hjs, hself] at hj
        simpa using hj.symm
      rw [h.element?_of_ne his] at hi
      exact absurd hid (hlacks i b hi)
    · rw [h.element?_of_ne his] at hi
      rw [h.element?_of_ne hjs] at hj
      exact hlinked.unique i j b c hi hj hid
  · intro i b hi d hd
    rw [h.along_eq]
    rw [h.distance_eq] at hd
    refine h.ne_empty (by simp) ?_
    -- no slot on the way has become empty, and the search for the new element has seen its way
    by_cases his : t.along (ident a) e = i
    · obtain rfl : b = a := by
        rw [← his, hself] at hi
        simpa using hi.symm
      rw [← his, distance_along _ (by omega)] at hd
      exact hpath d (Nat.zero_le _) hd
    · rw [h.element?_of_ne his] at hi
      exact hlinked.path i b hi d hd

/-- A marker in place of an element leaves the other elements where they can
be found. -/
theorem Linked.vacate {u : IdentTable α} {slot : Nat} (hlinked : t.Linked)
    (h : Written t u slot .removed) : u.Linked := by
  have hold : ∀ {i b}, u.element? i = some b → t.element? i = some b := by
    intro i b hi
    by_cases his : slot = i
    · subst his
      simp [h.element?_self] at hi
    · rwa [h.element?_of_ne his] at hi
  constructor
  · intro i j b c hi hj hid
    exact hlinked.unique i j b c (hold hi) (hold hj) hid
  · intro i b hi d hd
    rw [h.along_eq]
    rw [h.distance_eq] at hd
    exact h.ne_empty (by simp) (hlinked.path i b (hold hi) d hd)

/-- A table without elements is linked. -/
theorem linked_of_toList_eq_nil (h : t.toList = []) : t.Linked := by
  have hnone : ∀ i a, t.element? i ≠ some a := by
    intro i a hi
    have := mem_toList.mpr ⟨i, hi⟩
    simp [h] at this
  exact ⟨fun i _ a _ hi => absurd hi (hnone i a), fun i a hi => absurd hi (hnone i a)⟩

end Identity

end IdentTable

end SnapshotIndex
