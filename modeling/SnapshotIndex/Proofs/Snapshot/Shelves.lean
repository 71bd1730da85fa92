import SnapshotIndex.Assoc

/-!
# Maps with a tally

What is kept under names is a map, and how many of its values belong to one
thing, such as a snapshot that they hold, is a `tally`.  Giving and taking
values changes it by what comes and what goes (`tally_insert`, `tally_erase`).
Whether there is any such value is what `Has` says, without counting.

Two maps are `Related` if they have the same keys, and related values.
-/

namespace SnapshotIndex

namespace Assoc

variable {κ α β : Type} [DecidableEq κ]

/-! ## Tallies -/

section Tally

variable [DecidableEq β] {f : α → β}

/-- The number of values that belong to something. -/
def tally (m : Assoc κ α) (f : α → β) (b : β) : Nat := (m.values.map f).count b

/-- The new value counts, and the one in whose place it comes does not. -/
theorem count_assign (key : κ) (value : α) (pairs : List (κ × α)) (b : β) :
    (((assign key value pairs).map Prod.snd).map f).count b +
        (if (lookup key pairs).map f = some b then 1 else 0) =
      ((pairs.map Prod.snd).map f).count b + if f value = b then 1 else 0 := by
  induction pairs with
  | nil => simp [assign, lookup, List.count_cons]
  | cons p rest ih =>
    obtain ⟨k, a⟩ := p
    by_cases hk : k = key
    · simp only [assign, lookup, hk, if_true, List.map_cons, List.count_cons, Option.map_some,
        Option.some.injEq, beq_iff_eq]
      omega
    · simp only [assign, lookup, hk, if_false, List.map_cons, List.count_cons] at ih ⊢
      omega

theorem count_filter_ne {key : κ} {pairs : List (κ × α)} (hd : (pairs.map Prod.fst).Nodup)
    (b : β) :
    (((pairs.filter fun p => p.1 ≠ key).map Prod.snd).map f).count b +
        (if (lookup key pairs).map f = some b then 1 else 0) =
      ((pairs.map Prod.snd).map f).count b := by
  induction pairs with
  | nil => simp [lookup]
  | cons p rest ih =>
    obtain ⟨k, a⟩ := p
    rw [List.map_cons, List.nodup_cons] at hd
    have hrest := ih hd.2
    by_cases hk : k = key
    · -- no other pair has the key, so nothing else is left out
      have hall : rest.filter (fun p => p.1 ≠ key) = rest := by
        rw [List.filter_eq_self]
        intro q hq
        have hne : q.1 ≠ key := by
          rintro rfl
          exact hd.1 (List.mem_map.mpr ⟨q, hq, hk.symm⟩)
        simpa using hne
      rw [List.filter_cons_of_neg (by simpa using hk), hall]
      simp only [lookup, hk, if_true, List.map_cons, List.count_cons, Option.map_some,
        Option.some.injEq, beq_iff_eq]
    · rw [List.filter_cons_of_pos (by simpa using hk)]
      simp only [lookup, hk, if_false, List.map_cons, List.count_cons]
      omega

theorem tally_insert (m : Assoc κ α) (key : κ) (value : α) (b : β) :
    (m.insert key value).tally f b + (if (m.get? key).map f = some b then 1 else 0) =
      m.tally f b + if f value = b then 1 else 0 :=
  count_assign key value m.pairs b

theorem tally_erase (m : Assoc κ α) (key : κ) (b : β) :
    (m.erase key).tally f b + (if (m.get? key).map f = some b then 1 else 0) = m.tally f b :=
  count_filter_ne m.distinct b

/-- A change that does not concern what a value belongs to changes no tally. -/
theorem tally_modify {m : Assoc κ α} {key : κ} {a : α} {g : α → α} (ha : m.get? key = some a)
    (hg : f (g a) = f a) (b : β) : (m.modify key g).tally f b = m.tally f b := by
  unfold tally values modify revise
  rw [List.map_map, List.map_map, List.map_map]
  congr 1
  refine List.map_congr_left fun p hp => ?_
  by_cases hk : p.1 = key
  · have hp : m.get? key = some p.2 := (m.get?_eq_some_iff key p.2).mpr (hk ▸ hp)
    obtain rfl : a = p.2 := Option.some.inj (ha.symm.trans hp)
    simpa [hk] using hg
  · simp [hk]

theorem tally_pos {m : Assoc κ α} {key : κ} {a : α} (h : m.get? key = some a) :
    0 < m.tally f (f a) := by
  unfold tally values
  rw [List.count_pos_iff, List.map_map]
  exact List.mem_map.mpr ⟨(key, a), (m.get?_eq_some_iff key a).mp h, rfl⟩

theorem tally_pos_of_map {m : Assoc κ α} {key : κ} {b : β} (h : (m.get? key).map f = some b) :
    0 < m.tally f b := by
  obtain ⟨a, ha, rfl⟩ := Option.map_eq_some_iff.mp h
  exact tally_pos ha

theorem exists_of_tally_pos {m : Assoc κ α} {b : β} (h : 0 < m.tally f b) :
    ∃ key, (m.get? key).map f = some b := by
  unfold tally values at h
  rw [List.count_pos_iff, List.map_map] at h
  obtain ⟨⟨key, a⟩, hpair, rfl⟩ := List.mem_map.mp h
  exact ⟨key, Option.map_eq_some_iff.mpr ⟨a, (m.get?_eq_some_iff key a).mpr hpair, rfl⟩⟩

end Tally

/-! ## Values that belong to something -/

/-- Whether a value belongs to something. -/
def Has (m : Assoc κ α) (f : α → β) (b : β) : Prop := ∃ key, (m.get? key).map f = some b

section Has

variable {f : α → β} {m : Assoc κ α} {b : β}

theorem tally_pos_iff [DecidableEq β] : 0 < m.tally f b ↔ m.Has f b :=
  ⟨exists_of_tally_pos, fun ⟨_, h⟩ => tally_pos_of_map h⟩

theorem has_insert {key : κ} {a : α} (h : (m.insert key a).Has f b) : f a = b ∨ m.Has f b := by
  obtain ⟨other, hother⟩ := h
  rw [get?_insert] at hother
  split at hother
  · exact .inl (Option.some.inj hother)
  · exact .inr ⟨other, hother⟩

theorem has_erase {key : κ} (h : (m.erase key).Has f b) : m.Has f b := by
  obtain ⟨other, hother⟩ := h
  rw [get?_erase] at hother
  split at hother
  · exact absurd hother (Option.some_ne_none b).symm
  · exact ⟨other, hother⟩

end Has

/-! ## Related maps -/

/-- The same keys, and related values. -/
def Related (R : α → β → Prop) (m : Assoc κ α) (n : Assoc κ β) : Prop :=
  ∀ key, Option.Rel R (m.get? key) (n.get? key)

namespace Related

variable {R R' : α → β → Prop} {m : Assoc κ α} {n : Assoc κ β}

theorem empty : Related R (.empty : Assoc κ α) (.empty : Assoc κ β) := fun _ => .none

theorem refl {R : α → α → Prop} (hR : ∀ a, R a a) (m : Assoc κ α) : Related R m m := by
  intro key
  cases m.get? key with
  | none => exact .none
  | some a => exact .some (hR a)

theorem eq_none (h : Related R m n) {key : κ} (ha : m.get? key = none) : n.get? key = none := by
  have hkey := h key
  rw [ha] at hkey
  generalize n.get? key = right at hkey ⊢
  cases hkey
  rfl

theorem exists_right (h : Related R m n) {key : κ} {a : α} (ha : m.get? key = some a) :
    ∃ b, n.get? key = some b ∧ R a b := by
  have hkey := h key
  rw [ha] at hkey
  generalize n.get? key = right at hkey ⊢
  cases hkey with
  | some hab => exact ⟨_, rfl, hab⟩

theorem mono (h : Related R m n) (hR : ∀ key a b, m.get? key = some a → R a b → R' a b) :
    Related R' m n := by
  intro key
  cases ha : m.get? key with
  | none =>
    rw [h.eq_none ha]
    exact .none
  | some a =>
    obtain ⟨b, hb, hab⟩ := h.exists_right ha
    rw [hb]
    exact .some (hR key a b ha hab)

/-- Values that are related by having something in common. -/
theorem map_eq {γ : Type} {f : α → γ} {g : β → γ} (h : Related (fun a b => f a = g b) m n)
    (key : κ) : (m.get? key).map f = (n.get? key).map g := by
  cases ha : m.get? key with
  | none =>
    rw [h.eq_none ha]
    rfl
  | some a =>
    obtain ⟨b, hb, hab⟩ := h.exists_right ha
    rw [hb]
    exact congrArg some hab

theorem has_iff {γ : Type} {f : α → γ} {g : β → γ} (h : Related (fun a b => f a = g b) m n)
    {c : γ} : m.Has f c ↔ n.Has g c := by
  unfold Has
  simp only [h.map_eq]

theorem symm (h : Related R m n) : Related (fun b a => R a b) n m := by
  intro key
  cases ha : m.get? key with
  | none =>
    rw [h.eq_none ha]
    exact .none
  | some a =>
    obtain ⟨b, hb, hab⟩ := h.exists_right ha
    rw [hb]
    exact .some hab

theorem insert (h : Related R m n) (key : κ) {a : α} {b : β} (hab : R a b) :
    Related R (m.insert key a) (n.insert key b) := by
  intro other
  rw [get?_insert, get?_insert]
  split
  · exact .some hab
  · exact h other

theorem erase (h : Related R m n) (key : κ) : Related R (m.erase key) (n.erase key) := by
  intro other
  rw [get?_erase, get?_erase]
  split
  · exact .none
  · exact h other

theorem modify (h : Related R m n) {key : κ} {a : α} {b : β} {g : α → α} {g' : β → β}
    (ha : m.get? key = some a) (hb : n.get? key = some b) (hg : R (g a) (g' b)) :
    Related R (m.modify key g) (n.modify key g') := by
  intro other
  rw [get?_modify, get?_modify]
  split
  · rename_i heq
    subst heq
    rw [ha, hb]
    exact .some hg
  · exact h other

/-- A change on one side only. -/
theorem modify_left (h : Related R m n) {key : κ} {a : α} {g : α → α} (ha : m.get? key = some a)
    (hg : ∀ b, R a b → R (g a) b) : Related R (m.modify key g) n := by
  intro other
  rw [get?_modify]
  split
  · rename_i heq
    subst heq
    obtain ⟨b, hb, hab⟩ := h.exists_right ha
    rw [ha, hb]
    exact .some (hg b hab)
  · exact h other

/-- A change that keeps all values related. -/
theorem modify_all (h : Related R m n) (key : κ) {g : α → α} {g' : β → β}
    (hg : ∀ a b, R a b → R (g a) (g' b)) : Related R (m.modify key g) (n.modify key g') := by
  intro other
  rw [get?_modify, get?_modify]
  split
  · cases ha : m.get? other with
    | none =>
      rw [h.eq_none ha]
      exact .none
    | some a =>
      obtain ⟨b, hb, hab⟩ := h.exists_right ha
      rw [hb]
      exact .some (hg a b hab)
  · exact h other

end Related

/-! ## Values of the same key -/

/-- Whether some key has one value in the one map and another value in the
other. -/
def Paired (m : Assoc κ α) (n : Assoc κ β) (a : α) (b : β) : Prop :=
  ∃ key, m.get? key = some a ∧ n.get? key = some b

section Paired

variable {R : α → β → Prop} {m : Assoc κ α} {n : Assoc κ β} {key : κ} {a x : α} {b y : β}

theorem Related.of_paired (h : m.Related R n) (hpaired : m.Paired n a b) : R a b := by
  obtain ⟨key, ha, hb⟩ := hpaired
  obtain ⟨b', hb', hab⟩ := h.exists_right ha
  obtain rfl : b' = b := Option.some.inj (hb'.symm.trans hb)
  exact hab

theorem paired_insert (h : (m.insert key a).Paired (n.insert key b) x y) :
    x = a ∧ y = b ∨ m.Paired n x y := by
  obtain ⟨other, hx, hy⟩ := h
  rw [get?_insert] at hx hy
  by_cases hkey : key = other
  · rw [if_pos hkey] at hx hy
    exact .inl ⟨(Option.some.inj hx).symm, (Option.some.inj hy).symm⟩
  · rw [if_neg hkey] at hx hy
    exact .inr ⟨other, hx, hy⟩

theorem paired_erase (h : (m.erase key).Paired (n.erase key) x y) : m.Paired n x y := by
  obtain ⟨other, hx, hy⟩ := h
  rw [get?_erase] at hx hy
  by_cases hkey : key = other
  · rw [if_pos hkey] at hx
    exact absurd hx (Option.some_ne_none x).symm
  · rw [if_neg hkey] at hx hy
    exact ⟨other, hx, hy⟩

end Paired

end Assoc

end SnapshotIndex
