/-!
# Association lists

A finite map as a list of pairs with distinct keys, in the order in which the
keys were first given a value.
-/

namespace SnapshotIndex

structure Assoc (κ α : Type) where
  pairs : List (κ × α)
  /-- No key has two values. -/
  distinct : (pairs.map Prod.fst).Nodup

namespace Assoc

variable {κ α : Type}

def empty : Assoc κ α := ⟨[], List.nodup_nil⟩

def size (m : Assoc κ α) : Nat := m.pairs.length

/-- The values in the order of their keys. -/
def values (m : Assoc κ α) : List α := m.pairs.map Prod.snd

/-- The pairs in the order of their keys. -/
def sortedBy (le : κ → κ → Bool) (m : Assoc κ α) : List (κ × α) :=
  m.pairs.mergeSort fun p q => le p.1 q.1

/-! ## Lists of pairs -/

section Pairs

variable [DecidableEq κ]

/-- The value in a list of pairs that belongs to a key. -/
def lookup (key : κ) : List (κ × α) → Option α
  | [] => none
  | (k, a) :: rest => if k = key then some a else lookup key rest

/-- Gives a key a value in a list of pairs, in its place or at the end. -/
def assign (key : κ) (value : α) : List (κ × α) → List (κ × α)
  | [] => [(key, value)]
  | (k, a) :: rest => if k = key then (k, value) :: rest else (k, a) :: assign key value rest

/-- Changes the value of a key in a list of pairs. -/
def revise (key : κ) (f : α → α) (pairs : List (κ × α)) : List (κ × α) :=
  pairs.map fun p => if p.1 = key then (p.1, f p.2) else p

theorem lookup_assign (key other : κ) (value : α) (pairs : List (κ × α)) :
    lookup other (assign key value pairs) =
      if key = other then some value else lookup other pairs := by
  induction pairs with
  | nil => simp [assign, lookup]
  | cons p rest ih =>
    obtain ⟨k, a⟩ := p
    by_cases hk : k = key
    · subst hk
      by_cases ho : k = other <;> simp [assign, lookup, ho]
    · by_cases ho : k = other
      · subst ho
        simp [assign, lookup, hk, Ne.symm hk]
      · simp [assign, lookup, hk, ho, ih]

theorem lookup_filter_ne (key other : κ) (pairs : List (κ × α)) :
    lookup other (pairs.filter fun p => p.1 ≠ key) =
      if key = other then none else lookup other pairs := by
  induction pairs with
  | nil => simp [lookup]
  | cons p rest ih =>
    obtain ⟨k, a⟩ := p
    by_cases hk : k = key
    · subst hk
      by_cases ho : k = other <;> simp_all [lookup]
    · by_cases ho : k = other
      · subst ho
        simp [lookup, hk, Ne.symm hk]
      · simpa [lookup, hk, ho] using ih

theorem lookup_revise (key other : κ) (f : α → α) (pairs : List (κ × α)) :
    lookup other (revise key f pairs) =
      if key = other then (lookup other pairs).map f else lookup other pairs := by
  induction pairs with
  | nil => simp [revise, lookup]
  | cons p rest ih =>
    obtain ⟨k, a⟩ := p
    simp only [revise, List.map_cons] at ih ⊢
    by_cases hk : k = key
    · subst hk
      by_cases ho : k = other <;> simp [lookup, ho, ih]
    · by_cases ho : k = other
      · subst ho
        simp [lookup, hk, Ne.symm hk]
      · simp [lookup, hk, ho, ih]

theorem mem_of_lookup {key : κ} {value : α} {pairs : List (κ × α)}
    (h : lookup key pairs = some value) : (key, value) ∈ pairs := by
  induction pairs with
  | nil => simp [lookup] at h
  | cons p rest ih =>
    obtain ⟨k, a⟩ := p
    by_cases hk : k = key
    · subst hk
      simp_all [lookup]
    · exact List.mem_cons_of_mem _ (ih (by simpa [lookup, hk] using h))

theorem lookup_of_mem {key : κ} {value : α} {pairs : List (κ × α)}
    (hd : (pairs.map Prod.fst).Nodup) (h : (key, value) ∈ pairs) :
    lookup key pairs = some value := by
  induction pairs with
  | nil => simp at h
  | cons p rest ih =>
    obtain ⟨k, a⟩ := p
    rw [List.map_cons, List.nodup_cons] at hd
    rcases List.mem_cons.mp h with heq | hmem
    · cases heq
      simp [lookup]
    · have hk : k ≠ key := fun e => hd.1 (e ▸ List.mem_map.mpr ⟨(key, value), hmem, rfl⟩)
      simp [lookup, hk, ih hd.2 hmem]

theorem keys_assign (key : κ) (value : α) (pairs : List (κ × α)) :
    (assign key value pairs).map Prod.fst =
      if key ∈ pairs.map Prod.fst then pairs.map Prod.fst
      else pairs.map Prod.fst ++ [key] := by
  induction pairs with
  | nil => simp [assign]
  | cons p rest ih =>
    obtain ⟨k, a⟩ := p
    by_cases hk : k = key
    · simp [assign, hk]
    · simp only [assign, hk, if_false, List.map_cons, ih, List.mem_cons, Ne.symm hk, false_or]
      split <;> simp

theorem keys_revise (key : κ) (f : α → α) (pairs : List (κ × α)) :
    (revise key f pairs).map Prod.fst = pairs.map Prod.fst := by
  simp only [revise, List.map_map]
  congr 1
  funext p
  by_cases h : p.1 = key <;> simp [h]

theorem distinct_assign (key : κ) (value : α) {pairs : List (κ × α)}
    (hd : (pairs.map Prod.fst).Nodup) : ((assign key value pairs).map Prod.fst).Nodup := by
  rw [keys_assign]
  split
  · exact hd
  · rename_i h
    rw [List.nodup_append]
    exact ⟨hd, by simp, fun k hk l hl => by
      rw [List.mem_singleton.mp hl]
      exact fun e => h (e ▸ hk)⟩

/-- A key without a value gets its value at the end. -/
theorem assign_of_lookup_eq_none {key : κ} (value : α) {pairs : List (κ × α)}
    (h : lookup key pairs = none) : assign key value pairs = pairs ++ [(key, value)] := by
  induction pairs with
  | nil => rfl
  | cons p rest ih =>
    obtain ⟨k, a⟩ := p
    by_cases hk : k = key
    · simp [lookup, hk] at h
    · simp only [lookup, hk, if_false] at h
      simp [assign, hk, ih h]

end Pairs

/-! ## Operations -/

variable [DecidableEq κ]

def get? (m : Assoc κ α) (key : κ) : Option α := lookup key m.pairs

def contains (m : Assoc κ α) (key : κ) : Bool := (m.get? key).isSome

/-- Gives a key a value in place of the one it may have. -/
def insert (m : Assoc κ α) (key : κ) (value : α) : Assoc κ α :=
  ⟨assign key value m.pairs, distinct_assign key value m.distinct⟩

def erase (m : Assoc κ α) (key : κ) : Assoc κ α :=
  ⟨m.pairs.filter fun p => p.1 ≠ key, (List.filter_sublist.map Prod.fst).nodup m.distinct⟩

/-- Changes the value of a key that has one. -/
def modify (m : Assoc κ α) (key : κ) (f : α → α) : Assoc κ α :=
  ⟨revise key f m.pairs, (keys_revise key f m.pairs).symm ▸ m.distinct⟩

@[simp] theorem get?_empty (key : κ) : (empty : Assoc κ α).get? key = none := rfl

/-- A key has the value it was given last, and other keys keep theirs. -/
theorem get?_insert (m : Assoc κ α) (key other : κ) (value : α) :
    (m.insert key value).get? other = if key = other then some value else m.get? other :=
  lookup_assign key other value m.pairs

theorem get?_erase (m : Assoc κ α) (key other : κ) :
    (m.erase key).get? other = if key = other then none else m.get? other :=
  lookup_filter_ne key other m.pairs

theorem get?_modify (m : Assoc κ α) (key other : κ) (f : α → α) :
    (m.modify key f).get? other = if key = other then (m.get? other).map f else m.get? other :=
  lookup_revise key other f m.pairs

theorem get?_eq_some_iff (m : Assoc κ α) (key : κ) (value : α) :
    m.get? key = some value ↔ (key, value) ∈ m.pairs :=
  ⟨mem_of_lookup, lookup_of_mem m.distinct⟩

end Assoc

end SnapshotIndex
