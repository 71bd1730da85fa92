import SnapshotIndex.Snapshot.Backing

/-!
# What the holder of a snapshot sees

A store leaves its latest version to those who hold it before it changes
anything, and takes up a new one that nobody has ever held.  For this the
earlier versions have to be `Ordered` before the latest.  Then no change is
seen by anyone who holds a snapshot: `Undisturbed` says that every snapshot
has as many holders as before, and that each of them reads what it read.

* `undisturbed_write`, `undisturbed_replace`: the two ways to change a store.
* `holders_hold`, `holders_release`: the count of holders goes up and down by
  one, and only for the snapshot in question.
* `read?_release`: whoever still holds a snapshot reads what it read before
  another holder let go.

`Follows` puts these together: it says how a store goes on when a snapshot may
have lost a holder and one may have gained a holder.
-/

namespace SnapshotIndex

namespace Backing

variable {σ : Type}

/-- Earlier versions come before the latest one. -/
def Ordered (b : Backing σ) : Prop := ∀ v cell, b.past.get? v = some cell → v < b.version

/-- Nobody who holds a snapshot can tell one store from the other. -/
structure Undisturbed (b b' : Backing σ) : Prop where
  ordered : b'.Ordered
  holders_eq : ∀ s, b'.holders s = b.holders s
  read?_eq : ∀ s, 0 < b.holders s → b'.read? s = b.read? s

theorem ordered_of (content : σ) : (of content).Ordered := by
  intro v cell h
  exact absurd h (by simp [of])

theorem Undisturbed.refl {b : Backing σ} (h : b.Ordered) : Undisturbed b b :=
  ⟨h, fun _ => rfl, fun _ _ => rfl⟩

theorem Undisturbed.trans {b c d : Backing σ} (h : Undisturbed b c) (h' : Undisturbed c d) :
    Undisturbed b d where
  ordered := h'.ordered
  holders_eq s := (h'.holders_eq s).trans (h.holders_eq s)
  read?_eq s hs := by
    rw [h'.read?_eq s (by rwa [h.holders_eq s]), h.read?_eq s hs]

/-! ## Snapshots of the latest version and of earlier ones -/

theorem isCurrent_iff {b : Backing σ} {s : Snapshot σ} :
    b.isCurrent s = true ↔ s.version = b.version := by
  unfold isCurrent
  exact beq_iff_eq

theorem read?_eq (b : Backing σ) (s : Snapshot σ) :
    b.read? s = if s.version = b.version then some b.content
      else (b.past.get? s.version).map Cell.content := by
  unfold read?
  simp only [isCurrent_iff]

theorem holders_eq (b : Backing σ) (s : Snapshot σ) :
    b.holders s = if s.version = b.version then b.outstanding
      else ((b.past.get? s.version).map Cell.holders).getD 0 := by
  unfold holders
  simp only [isCurrent_iff]

theorem holders_of (content : σ) (s : Snapshot σ) : (of content).holders s = 0 := by
  rw [holders_eq]
  split <;> rfl

@[simp] theorem holders_snapshot (b : Backing σ) : b.holders b.snapshot = b.outstanding := by
  rw [holders_eq]
  exact if_pos rfl

theorem isShared_iff {b : Backing σ} : b.isShared = true ↔ 0 < b.outstanding :=
  decide_eq_true_iff

theorem not_isShared_iff {b : Backing σ} : ¬ b.isShared = true ↔ b.outstanding = 0 := by
  simp [isShared]

/-- A snapshot that is held is of an earlier version, or of a shared one. -/
theorem version_of_held {b : Backing σ} (h : b.Ordered) {x : Snapshot σ}
    (hheld : 0 < b.holders x) :
    x.version < b.version ∨ x.version = b.version ∧ b.isShared = true := by
  rw [holders_eq] at hheld
  by_cases hx : x.version = b.version
  · rw [if_pos hx] at hheld
    exact .inr ⟨hx, decide_eq_true hheld⟩
  · rw [if_neg hx] at hheld
    cases hcell : b.past.get? x.version with
    | none => simp [hcell] at hheld
    | some cell => exact .inl (h _ cell hcell)

/-! ## Changing the content -/

/-- The version that is left keeps its content and its holders, and the new one
has none. -/
theorem undisturbed_leave {b : Backing σ} (h : b.Ordered) (content : σ) :
    Undisturbed b (b.leave content) := by
  have hfresh : b.past.get? (b.version + 1) = none := by
    cases hcell : b.past.get? (b.version + 1) with
    | none => rfl
    | some cell =>
      have := h _ cell hcell
      omega
  refine ⟨?_, fun s => ?_, fun s hs => ?_⟩
  · intro v cell hcell
    simp only [leave, Assoc.get?_insert] at hcell ⊢
    split at hcell
    · omega
    · exact Nat.lt_succ_of_lt (h v cell hcell)
  · simp only [holders_eq, leave, Assoc.get?_insert]
    by_cases hnew : s.version = b.version + 1
    · rw [if_pos hnew, if_neg (by omega), hnew, hfresh]
      rfl
    · rw [if_neg hnew]
      by_cases hold : b.version = s.version
      · rw [if_pos hold, if_pos hold.symm]
        rfl
      · rw [if_neg hold, if_neg (Ne.symm hold)]
  · simp only [read?_eq, leave, Assoc.get?_insert]
    rw [holders_eq] at hs
    by_cases hnew : s.version = b.version + 1
    · -- nobody can hold a snapshot of a version that does not exist yet
      rw [if_neg (by omega), hnew, hfresh] at hs
      exact absurd hs (by simp)
    · rw [if_neg hnew]
      by_cases hold : b.version = s.version
      · rw [if_pos hold, if_pos hold.symm]
        rfl
      · rw [if_neg hold, if_neg (Ne.symm hold)]

/-- Content that nobody else holds may be changed in place. -/
theorem undisturbed_in_place {b : Backing σ} (h : b.Ordered) (hfree : b.outstanding = 0)
    (content : σ) : Undisturbed b { b with content := content } := by
  refine ⟨h, fun s => rfl, fun s hs => ?_⟩
  rw [holders_eq] at hs
  simp only [read?_eq]
  by_cases hcurrent : s.version = b.version
  · rw [if_pos hcurrent] at hs
    omega
  · rw [if_neg hcurrent, if_neg hcurrent]

theorem undisturbed_write {b : Backing σ} (h : b.Ordered) (f : σ → σ) :
    Undisturbed b (b.write f) := by
  unfold write
  split
  · -- the count of copies is of no concern to a holder
    obtain ⟨hordered, hholders, hread⟩ := undisturbed_leave h (f b.content)
    exact ⟨hordered, hholders, hread⟩
  · rename_i hshared
    exact undisturbed_in_place h (not_isShared_iff.mp hshared) _

theorem undisturbed_replace {b : Backing σ} (h : b.Ordered) (content : σ) :
    Undisturbed b (b.replace content) := by
  unfold replace
  split
  · exact undisturbed_leave h content
  · rename_i hshared
    exact undisturbed_in_place h (not_isShared_iff.mp hshared) _

theorem version_write (b : Backing σ) (f : σ → σ) :
    (b.write f).version = b.version + b.isShared.toNat := by
  unfold write
  split <;> simp_all [leave]

theorem version_replace (b : Backing σ) (content : σ) :
    (b.replace content).version = b.version + b.isShared.toNat := by
  unfold replace
  split <;> simp_all [leave]

theorem copies_write (b : Backing σ) (f : σ → σ) :
    (b.write f).copies = b.copies + b.isShared.toNat := by
  unfold write
  split <;> simp_all

theorem copies_replace (b : Backing σ) (content : σ) : (b.replace content).copies = b.copies := by
  unfold replace
  split <;> rfl

/-- Nobody holds the new content. -/
theorem isShared_write (b : Backing σ) (f : σ → σ) : (b.write f).isShared = false := by
  unfold write
  split
  · rfl
  · rename_i hshared
    exact Bool.eq_false_iff.mpr hshared

theorem isShared_replace (b : Backing σ) (content : σ) : (b.replace content).isShared = false := by
  unfold replace
  split
  · rfl
  · rename_i hshared
    exact Bool.eq_false_iff.mpr hshared

/-! ## Holding and releasing -/

theorem version_hold (b : Backing σ) (s : Snapshot σ) : (b.hold s).version = b.version := by
  unfold hold
  split <;> rfl

theorem version_release (b : Backing σ) (s : Snapshot σ) :
    (b.release s).version = b.version := by
  unfold release
  split
  · rfl
  · split <;> rfl

theorem copies_hold (b : Backing σ) (s : Snapshot σ) : (b.hold s).copies = b.copies := by
  unfold hold
  split <;> rfl

theorem copies_release (b : Backing σ) (s : Snapshot σ) : (b.release s).copies = b.copies := by
  unfold release
  split
  · rfl
  · split <;> rfl

theorem ordered_hold {b : Backing σ} (h : b.Ordered) (s : Snapshot σ) : (b.hold s).Ordered := by
  unfold hold
  split
  · exact h
  · intro v cell hcell
    rw [Assoc.get?_modify] at hcell
    split at hcell
    · obtain ⟨old, hold, -⟩ := Option.map_eq_some_iff.mp hcell
      exact h v old hold
    · exact h v cell hcell

/-- One more holder changes nothing that is read. -/
theorem read?_hold (b : Backing σ) (s x : Snapshot σ) : (b.hold s).read? x = b.read? x := by
  unfold hold
  split
  · rfl
  · simp only [read?_eq, Assoc.get?_modify]
    split
    · rfl
    · split
      · cases b.past.get? x.version <;> rfl
      · rfl

theorem holders_hold {b : Backing σ} {s : Snapshot σ} {content : σ}
    (h : b.read? s = some content) (x : Snapshot σ) :
    (b.hold s).holders x = b.holders x + if s = x then 1 else 0 := by
  rw [read?_eq] at h
  unfold hold
  simp only [isCurrent_iff, Snapshot.ext_iff]
  by_cases hs : s.version = b.version
  · rw [if_pos hs]
    simp only [holders_eq]
    by_cases hx : x.version = b.version
    · rw [if_pos hx, if_pos hx, if_pos (by omega)]
    · rw [if_neg hx, if_neg hx, if_neg (by omega), Nat.add_zero]
  · -- the owner has left this version, and only its cell is counted up
    rw [if_neg hs] at h ⊢
    simp only [holders_eq, Assoc.get?_modify]
    by_cases hx : x.version = b.version
    · rw [if_pos hx, if_pos hx, if_neg (by omega), Nat.add_zero]
    · rw [if_neg hx, if_neg hx]
      by_cases hsame : s.version = x.version
      · rw [if_pos hsame, if_pos hsame]
        rw [hsame] at h
        cases hcell : b.past.get? x.version with
        | none => simp [hcell] at h
        | some cell => rfl
      · rw [if_neg hsame, if_neg hsame, Nat.add_zero]

theorem ordered_release {b : Backing σ} (h : b.Ordered) (s : Snapshot σ) :
    (b.release s).Ordered := by
  unfold release
  split
  · exact h
  · split
    · intro v cell hcell
      rw [Assoc.get?_erase] at hcell
      split at hcell
      · exact absurd hcell (by simp)
      · exact h v cell hcell
    · intro v cell hcell
      rw [Assoc.get?_modify] at hcell
      split at hcell
      · obtain ⟨old, hold, -⟩ := Option.map_eq_some_iff.mp hcell
        exact h v old hold
      · exact h v cell hcell

theorem holders_release {b : Backing σ} {s : Snapshot σ} (h : 0 < b.holders s) (x : Snapshot σ) :
    (b.release s).holders x + (if s = x then 1 else 0) = b.holders x := by
  unfold release
  simp only [isCurrent_iff, Snapshot.ext_iff]
  rw [holders_eq] at h
  by_cases hs : s.version = b.version
  · rw [if_pos hs] at h ⊢
    simp only [holders_eq]
    by_cases hx : x.version = b.version
    · rw [if_pos hx, if_pos hx, if_pos (by omega)]
      exact Nat.sub_add_cancel h
    · rw [if_neg hx, if_neg hx, if_neg (by omega), Nat.add_zero]
  · rw [if_neg hs] at h ⊢
    rw [holders_eq b s, if_neg hs]
    cases hcell : b.past.get? s.version with
    | none => simp [hcell] at h
    | some cell =>
      simp only [hcell, Option.map_some, Option.getD_some] at h ⊢
      by_cases hx : x.version = b.version
      · split <;> simp only [holders_eq] <;>
          rw [if_pos hx, if_pos hx, if_neg (by omega), Nat.add_zero]
      · split
        · -- the last holder takes the version along
          rename_i hone
          simp only [holders_eq, Assoc.get?_erase]
          rw [if_neg hx, if_neg hx]
          by_cases hsame : s.version = x.version
          · rw [if_pos hsame, if_pos hsame, ← hsame, hcell]
            simp only [Option.map_none, Option.getD_none, Option.map_some, Option.getD_some]
            omega
          · rw [if_neg hsame, if_neg hsame, Nat.add_zero]
        · simp only [holders_eq, Assoc.get?_modify]
          rw [if_neg hx, if_neg hx]
          by_cases hsame : s.version = x.version
          · rw [if_pos hsame, if_pos hsame, ← hsame, hcell]
            simp only [Option.map_some, Option.getD_some]
            omega
          · rw [if_neg hsame, if_neg hsame, Nat.add_zero]

/-- Whoever still holds a snapshot reads the same after a release. -/
theorem read?_release {b : Backing σ} {s x : Snapshot σ} (h : 0 < (b.release s).holders x) :
    (b.release s).read? x = b.read? x := by
  unfold release at h ⊢
  split
  · rfl
  · rename_i hs
    rw [if_neg hs] at h
    split
    · -- a version that is let go has no holder left who could read it
      rename_i hone
      rw [if_pos hone] at h
      simp only [holders_eq, read?_eq, Assoc.get?_erase] at h ⊢
      by_cases hx : x.version = b.version
      · rw [if_pos hx, if_pos hx]
      · rw [if_neg hx] at h
        rw [if_neg hx, if_neg hx]
        by_cases hsame : s.version = x.version
        · rw [if_pos hsame] at h
          exact absurd h (by simp)
        · rw [if_neg hsame]
    · simp only [read?_eq, Assoc.get?_modify]
      split
      · rfl
      · split
        · cases b.past.get? x.version <;> rfl
        · rfl

/-! ## A store and what becomes of it -/

/-- How a store goes on from another one after which a snapshot may have lost a
holder and one may have gained a holder: whoever is left holding a snapshot
reads what was read before. -/
structure Follows (b : Backing σ) (lost gained : Option (Snapshot σ)) (c : Backing σ) : Prop where
  ordered : c.Ordered
  holders_add : ∀ s, c.holders s + (if lost = some s then 1 else 0) =
    b.holders s + (if gained = some s then 1 else 0)
  read?_eq : ∀ s, 0 < c.holders s → c.read? s = b.read? s

variable {b c : Backing σ} {s : Snapshot σ}

theorem Undisturbed.follows (h : b.Undisturbed c) : b.Follows none none c where
  ordered := h.ordered
  holders_add x := congrArg (· + 0) (h.holders_eq x)
  read?_eq x hx := by
    apply h.read?_eq
    rwa [← h.holders_eq x]

theorem follows_hold (h : b.Ordered) {content : σ} (hread : b.read? s = some content) :
    b.Follows none (some s) (b.hold s) where
  ordered := ordered_hold h s
  holders_add x := by simpa using holders_hold hread x
  read?_eq x _ := b.read?_hold s x

theorem follows_release (h : b.Ordered) (hheld : 0 < b.holders s) :
    b.Follows (some s) none (b.release s) where
  ordered := ordered_release h s
  holders_add x := by simpa using holders_release hheld x
  read?_eq _ hx := read?_release hx

/-- One holder comes and then another one may go. -/
theorem Follows.exchange {d : Backing σ} {lost : Option (Snapshot σ)}
    (h : b.Follows none (some s) c) (h' : c.Follows lost none d) : b.Follows lost (some s) d where
  ordered := h'.ordered
  holders_add x := by
    have hcome := h.holders_add x
    have hgo := h'.holders_add x
    rw [if_neg (Option.some_ne_none x).symm] at hcome hgo
    omega
  read?_eq x hx := by
    -- who is left after the exchange was there before the release
    have hbefore : 0 < c.holders x := by
      have hgo := h'.holders_add x
      rw [if_neg (Option.some_ne_none x).symm] at hgo
      omega
    rw [h'.read?_eq x hx, h.read?_eq x hbefore]

end Backing

end SnapshotIndex
