import SnapshotIndex.Proofs.Snapshot.Sharing
import SnapshotIndex.Proofs.Snapshot.Shelves
import SnapshotIndex.Snapshot.Lender

/-!
# The accounts of a store

A `Journal` is kept of what is done with a store and with the snapshots of it.
It knows nothing of versions, holders or copies: it lists the changes in order,
and of each snapshot that is held it notes the moment of its capture, which is
the number of changes there had been.  A copy of a snapshot has the moment of
the snapshot.  All that a store answers can be read off the journal.

The obstacle is that versions and moments do not go up together, because a
change that is made in place begins no new version.  It is made in place only
if nobody holds a snapshot of the version, so that for what is held versions and
moments tell the same things apart (`Kept.same_iff`), and only a snapshot that
was captured after the last change is of the latest version
(`Shows.current_iff`).

* `Kept.change`: a change, in place or not.
* `Kept.recount`: whatever is captured, copied or dropped.
* `lender_accounts`: over every run.
-/

namespace SnapshotIndex

variable {σ : Type}

/-! ## What can be done with a store -/

/-- The operations on a store and on the snapshots of it. -/
inductive LenderOp (σ : Type)
  | capture (name : String)
  | copy (source name : String)
  | drop (name : String)
  | write (f : σ → σ)
  | replace (content : σ)

/-- Whether an operation asks for write access. -/
def LenderOp.isWrite : LenderOp σ → Bool
  | write _ => true
  | _ => false

namespace Lender

/-- Carries out one operation.  There is nothing to copy under a name that has no
snapshot. -/
def perform (l : Lender σ) : LenderOp σ → Lender σ
  | .capture name => l.capture name
  | .copy source name =>
    match l.get? source with
    | none => l
    | some snapshot => l.keep name snapshot
  | .drop name => l.drop name
  | .write f => l.write f
  | .replace content => l.replace content

/-- How many of the writes in the course of some operations find the content
shared. -/
def sharedWrites (l : Lender σ) : List (LenderOp σ) → Nat
  | [] => 0
  | op :: ops => (op.isWrite && l.store.isShared).toNat + (l.perform op).sharedWrites ops

end Lender

/-! ## Journals -/

/-- What has been done with a store. -/
structure Journal (σ : Type) where
  /-- All changes in order.  One that puts other content in place does not look
  at what it finds. -/
  changes : List (σ → σ) := []
  /-- For every snapshot that is held, how many changes there had been when it
  was captured. -/
  moments : Assoc String Nat := .empty

namespace Journal

/-- The present moment. -/
def now (j : Journal σ) : Nat := j.changes.length

/-- What a store held at a moment that had held something in the beginning. -/
def contentAt (j : Journal σ) (start : σ) (moment : Nat) : σ :=
  (j.changes.take moment).foldl (fun content f => f content) start

/-- The changes since a moment. -/
def since (j : Journal σ) (moment : Nat) : List (σ → σ) := j.changes.drop moment

/-- Notes a change. -/
def change (j : Journal σ) (f : σ → σ) : Journal σ := { j with changes := j.changes ++ [f] }

/-- Notes an operation. -/
def note (j : Journal σ) : LenderOp σ → Journal σ
  | .capture name => { j with moments := j.moments.insert name j.now }
  | .copy source name =>
    match j.moments.get? source with
    | none => j
    | some moment => { j with moments := j.moments.insert name moment }
  | .drop name => { j with moments := j.moments.erase name }
  | .write f => j.change f
  | .replace content => j.change fun _ => content

variable {start : σ} {j : Journal σ} {moment : Nat}

@[simp] theorem now_change (j : Journal σ) (f : σ → σ) : (j.change f).now = j.now + 1 :=
  List.length_append

theorem contentAt_now (j : Journal σ) (start : σ) :
    j.contentAt start j.now = j.changes.foldl (fun content f => f content) start := by
  rw [contentAt, now, List.take_length]

/-- A change comes after all earlier ones. -/
theorem contentAt_now_change (j : Journal σ) (start : σ) (f : σ → σ) :
    (j.change f).contentAt start (j.change f).now = f (j.contentAt start j.now) := by
  rw [contentAt_now, contentAt_now, change, List.foldl_append]
  rfl

/-- A change does not reach back. -/
theorem contentAt_change (h : moment ≤ j.now) (f : σ → σ) :
    (j.change f).contentAt start moment = j.contentAt start moment := by
  rw [contentAt, change, List.take_append_of_le_length h, contentAt]

theorem since_eq_nil_iff (h : moment ≤ j.now) : j.since moment = [] ↔ moment = j.now := by
  rw [since, List.drop_eq_nil_iff]
  exact ⟨fun hle => Nat.le_antisymm h hle, fun heq => Nat.le_of_eq heq.symm⟩

end Journal

/-! ## What is kept of a store -/

/-- What the journal says of a snapshot that was captured at some moment. -/
structure Backing.Shows (b : Backing σ) (start : σ) (j : Journal σ) (x : Snapshot σ)
    (moment : Nat) : Prop where
  read?_eq : b.read? x = some (j.contentAt start moment)
  current_iff : b.isCurrent x = true ↔ moment = j.now
  moment_le : moment ≤ j.now

/-- A store with its snapshots is what the journal says. -/
structure Lender.Kept (start : σ) (l : Lender σ) (j : Journal σ) : Prop where
  ordered : l.store.Ordered
  holders_eq : ∀ x, l.store.holders x = l.held.tally id x
  content_eq : l.store.content = j.contentAt start j.now
  held : l.held.Related (l.store.Shows start j) j.moments
  same_iff : ∀ x m y k, l.held.Paired j.moments x m → l.held.Paired j.moments y k →
    (x.version = y.version ↔ m = k)

/-- A store that differs from another one in nothing but who holds it. -/
structure Backing.Recounted (b c : Backing σ) : Prop where
  version_eq : c.version = b.version
  content_eq : c.content = b.content
  copies_eq : c.copies = b.copies

namespace Backing

variable {b c d : Backing σ}

theorem Recounted.trans (h : b.Recounted c) (h' : c.Recounted d) : b.Recounted d :=
  ⟨h'.version_eq.trans h.version_eq, h'.content_eq.trans h.content_eq,
    h'.copies_eq.trans h.copies_eq⟩

theorem recounted_hold (b : Backing σ) (x : Snapshot σ) : b.Recounted (b.hold x) :=
  ⟨b.version_hold x, b.content_hold x, b.copies_hold x⟩

theorem recounted_release (b : Backing σ) (x : Snapshot σ) : b.Recounted (b.release x) :=
  ⟨b.version_release x, b.content_release x, b.copies_release x⟩

end Backing

namespace Lender

variable {start : σ} {l l' : Lender σ} {j j' : Journal σ}

@[simp] theorem held_release (l : Lender σ) (old : Option (Snapshot σ)) :
    (l.release old).held = l.held := by
  cases old <;> rfl

theorem recounted_release (l : Lender σ) (old : Option (Snapshot σ)) :
    l.store.Recounted (l.release old).store := by
  cases old with
  | none => exact ⟨rfl, rfl, rfl⟩
  | some x => exact l.store.recounted_release x

theorem recounted_keep (l : Lender σ) (name : String) (x : Snapshot σ) :
    l.store.Recounted (l.keep name x).store :=
  (l.store.recounted_hold x).trans
    (recounted_release ⟨l.store.hold x, l.held.insert name x⟩ (l.get? name))

theorem recounted_drop (l : Lender σ) (name : String) :
    l.store.Recounted (l.drop name).store :=
  recounted_release { l with held := l.held.erase name } (l.get? name)

theorem follows_release (h : l.store.Ordered) {old : Option (Snapshot σ)}
    (hheld : ∀ x, old = some x → 0 < l.store.holders x) :
    l.store.Follows old none (l.release old).store := by
  cases old with
  | none => exact (Backing.Undisturbed.refl h).follows
  | some x => exact Backing.follows_release h (hheld x rfl)

/-- What takes the name of something else is held before the other is let go. -/
theorem follows_keep (h : l.store.Ordered) {name : String} {x : Snapshot σ} {content : σ}
    (hread : l.store.read? x = some content)
    (hheld : ∀ y, l.get? name = some y → 0 < l.store.holders y) :
    l.store.Follows (l.get? name) (some x) (l.keep name x).store := by
  have hcome := Backing.follows_hold h hread
  refine hcome.exchange (follows_release (l := ⟨l.store.hold x, l.held.insert name x⟩)
    hcome.ordered fun y hy => ?_)
  have hcount := hcome.holders_add y
  have hpos := hheld y hy
  rw [if_neg (Option.some_ne_none y).symm] at hcount
  change 0 < (l.store.hold x).holders y
  omega

/-- What has a name is held. -/
theorem Kept.holders_pos (h : l.Kept start j) {name : String} {x : Snapshot σ}
    (hget : l.get? name = some x) : 0 < l.store.holders x := by
  rw [h.holders_eq x]
  exact Assoc.tally_pos (f := id) hget

/-! ## Changes -/

/-- A change shows in no snapshot that is held, and none of them is current after
it. -/
theorem Kept.change (h : l.Kept start j) {b : Backing σ} {f : σ → σ}
    (hundisturbed : l.store.Undisturbed b)
    (hversion : b.version = l.store.version + l.store.isShared.toNat)
    (hcontent : b.content = f l.store.content) :
    { l with store := b }.Kept start (j.change f) where
  ordered := hundisturbed.ordered
  holders_eq x := (hundisturbed.holders_eq x).trans (h.holders_eq x)
  content_eq := by
    rw [j.contentAt_now_change, ← h.content_eq]
    exact hcontent
  held := by
    refine h.held.mono fun name x moment hget hshows => ?_
    have hheld := h.holders_pos hget
    refine ⟨?_, ?_, ?_⟩
    · change b.read? x = _
      rw [hundisturbed.read?_eq x hheld, hshows.read?_eq, Journal.contentAt_change hshows.moment_le]
    · -- a snapshot of the latest version is held only if a new version begins
      change b.isCurrent x = true ↔ _
      rw [Backing.isCurrent_iff, hversion, Journal.now_change]
      have hle := hshows.moment_le
      rcases Backing.version_of_held h.ordered hheld with hpast | ⟨hlatest, hshared⟩
      · omega
      · rw [hshared, Bool.toNat_true]
        omega
    · rw [Journal.now_change]
      exact Nat.le_succ_of_le hshows.moment_le
  same_iff := h.same_iff

/-! ## Captures, copies and drops -/

/-- Whatever comes and goes, what is left is what it was, provided that the store
has kept count. -/
theorem Kept.recount (h : l.Kept start j) {lost gained : Option (Snapshot σ)}
    (hstore : l.store.Follows lost gained l'.store) (hrecounted : l.store.Recounted l'.store)
    (hchanges : j'.changes = j.changes)
    (htally : ∀ x, l'.held.tally id x + (if lost = some x then 1 else 0) =
      l.held.tally id x + if gained = some x then 1 else 0)
    (hheld : l'.held.Related (l.store.Shows start j) j'.moments)
    (hsame : ∀ x m y k, l'.held.Paired j'.moments x m → l'.held.Paired j'.moments y k →
      (x.version = y.version ↔ m = k)) : l'.Kept start j' := by
  have hcount : ∀ x, l'.store.holders x = l'.held.tally id x := by
    intro x
    have hadd := hstore.holders_add x
    rw [h.holders_eq x, ← htally x] at hadd
    exact Nat.add_right_cancel hadd
  refine ⟨hstore.ordered, hcount, ?_, hheld.mono fun name x moment hget hshows => ?_, hsame⟩
  · rw [hrecounted.content_eq, h.content_eq, Journal.contentAt, Journal.contentAt, Journal.now,
      Journal.now, hchanges]
  · have hpos : 0 < l'.store.holders x := by
      rw [hcount x]
      exact Assoc.tally_pos (f := id) hget
    refine ⟨?_, ?_, ?_⟩
    · rw [hstore.read?_eq x hpos, hshows.read?_eq, Journal.contentAt, Journal.contentAt, hchanges]
    · rw [Backing.isCurrent_iff, hrecounted.version_eq, ← Backing.isCurrent_iff, Journal.now,
        hchanges]
      exact hshows.current_iff
    · rw [Journal.now, hchanges]
      exact hshows.moment_le

/-- Keeps a snapshot of which the journal says when it was captured. -/
theorem Kept.keep (h : l.Kept start j) (name : String) {x : Snapshot σ} {moment : Nat}
    (hshows : l.store.Shows start j x moment)
    (hsame : ∀ y k, l.held.Paired j.moments y k → (x.version = y.version ↔ moment = k)) :
    (l.keep name x).Kept start { j with moments := j.moments.insert name moment } := by
  have hheld : (l.keep name x).held = l.held.insert name x := held_release _ _
  have hstore : l.store.Follows (l.get? name) (some x) (l.keep name x).store :=
    follows_keep h.ordered hshows.read?_eq fun y hy => h.holders_pos hy
  refine h.recount hstore (l.recounted_keep name x) rfl (fun y => ?_) ?_ ?_
  · rw [hheld]
    have hcount := l.held.tally_insert (f := id) name x y
    rw [Option.map_id_apply] at hcount
    have hgained := Option.some.injEq x y
    exact hcount.trans (congrArg _ (ite_congr hgained.symm (fun _ => rfl) fun _ => rfl))
  · rw [hheld]
    exact h.held.insert name hshows
  · rw [hheld]
    intro y m z k hy hz
    rcases Assoc.paired_insert hy with ⟨rfl, rfl⟩ | hyOld
    · rcases Assoc.paired_insert hz with ⟨rfl, rfl⟩ | hzOld
      · exact iff_of_true rfl rfl
      · exact hsame z k hzOld
    · rcases Assoc.paired_insert hz with ⟨rfl, rfl⟩ | hzOld
      · rw [eq_comm, hsame y m hyOld, eq_comm]
      · exact h.same_iff y m z k hyOld hzOld

/-- What is captured now is the same as what else was captured since the last
change. -/
theorem Kept.capture (h : l.Kept start j) (name : String) :
    (l.capture name).Kept start (j.note (.capture name)) := by
  have hshows : l.store.Shows start j l.store.snapshot j.now := by
    refine ⟨?_, iff_of_true (Backing.isCurrent_iff.mpr rfl) rfl, Nat.le_refl _⟩
    rw [Backing.read?_snapshot, h.content_eq]
  refine h.keep name hshows fun y k hy => ?_
  have hcurrent := (h.held.of_paired hy).current_iff
  rw [Backing.isCurrent_iff] at hcurrent
  change l.store.version = y.version ↔ _
  rw [eq_comm, hcurrent, eq_comm]

theorem Kept.copy (h : l.Kept start j) (source name : String) :
    (l.perform (.copy source name)).Kept start (j.note (.copy source name)) := by
  simp only [perform, Journal.note]
  cases hget : l.get? source with
  | none =>
    rw [h.held.eq_none hget]
    exact h
  | some x =>
    obtain ⟨moment, hmoment, hshows⟩ := h.held.exists_right hget
    rw [hmoment]
    exact h.keep name hshows fun y k hy => h.same_iff x moment y k ⟨source, hget, hmoment⟩ hy

theorem Kept.drop (h : l.Kept start j) (name : String) :
    (l.drop name).Kept start (j.note (.drop name)) := by
  have hheld : (l.drop name).held = l.held.erase name := held_release _ _
  have hstore : l.store.Follows (l.get? name) none (l.drop name).store :=
    follows_release (l := { l with held := l.held.erase name }) h.ordered
      fun y hy => h.holders_pos hy
  refine h.recount hstore (l.recounted_drop name) rfl (fun y => ?_) ?_ ?_
  · rw [hheld]
    have hcount := l.held.tally_erase (f := id) name y
    rw [Option.map_id_apply] at hcount
    exact hcount
  · rw [hheld]
    exact h.held.erase name
  · rw [hheld]
    intro y m z k hy hz
    exact h.same_iff y m z k (Assoc.paired_erase hy) (Assoc.paired_erase hz)

/-! ## Runs -/

/-- One operation: the journal goes on to say what is kept. -/
theorem Kept.perform (h : l.Kept start j) (op : LenderOp σ) :
    (l.perform op).Kept start (j.note op) := by
  cases op with
  | capture name => exact h.capture name
  | copy source name => exact h.copy source name
  | drop name => exact h.drop name
  | write f =>
    exact h.change (Backing.undisturbed_write h.ordered f) (l.store.version_write f)
      (l.store.content_write f)
  | replace content =>
    exact h.change (f := fun _ => content) (Backing.undisturbed_replace h.ordered content)
      (l.store.version_replace content) (l.store.content_replace content)

theorem Kept.run (h : l.Kept start j) (ops : List (LenderOp σ)) :
    (ops.foldl Lender.perform l).Kept start (ops.foldl Journal.note j) := by
  induction ops generalizing l j with
  | nil => exact h
  | cons op ops ih => exact ih (h.perform op)

theorem kept_of (start : σ) : (Lender.of start).Kept start {} where
  ordered := Backing.ordered_of start
  holders_eq x := Backing.holders_of start x
  content_eq := rfl
  held := .empty
  same_iff x m y k hx := by
    obtain ⟨name, hname, -⟩ := hx
    exact absurd hname (Option.some_ne_none x).symm

/-- Only a write copies, and only what is shared. -/
theorem copies_perform (l : Lender σ) (op : LenderOp σ) :
    (l.perform op).store.copies = l.store.copies + (op.isWrite && l.store.isShared).toNat := by
  cases op with
  | capture name => exact (l.recounted_keep name l.store.snapshot).copies_eq
  | copy source name =>
    simp only [perform]
    split
    · rfl
    · exact (l.recounted_keep name _).copies_eq
  | drop name => exact (l.recounted_drop name).copies_eq
  | write f => exact l.store.copies_write f
  | replace content => exact l.store.copies_replace content

theorem copies_run (l : Lender σ) (ops : List (LenderOp σ)) :
    (ops.foldl Lender.perform l).store.copies = l.store.copies + l.sharedWrites ops := by
  induction ops generalizing l with
  | nil => rfl
  | cons op ops ih =>
    calc (ops.foldl Lender.perform (l.perform op)).store.copies
        = (l.perform op).store.copies + (l.perform op).sharedWrites ops := ih (l.perform op)
      _ = l.store.copies + (op.isWrite && l.store.isShared).toNat +
          (l.perform op).sharedWrites ops := by rw [l.copies_perform op]
      _ = l.store.copies + l.sharedWrites (op :: ops) := Nat.add_assoc _ _ _

/-- What a store answers, by the journal. -/
structure Accounts (start : σ) (l : Lender σ) (j : Journal σ) : Prop where
  /-- It holds what all changes in order have made of what it held in the
  beginning. -/
  content_eq : l.store.content = j.changes.foldl (fun content f => f content) start
  /-- Of the snapshots that are held, each reads what the store held at the moment
  of its capture, and is current if there has been no change since. -/
  held : l.held.Related (fun x moment => l.store.read? x = some (j.contentAt start moment) ∧
    (l.store.isCurrent x = true ↔ j.since moment = [])) j.moments
  /-- Two of them are the same store if there was no change between their
  captures. -/
  sameContent_iff : ∀ x m y k, l.held.Paired j.moments x m → l.held.Paired j.moments y k →
    (x.sameContent y = true ↔ m = k)
  /-- Those that are current are counted, and the store is shared if there are
  any. -/
  outstanding_eq : l.store.outstanding = l.held.values.countP l.store.isCurrent
  isShared_iff : l.store.isShared = true ↔ 0 < l.held.values.countP l.store.isCurrent

theorem Kept.outstanding_eq (h : l.Kept start j) :
    l.store.outstanding = l.held.values.countP l.store.isCurrent := by
  rw [← Backing.holders_snapshot, h.holders_eq, Assoc.tally, List.map_id, List.count]
  refine List.countP_congr fun x _ => ?_
  rw [Backing.isCurrent_iff, beq_iff_eq, Snapshot.ext_iff]
  rfl

theorem Kept.accounts (h : l.Kept start j) : l.Accounts start j where
  content_eq := h.content_eq.trans (j.contentAt_now start)
  held := h.held.mono fun _ _ _ _ hshows =>
    ⟨hshows.read?_eq, hshows.current_iff.trans (Journal.since_eq_nil_iff hshows.moment_le).symm⟩
  sameContent_iff x m y k hx hy := beq_iff_eq.trans (h.same_iff x m y k hx hy)
  outstanding_eq := h.outstanding_eq
  isShared_iff := by
    rw [← h.outstanding_eq]
    exact Backing.isShared_iff

end Lender

/-- The accounts of a store.  Whatever is captured, copied, dropped, written and
put in place, in any order, the store answers what the journal says, and has
copied its content once for each write that found it shared. -/
theorem lender_accounts (start : σ) (ops : List (LenderOp σ)) :
    (ops.foldl Lender.perform (Lender.of start)).Accounts start (ops.foldl Journal.note {}) ∧
      (ops.foldl Lender.perform (Lender.of start)).store.copies =
        (Lender.of start).sharedWrites ops := by
  refine ⟨((Lender.kept_of start).run ops).accounts, ?_⟩
  rw [Lender.copies_run]
  exact Nat.zero_add _

/-- The second write copies nothing, since the only snapshot of what it changes
has been dropped. -/
example :
    let ops : List (LenderOp Nat) := [.capture "a", .write (· + 1), .capture "b", .drop "b",
      .write (· * 10), .capture "c", .copy "a" "d"]
    let l := ops.foldl Lender.perform (.of 4)
    l.store.copies = 1 ∧ l.store.outstanding = 1 ∧
      (l.get? "c").bind l.store.read? = some 50 ∧ (l.get? "d").bind l.store.read? = some 4 := by
  decide

end SnapshotIndex
