import Mathlib.Order.Bounds.Basic
import SnapshotIndex.Catalog.Label

/-!
# Scripts of edits, and alignments

A script turns one text into another by edits of one character each, anywhere in
the text and in any order.  What is the least length of a script cannot be tried
out, since there are scripts without end that insert and delete.

`alignment` looks for a shortest script among few of them only, those that treat
the texts from the front to the back and never come back to a character.  It is
attained: an alignment can be carried out as a script (`edits_alignment`).  And no
other script is shorter, because one edit at whatever place changes the alignment
with any third text by at most one (`Edit.alignment_le`).  By the place of the edit
this is an induction on the text before it: an edit at the front is seen from the
recursion (`alignment_cons_left_le`, `alignment_le_cons_left` and
`alignment_substitute_le`), and a character before the edit makes no difference
(`alignment_cons_of_le`).

Scripts can be joined, turned round, and carried out on texts that are read
backwards.
-/

namespace SnapshotIndex.Label

/-- One edit: a character is inserted, deleted, or put in the place of another. -/
inductive Edit : List Char → List Char → Prop
  | insert (before after : List Char) (c : Char) : Edit (before ++ after) (before ++ c :: after)
  | delete (before after : List Char) (c : Char) : Edit (before ++ c :: after) (before ++ after)
  | substitute (before after : List Char) (c d : Char) :
    Edit (before ++ c :: after) (before ++ d :: after)

/-- A script of so many edits turns one text into another. -/
inductive Edits : Nat → List Char → List Char → Prop
  | refl (a : List Char) : Edits 0 a a
  | head {n : Nat} {a b c : List Char} (first : Edit a b) (rest : Edits n b c) :
    Edits (n + 1) a c

variable {a b z : List Char} {n m : Nat}

/-! ## Edits -/

namespace Edit

theorem symm (h : Edit a b) : Edit b a := by
  cases h with
  | insert before after c => exact .delete before after c
  | delete before after c => exact .insert before after c
  | substitute before after c d => exact .substitute before after d c

theorem cons (h : Edit a b) (e : Char) : Edit (e :: a) (e :: b) := by
  cases h with
  | insert before after c => exact .insert (e :: before) after c
  | delete before after c => exact .delete (e :: before) after c
  | substitute before after c d => exact .substitute (e :: before) after c d

theorem reverse (h : Edit a b) : Edit a.reverse b.reverse := by
  cases h with
  | insert before after c =>
    simpa using Edit.insert after.reverse before.reverse c
  | delete before after c =>
    simpa using Edit.delete after.reverse before.reverse c
  | substitute before after c d =>
    simpa using Edit.substitute after.reverse before.reverse c d

theorem length_le (h : Edit a b) : a.length ≤ b.length + 1 := by
  cases h <;>
  · simp only [List.length_append, List.length_cons]
    omega

end Edit

/-! ## Scripts -/

namespace Edits

theorem eq_of_zero (h : Edits 0 a b) : a = b := by
  cases h
  rfl

theorem trans (h : Edits n a b) (h' : Edits m b z) : Edits (n + m) a z := by
  induction h with
  | refl a =>
    rw [Nat.zero_add]
    exact h'
  | head first rest ih =>
    rw [Nat.succ_add_eq_add_succ]
    exact .head first (ih h')

theorem symm (h : Edits n a b) : Edits n b a := by
  induction h with
  | refl a => exact .refl a
  | head first rest ih => exact ih.trans (.head first.symm (.refl _))

theorem cons (h : Edits n a b) (e : Char) : Edits n (e :: a) (e :: b) := by
  induction h with
  | refl a => exact .refl (e :: a)
  | head first rest ih => exact .head (first.cons e) ih

theorem reverse (h : Edits n a b) : Edits n a.reverse b.reverse := by
  induction h with
  | refl a => exact .refl a.reverse
  | head first rest ih => exact .head first.reverse ih

theorem length_le (h : Edits n a b) : a.length ≤ b.length + n := by
  induction h with
  | refl a => exact Nat.le_refl _
  | head first rest ih => exact first.length_le.trans (Nat.succ_le_succ ih)

theorem shorter (h : Edits n a b) (h' : Edits m a b) : Edits (min n m) a b := by
  rcases Nat.le_total n m with hle | hle
  · rw [Nat.min_eq_left hle]
    exact h
  · rw [Nat.min_eq_right hle]
    exact h'

/-! A script for all but the first characters, and what becomes of these. -/

theorem insert (h : Edits n a b) (d : Char) : Edits (n + 1) a (d :: b) :=
  .head (.insert [] a d) (h.cons d)

theorem delete (h : Edits n a b) (c : Char) : Edits (n + 1) (c :: a) b :=
  .head (.delete [] a c) h

theorem substitute (h : Edits n a b) (c d : Char) :
    Edits (n + if c = d then 0 else 1) (c :: a) (d :: b) := by
  split
  · rename_i heq
    rw [heq]
    exact h.cons d
  · exact .head (.substitute [] a c d) (h.cons d)

end Edits

/-! ## Alignments -/

/-- The least number of edits by scripts that never come back to a character. -/
def alignment : List Char → List Char → Nat
  | [], b => b.length
  | c :: a, [] => (c :: a).length
  | c :: a, d :: b =>
    min (alignment a b + if c = d then 0 else 1)
      (min (alignment a (d :: b) + 1) (alignment (c :: a) b + 1))
termination_by a b => a.length + b.length

@[simp] theorem alignment_nil_left (b : List Char) : alignment [] b = b.length := by
  rw [alignment]

@[simp] theorem alignment_nil_right (a : List Char) : alignment a [] = a.length := by
  cases a <;> rw [alignment]

theorem alignment_cons_cons (c d : Char) (a b : List Char) :
    alignment (c :: a) (d :: b) = min (alignment a b + if c = d then 0 else 1)
      (min (alignment a (d :: b) + 1) (alignment (c :: a) b + 1)) := by
  rw [alignment]

theorem alignment_self (a : List Char) : alignment a a = 0 := by
  induction a with
  | nil => rw [alignment_nil_left, List.length_nil]
  | cons c a ih => rw [alignment_cons_cons, ih, if_pos rfl, Nat.zero_min]

/-- An alignment can be carried out. -/
theorem edits_alignment (a b : List Char) : Edits (alignment a b) a b := by
  induction a, b using alignment.induct with
  | case1 b =>
    rw [alignment_nil_left]
    induction b with
    | nil => exact .refl []
    | cons d b ih => exact ih.insert d
  | case2 c a =>
    rw [alignment_nil_right]
    induction a generalizing c with
    | nil => exact (Edits.refl []).delete c
    | cons c' a ih => exact (ih c').delete c
  | case3 c a d b hsub hdel hins =>
    rw [alignment_cons_cons]
    exact (hsub.substitute c d).shorter ((hdel.delete c).shorter (hins.insert d))

theorem alignment_le_max (a b : List Char) : alignment a b ≤ max a.length b.length := by
  induction a generalizing b with
  | nil =>
    rw [alignment_nil_left]
    exact Nat.le_max_right _ _
  | cons c a ih =>
    cases b with
    | nil =>
      rw [alignment_nil_right]
      exact Nat.le_max_left _ _
    | cons d b =>
      calc alignment (c :: a) (d :: b)
          ≤ alignment a b + if c = d then 0 else 1 := by
            rw [alignment_cons_cons]
            exact Nat.min_le_left _ _
        _ ≤ alignment a b + 1 := by
            split <;> omega
        _ ≤ max a.length b.length + 1 := Nat.succ_le_succ (ih b)
        _ = max (c :: a).length (d :: b).length := (Nat.succ_max_succ _ _).symm

/-! ### An edit at the front -/

theorem alignment_cons_left_le (c : Char) (a b : List Char) :
    alignment (c :: a) b ≤ alignment a b + 1 := by
  cases b with
  | nil => rw [alignment_nil_right, alignment_nil_right, List.length_cons]
  | cons d b =>
    rw [alignment_cons_cons]
    omega

theorem alignment_cons_right_le (d : Char) (a b : List Char) :
    alignment a (d :: b) ≤ alignment a b + 1 := by
  cases a with
  | nil => rw [alignment_nil_left, alignment_nil_left, List.length_cons]
  | cons c a =>
    rw [alignment_cons_cons]
    omega

theorem alignment_le_cons_left (c : Char) (a b : List Char) :
    alignment a b ≤ alignment (c :: a) b + 1 := by
  -- a shortest script may insert characters of `b` before it comes to `c`
  induction b with
  | nil =>
    rw [alignment_nil_right, alignment_nil_right, List.length_cons]
    omega
  | cons d b ih =>
    have hright := alignment_cons_right_le d a b
    rw [alignment_cons_cons]
    omega

theorem alignment_substitute_le (c d : Char) (a b : List Char) :
    alignment (c :: a) b ≤ alignment (d :: a) b + 1 := by
  induction b with
  | nil =>
    rw [alignment_nil_right, alignment_nil_right, List.length_cons, List.length_cons]
    omega
  | cons e b ih =>
    rw [alignment_cons_cons, alignment_cons_cons]
    split <;> split <;> omega

/-! ### An edit further on -/

/-- What makes a difference of at most one makes no greater difference after a
further character. -/
theorem alignment_cons_of_le (h : ∀ z, alignment a z ≤ alignment b z + 1) (c : Char)
    (z : List Char) : alignment (c :: a) z ≤ alignment (c :: b) z + 1 := by
  induction z with
  | nil =>
    have hnil := h []
    rw [alignment_nil_right, alignment_nil_right] at hnil ⊢
    exact Nat.succ_le_succ hnil
  | cons e z ih =>
    have hsub := h z
    have hdel := h (e :: z)
    rw [alignment_cons_cons, alignment_cons_cons]
    omega

theorem alignment_append_of_le (h : ∀ z, alignment a z ≤ alignment b z + 1)
    (before z : List Char) : alignment (before ++ a) z ≤ alignment (before ++ b) z + 1 := by
  induction before generalizing z with
  | nil => exact h z
  | cons c before ih => exact alignment_cons_of_le ih c z

/-- One edit makes a difference of at most one. -/
theorem Edit.alignment_le (h : Edit a b) (z : List Char) :
    alignment a z ≤ alignment b z + 1 := by
  cases h with
  | insert before after c => exact alignment_append_of_le (alignment_le_cons_left c after) before z
  | delete before after c => exact alignment_append_of_le (alignment_cons_left_le c after) before z
  | substitute before after c d =>
    exact alignment_append_of_le (alignment_substitute_le c d after) before z

theorem Edits.alignment_le (h : Edits n a b) : alignment a b ≤ n := by
  induction h with
  | refl a => exact (alignment_self a).le
  | head first rest ih => exact (first.alignment_le _).trans (Nat.succ_le_succ ih)

/-- An alignment is a shortest script. -/
theorem isLeast_alignment (a b : List Char) : IsLeast {n | Edits n a b} (alignment a b) :=
  ⟨edits_alignment a b, fun _ h => h.alignment_le⟩

end SnapshotIndex.Label
