import SnapshotIndex.Proofs.Label.EditScripts

/-!
# The number of edits between two texts

`editDistance` keeps one row of numbers, which it writes anew for every character
of the first text.  An entry is made from three others, of which two are of the row
above and one has just been written.  What all of them are is said in terms of
alignments: after the characters `a`, the row holds the alignments of `a` with all
beginnings of the second text (`distances`).  As the row grows at its end and the
texts at theirs, while an alignment is computed from the front, everything treated
so far is written backwards here.

* `rowFrom_distances` and `nextRow_distances`: the step along a row, and the step to
  the next row.
* `editDistance_eq`: the last entry of the last row is the alignment of the texts
  read backwards, and it makes no difference to a shortest script in which
  direction the texts are read (`isLeast_editDistance`).
* `editDistance_levenshtein`: so the result is the length of a shortest script, and
  with that a metric between the bounds that the lengths of the texts give.
-/

namespace SnapshotIndex.Label

/-! ## Rows -/

/-- The alignments of `a` with `done` and with each longer beginning of the text that
goes on with `rest`.  The texts `a` and `done` are written backwards. -/
def distances (a done : List Char) : List Char → List Nat
  | [] => [alignment a done]
  | d :: rest => alignment a done :: distances a (d :: done) rest

variable {a b : List Char}

theorem distances_eq_cons (a done rest : List Char) :
    distances a done rest = alignment a done :: (distances a done rest).tail := by
  cases rest <;> rfl

/-- The first row holds the lengths of the beginnings. -/
theorem distances_nil (done rest : List Char) :
    distances [] done rest = List.range' done.length (rest.length + 1) := by
  induction rest generalizing done with
  | nil => rw [distances, alignment_nil_left, List.length_nil, List.range'_one]
  | cons d rest ih =>
    rw [distances, alignment_nil_left, ih]
    exact List.range'_succ.symm

theorem getLastD_distances (a done rest : List Char) (n : Nat) :
    (distances a done rest).getLastD n = alignment a (rest.reverse ++ done) := by
  induction rest generalizing done n with
  | nil => rfl
  | cons d rest ih =>
    rw [distances, List.getLastD_cons, ih, List.reverse_cons, List.append_assoc]
    rfl

/-- Along a row: whatever is left of the row above, with the entry just written,
leads to the rest of the row below. -/
theorem rowFrom_distances (c : Char) (a done rest : List Char) :
    rowFrom c rest (distances a done rest) (alignment (c :: a) done) =
      (distances (c :: a) done rest).tail := by
  induction rest generalizing done with
  | nil => rfl
  | cons d rest ih =>
    have hentry := alignment_cons_cons c d a done
    have habove := distances_eq_cons a (d :: done) rest
    calc rowFrom c (d :: rest) (distances a done (d :: rest)) (alignment (c :: a) done)
        = alignment (c :: a) (d :: done) ::
            rowFrom c rest (distances a (d :: done) rest) (alignment (c :: a) (d :: done)) := by
          rw [distances, habove, rowFrom, hentry]
      _ = alignment (c :: a) (d :: done) :: (distances (c :: a) (d :: done) rest).tail := by
          rw [ih]
      _ = (distances (c :: a) done (d :: rest)).tail :=
          (distances_eq_cons (c :: a) (d :: done) rest).symm

/-- From row to row. -/
theorem nextRow_distances (a b : List Char) (c : Char) :
    nextRow b (distances a [] b) c = distances (c :: a) [] b := by
  have hfirst : (distances a [] b).headD 0 + 1 = alignment (c :: a) [] := by
    rw [distances_eq_cons, List.headD_cons, alignment_nil_right, alignment_nil_right,
      List.length_cons]
  calc nextRow b (distances a [] b) c
      = alignment (c :: a) [] :: rowFrom c b (distances a [] b) (alignment (c :: a) []) := by
        rw [nextRow, hfirst]
    _ = alignment (c :: a) [] :: (distances (c :: a) [] b).tail := by
        rw [rowFrom_distances]
    _ = distances (c :: a) [] b := (distances_eq_cons (c :: a) [] b).symm

/-- Through all rows. -/
theorem foldl_nextRow (before a b : List Char) :
    a.foldl (nextRow b) (distances before [] b) = distances (a.reverse ++ before) [] b := by
  induction a generalizing before with
  | nil => rfl
  | cons c a ih =>
    rw [List.foldl_cons, nextRow_distances, ih, List.reverse_cons, List.append_assoc]
    rfl

/-! ## Distances -/

theorem editDistance_eq (a b : List Char) : editDistance a b = alignment a.reverse b.reverse := by
  have hstart : List.range (b.length + 1) = distances [] [] b := by
    rw [distances_nil, List.length_nil, List.range_eq_range']
  rw [editDistance, hstart, foldl_nextRow, getLastD_distances, List.append_nil, List.append_nil]

/-- No script is shorter, and one is of this length. -/
theorem isLeast_editDistance (a b : List Char) : IsLeast {n | Edits n a b} (editDistance a b) := by
  rw [editDistance_eq]
  obtain ⟨hscript, hleast⟩ := isLeast_alignment a.reverse b.reverse
  constructor
  · have hforward := hscript.reverse
    rw [List.reverse_reverse, List.reverse_reverse] at hforward
    exact hforward
  · intro n h
    exact hleast h.reverse

theorem editDistance_le_of_edits {n : Nat} (h : Edits n a b) : editDistance a b ≤ n :=
  (isLeast_editDistance a b).2 h

theorem edits_editDistance (a b : List Char) : Edits (editDistance a b) a b :=
  (isLeast_editDistance a b).1

theorem editDistance_eq_zero_iff : editDistance a b = 0 ↔ a = b := by
  constructor
  · intro hzero
    have hscript := edits_editDistance a b
    rw [hzero] at hscript
    exact hscript.eq_of_zero
  · rintro rfl
    exact Nat.le_zero.mp (editDistance_le_of_edits (.refl a))

theorem editDistance_comm (a b : List Char) : editDistance a b = editDistance b a :=
  Nat.le_antisymm (editDistance_le_of_edits (edits_editDistance b a).symm)
    (editDistance_le_of_edits (edits_editDistance a b).symm)

theorem editDistance_le_max (a b : List Char) : editDistance a b ≤ max a.length b.length := by
  rw [editDistance_eq, ← a.length_reverse, ← b.length_reverse]
  exact alignment_le_max _ _

theorem editDistance_triangle (a b c : List Char) :
    editDistance a c ≤ editDistance a b + editDistance b c :=
  editDistance_le_of_edits ((edits_editDistance a b).trans (edits_editDistance b c))

/-- The distance of two texts is the least number of insertions, deletions and
substitutions of one character that turn the one into the other.  It is zero for
equal texts only, symmetric, at most the greater of the lengths and at least their
difference, and to go by a third text is no shorter. -/
theorem editDistance_levenshtein (a b : List Char) :
    IsLeast {n | Edits n a b} (editDistance a b) ∧
      (editDistance a b = 0 ↔ a = b) ∧
      editDistance a b = editDistance b a ∧
      editDistance a b ≤ max a.length b.length ∧
      max a.length b.length - min a.length b.length ≤ editDistance a b ∧
      ∀ c, editDistance a c ≤ editDistance a b + editDistance b c := by
  have hlengths : max a.length b.length - min a.length b.length ≤ editDistance a b := by
    have hup := (edits_editDistance a b).length_le
    have hdown := (edits_editDistance a b).symm.length_le
    omega
  exact ⟨isLeast_editDistance a b, editDistance_eq_zero_iff, editDistance_comm a b,
    editDistance_le_max a b, hlengths, editDistance_triangle a b⟩

example : editDistance "kitten".toList "sitting".toList = 3 := by decide

end SnapshotIndex.Label
