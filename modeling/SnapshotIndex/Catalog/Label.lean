import SnapshotIndex.Text.Lowercase

/-!
# Labels

When a label is not known, the closest known one may be the one that was
meant.  Labels are compared in lower case by the number of edits, that is
insertions, deletions and substitutions of one character, that lead from one
to the other; and a suggestion is made only if few enough edits suffice.
-/

namespace SnapshotIndex.Label

/-- The rest of a row of the table of distances.  `left` is the entry just
before, and `row` is the row above, from the column of that entry on. -/
def rowFrom (c : Char) : (other : List Char) → (row : List Nat) → (left : Nat) → List Nat
  | d :: other, diagonal :: above :: row, left =>
    let entry := min (diagonal + if c = d then 0 else 1) (min (above + 1) (left + 1))
    entry :: rowFrom c other (above :: row) entry
  | _, _, _ => []

/-- The row of distances after one more character: the entry in column `j` is
the distance to the first `j` characters of the other text. -/
def nextRow (other : List Char) (row : List Nat) (c : Char) : List Nat :=
  let first := row.headD 0 + 1
  first :: rowFrom c other row first

/-- The least number of edits that turn one text into another. -/
def editDistance (a b : List Char) : Nat :=
  (a.foldl (nextRow b) (List.range (b.length + 1))).getLastD 0

/-- How many edits a label of a length may be off. -/
def editBudget (length : Nat) : Nat := if length ≤ 3 then 1 else if length ≤ 5 then 2 else 3

/-- The first of the elements with the least cost. -/
def leastBy {α : Type} (cost : α → Nat) : List α → Option α
  | [] => none
  | a :: rest =>
    match leastBy cost rest with
    | none => some a
    | some b => if cost a ≤ cost b then some a else some b

/-- The number of edits between two labels in lower case. -/
def distance (query label : String) : Nat :=
  editDistance (Text.lowercase query.toList) (Text.lowercase label.toList)

/-- The label closest to the one asked for, if it is close enough; of several
equally close ones the first. -/
def closest? (query : String) (labels : List String) : Option String :=
  leastBy (distance query) (labels.filter fun l => distance query l ≤ editBudget query.length)

end SnapshotIndex.Label
