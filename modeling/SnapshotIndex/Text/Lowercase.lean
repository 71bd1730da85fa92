import SnapshotIndex.Text.CaseTable

/-!
# Lower case

Lower-casing of a whole text by the Unicode rules.  Two capitals need more
than a table of single characters: the dotted capital I becomes two
characters, and the capital sigma has a form of its own at the end of a word.
-/

namespace SnapshotIndex.Text

/-- The lower case of a character by itself. -/
def lowercaseChar (c : Char) : List Char :=
  if c = '\u0130' then ['i', '\u0307']
  else match lowercaseRuns.find? (·.has c.toNat) with
    | some run => [Char.ofNat (run.apply c.toNat)]
    | none => [c]

/-- Whether a character is an upper-case, lower-case or title-case letter. -/
def isCased (c : Char) : Bool :=
  casedRanges.any fun (first, last) => first ≤ c.toNat && c.toNat ≤ last

/-- Whether a character is passed over in the search for a letter's
neighbours: marks, modifiers, apostrophes and the like. -/
def isCaseIgnorable (c : Char) : Bool :=
  caseIgnorableRanges.any fun (first, last) => first ≤ c.toNat && c.toNat ≤ last

/-- Whether the next character that is not passed over is a cased letter. -/
def meetsCased : List Char → Bool
  | [] => false
  | c :: rest => if isCaseIgnorable c then meetsCased rest else isCased c

/-- The lower case of a capital sigma between two pieces of text, of which the
first is given backwards: the final form stands where the last letter of a
word stands. -/
def lowercaseSigma (before after : List Char) : Char :=
  if meetsCased before && !meetsCased after then '\u03c2' else '\u03c3'

/-- The lower case of a text that follows another, which is given backwards. -/
def lowercaseAfter (before : List Char) : List Char → List Char
  | [] => []
  | c :: rest =>
    (if c = '\u03a3' then [lowercaseSigma before rest] else lowercaseChar c)
      ++ lowercaseAfter (c :: before) rest

def lowercase (text : List Char) : List Char := lowercaseAfter [] text

end SnapshotIndex.Text
