/-!
# Faults

The mistakes of a caller that an index, a cursor, a range view or a catalog
reports, and the message for each.
-/

namespace SnapshotIndex

/-- What an unknown label's message adds when some label is close to it. -/
def suggestionHint : Option String → String
  | none => ""
  | some label => " (did you mean '" ++ label ++ "'?)"

/-- Why an operation was refused. -/
inductive Fault
  /-- The operation means nothing in the present state. -/
  | precondition (reason : String)
  /-- The operation means nothing for this kind of index. -/
  | unsupported (operation : String)
  /-- An element lies outside the bounds of a range view. -/
  | keyOutOfRange
  /-- A lower bound comes after the upper bound. -/
  | invalidRange
  /-- An index of this label exists already. -/
  | duplicateIndex (label : String)
  /-- There is no index of this label; perhaps another one was meant. -/
  | unknownIndex (label : String) (suggestion : Option String)
deriving DecidableEq

def Fault.message : Fault → String
  | .precondition reason => "precondition violated: " ++ reason
  | .unsupported operation => "unsupported operation: " ++ operation
  | .keyOutOfRange => "key out of range for this view"
  | .invalidRange => "invalid range: lower bound is greater than upper bound"
  | .duplicateIndex label => "index '" ++ label ++ "' is already defined"
  | .unknownIndex label suggestion =>
    "unknown index '" ++ label ++ "'" ++ suggestionHint suggestion

end SnapshotIndex
