import SnapshotIndex.Element.Identified
import SnapshotIndex.Text.Json

/-!
# Identities, tags and handles as JSON text

Identities and tags are written as bare numbers, and a handle as an object
with a member for each.  A handle is also read from an array of the two, and
from an object that has further members, which are passed over.  Numbers that
do not fit, members given twice and members left out are refused, and so is
anything but blanks after the value.
-/

namespace SnapshotIndex

namespace Ident

def toJson (i : Ident) : String := i.digits

def read? (cs : List Char) : Option (Ident × List Char) :=
  (Text.Json.natural? (Text.Json.skipBlanks cs)).bind fun (n, rest) =>
    if n < UInt64.size then some (⟨UInt64.ofNat n⟩, rest) else none

end Ident

namespace Tag

def toJson (t : Tag) : String := t.digits

def read? (cs : List Char) : Option (Tag × List Char) :=
  (Text.Json.natural? (Text.Json.skipBlanks cs)).bind fun (n, rest) =>
    if n < UInt32.size then some (⟨UInt32.ofNat n⟩, rest) else none

end Tag

namespace Handle

open Text.Json

def toJson (h : Handle) : String :=
  "\x7b\"id\":" ++ h.id.toJson ++ ",\"type_code\":" ++ h.tag.toJson ++ "\x7d"

/-- The members of a handle that have been read so far. -/
structure Members where
  id? : Option Ident := none
  tag? : Option Tag := none

/-- Adds the value of a member that stands next in the text.  A member that is
there already is refused, and one of an unknown name is passed over. -/
def Members.readValue? (m : Members) (name : List Char) (cs : List Char) :
    Option (Members × List Char) :=
  if name = "id".toList then
    if m.id?.isSome then none
    else (Ident.read? cs).map fun (id, rest) => ({ m with id? := some id }, rest)
  else if name = "type_code".toList then
    if m.tag?.isSome then none
    else (Tag.read? cs).map fun (tag, rest) => ({ m with tag? := some tag }, rest)
  else (skipValue? cs).map fun rest => (m, rest)

/-- Reads the members of an object up to its closing brace, at most `fuel` of
them. -/
def readMembers? : (fuel : Nat) → Members → List Char → Option (Members × List Char)
  | 0, _, _ => none
  | fuel + 1, m, cs => do
    let (name, rest) ← (expect? '"' cs).bind string?
    let (m, rest) ← (expect? ':' rest).bind (m.readValue? name)
    match skipBlanks rest with
    | ',' :: rest => readMembers? fuel m rest
    | '\x7d' :: rest => some (m, rest)
    | _ => none

def read? (cs : List Char) : Option (Handle × List Char) :=
  match skipBlanks cs with
  | '[' :: rest => do
    let (id, rest) ← Ident.read? rest
    let (tag, rest) ← (expect? ',' rest).bind Tag.read?
    let rest ← expect? ']' rest
    some (⟨id, tag⟩, rest)
  | '\x7b' :: rest => do
    let (m, rest) ← readMembers? (rest.length + 1) {} rest
    some (⟨← m.id?, ← m.tag?⟩, rest)
  | _ => none

end Handle

/-- Reads a whole text by a reader, which must leave nothing but blanks. -/
def Text.Json.readAll? {α : Type} (read? : List Char → Option (α × List Char)) (text : String) :
    Option α :=
  (read? text.toList).bind fun (a, rest) =>
    if (skipBlanks rest).isEmpty then some a else none

namespace Ident

def ofJson? (text : String) : Option Ident := Text.Json.readAll? read? text

end Ident

namespace Tag

def ofJson? (text : String) : Option Tag := Text.Json.readAll? read? text

end Tag

namespace Handle

def ofJson? (text : String) : Option Handle := Text.Json.readAll? read? text

end Handle

end SnapshotIndex
