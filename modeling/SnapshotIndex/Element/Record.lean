import SnapshotIndex.Element.KeyOrder

/-!
# Records

A record is an element with a number and a text to sort by.  `RecordOrder`
names the key orders on records, from the one without keys to one that sorts
spans of text by where they begin and, from one beginning, the longer first.
-/

namespace SnapshotIndex

/-- An element with a sort key and a text. -/
structure Record where
  id : Ident
  key : Int := 0
  tag : Tag := ⟨1⟩
  text : String := ""
deriving DecidableEq

instance : Identified Record where
  ident r := r.id
  tag r := r.tag

/-- The key orders on records. -/
inductive RecordOrder
  /-- No keys. -/
  | ident
  /-- By key, the smaller first. -/
  | key
  /-- By key, the greater first. -/
  | keyDescending
  /-- By tens: keys that agree after division by ten, rounded down, are equal. -/
  | bucket
  /-- By tag. -/
  | tag
  /-- By text, code point by code point. -/
  | text
  /-- By key, and from one key the text of more UTF-8 bytes first. -/
  | span
deriving DecidableEq

/-- The key order that a name stands for. -/
def RecordOrder.keyOrder : RecordOrder → KeyOrder Record
  | .ident => .byIdent
  | .key => .on Record.key
  | .keyDescending => ⟨fun a b => compare b.key a.key⟩
  | .bucket => .on fun r => r.key / 10
  | .tag => ⟨fun a b => a.tag.order b.tag⟩
  | .text => .on Record.text
  | .span => ⟨fun a b =>
      (compare a.key b.key).then (compare b.text.utf8ByteSize a.text.utf8ByteSize)⟩

end SnapshotIndex
