/-!
# Reading JSON text

What is needed of the JSON grammar to read values of a known shape: blanks,
numbers without sign and fraction, strings, and how to pass over a value of
any shape.  Each reader takes the text that is left and gives back the text
that is left after it.
-/

namespace SnapshotIndex.Text.Json

/-- The characters that may stand between tokens. -/
def isBlank (c : Char) : Bool := c == ' ' || c == '\t' || c == '\n' || c == '\r'

/-- Passes over blanks. -/
def skipBlanks (cs : List Char) : List Char := cs.dropWhile isBlank

/-- Passes over blanks and then over one given character. -/
def expect? (c : Char) (cs : List Char) : Option (List Char) :=
  match skipBlanks cs with
  | d :: rest => if d = c then some rest else none
  | [] => none

/-! ## Numbers -/

/-- The value of a run of decimal digits. -/
def digitsValue (ds : List Char) : Nat := ds.foldl (fun n d => 10 * n + (d.toNat - 48)) 0

/-- Reads the digits of a number, of which only zero itself begins with
zero. -/
def digits? (cs : List Char) : Option (List Char × List Char) :=
  match cs with
  | '0' :: rest => some (['0'], rest)
  | _ =>
    let ds := cs.takeWhile Char.isDigit
    if ds.isEmpty then none else some (ds, cs.dropWhile Char.isDigit)

/-- Reads a number that is written with digits alone. -/
def natural? (cs : List Char) : Option (Nat × List Char) :=
  (digits? cs).map fun (ds, rest) => (digitsValue ds, rest)

/-- Passes over at least one digit. -/
def skipDigits? (cs : List Char) : Option (List Char) :=
  if (cs.takeWhile Char.isDigit).isEmpty then none else some (cs.dropWhile Char.isDigit)

/-- Passes over the fraction of a number, if there is one. -/
def skipFraction? (cs : List Char) : Option (List Char) :=
  match cs with
  | '.' :: rest => skipDigits? rest
  | _ => some cs

/-- Passes over the sign of an exponent, if there is one. -/
def skipSign (cs : List Char) : List Char :=
  match cs with
  | '+' :: rest => rest
  | '-' :: rest => rest
  | _ => cs

/-- Passes over the exponent of a number, if there is one. -/
def skipExponent? (cs : List Char) : Option (List Char) :=
  match cs with
  | 'e' :: rest => skipDigits? (skipSign rest)
  | 'E' :: rest => skipDigits? (skipSign rest)
  | _ => some cs

/-- Passes over a number from its first digit on.  A digit after a leading
zero belongs to nothing. -/
def skipUnsigned? (cs : List Char) : Option (List Char) :=
  (digits? cs).bind fun (ds, rest) =>
    if ds = ['0'] && rest.head?.any Char.isDigit then none
    else (skipFraction? rest).bind skipExponent?

/-! ## Strings -/

/-- The value of a hexadecimal digit. -/
def hexDigit? (c : Char) : Option Nat :=
  if '0' ≤ c ∧ c ≤ '9' then some (c.toNat - 48)
  else if 'a' ≤ c ∧ c ≤ 'f' then some (c.toNat - 87)
  else if 'A' ≤ c ∧ c ≤ 'F' then some (c.toNat - 55)
  else none

/-- Reads four hexadecimal digits. -/
def hex4? : List Char → Option (Nat × List Char)
  | a :: b :: c :: d :: rest => do
    let a ← hexDigit? a
    let b ← hexDigit? b
    let c ← hexDigit? c
    let d ← hexDigit? d
    some (((a * 16 + b) * 16 + c) * 16 + d, rest)
  | _ => none

/-- The character that a one-letter escape stands for. -/
def shortEscape? : Char → Option Char
  | '"' => some '"'
  | '\\' => some '\\'
  | '/' => some '/'
  | 'b' => some '\x08'
  | 'f' => some '\x0c'
  | 'n' => some '\n'
  | 'r' => some '\r'
  | 't' => some '\t'
  | _ => none

/-- Reads the code point of a numeric escape.  The two halves of a surrogate
pair make one code point, and a half alone is refused. -/
def codePoint? (cs : List Char) : Option (Char × List Char) :=
  (hex4? cs).bind fun (high, rest) =>
    if 0xd800 ≤ high ∧ high < 0xdc00 then
      match rest with
      | '\\' :: 'u' :: rest =>
        (hex4? rest).bind fun (low, rest) =>
          if 0xdc00 ≤ low ∧ low < 0xe000 then
            some (Char.ofNat (0x10000 + (high - 0xd800) * 0x400 + (low - 0xdc00)), rest)
          else none
      | _ => none
    else if 0xdc00 ≤ high ∧ high < 0xe000 then none
    else some (Char.ofNat high, rest)

/-- Reads the characters of a string up to its closing quote, in at most
`fuel` steps. -/
def stringWithin? : (fuel : Nat) → List Char → Option (List Char × List Char)
  | 0, _ => none
  | fuel + 1, cs =>
    match cs with
    | [] => none
    | '"' :: rest => some ([], rest)
    | '\\' :: 'u' :: rest => do
      let (c, rest) ← codePoint? rest
      let (text, rest) ← stringWithin? fuel rest
      some (c :: text, rest)
    | '\\' :: c :: rest => do
      let c ← shortEscape? c
      let (text, rest) ← stringWithin? fuel rest
      some (c :: text, rest)
    | c :: rest =>
      if c.toNat < 32 || c == '\\' then none
      else do
        let (text, rest) ← stringWithin? fuel rest
        some (c :: text, rest)

/-- Reads a string after its opening quote. -/
def string? (cs : List Char) : Option (List Char × List Char) := stringWithin? (cs.length + 1) cs

/-- Passes over a string after its opening quote, in at most `fuel` steps.
Numeric escapes need four digits but may stand for half a pair. -/
def skipStringWithin? : (fuel : Nat) → List Char → Option (List Char)
  | 0, _ => none
  | fuel + 1, cs =>
    match cs with
    | [] => none
    | '"' :: rest => some rest
    | '\\' :: 'u' :: rest => (hex4? rest).bind fun (_, rest) => skipStringWithin? fuel rest
    | '\\' :: c :: rest => (shortEscape? c).bind fun _ => skipStringWithin? fuel rest
    | c :: rest =>
      if c.toNat < 32 || c == '\\' then none else skipStringWithin? fuel rest

/-- Passes over a string after its opening quote. -/
def skipString? (cs : List Char) : Option (List Char) := skipStringWithin? (cs.length + 1) cs

/-! ## Values of any shape -/

/-- What encloses the present value. -/
inductive Frame
  | array
  | object

/-- What has to come next. -/
inductive Expected
  /-- A value. -/
  | value
  /-- The key of a member. -/
  | key
  /-- What may follow a value. -/
  | afterValue

/-- Passes over given characters. -/
def skipWord? : (word cs : List Char) → Option (List Char)
  | [], cs => some cs
  | c :: word, d :: cs => if c = d then skipWord? word cs else none
  | _ :: _, [] => none

/-- Passes over a value that is neither an array nor an object. -/
def skipScalar? : List Char → Option (List Char)
  | '"' :: rest => skipString? rest
  | '-' :: rest => skipUnsigned? rest
  | 'n' :: rest => skipWord? ['u', 'l', 'l'] rest
  | 't' :: rest => skipWord? ['r', 'u', 'e'] rest
  | 'f' :: rest => skipWord? ['a', 'l', 's', 'e'] rest
  | cs => skipUnsigned? cs

/-- Passes over what is left of a value inside the given frames, the innermost
first, in at most `fuel` steps. -/
def skipWithin? : (fuel : Nat) → Expected → List Frame → List Char → Option (List Char)
  | 0, _, _, _ => none
  | fuel + 1, .value, frames, cs =>
    match skipBlanks cs with
    | '[' :: rest =>
      match skipBlanks rest with
      | ']' :: rest => skipWithin? fuel .afterValue frames rest
      | _ => skipWithin? fuel .value (.array :: frames) rest
    | '\x7b' :: rest =>
      match skipBlanks rest with
      | '\x7d' :: rest => skipWithin? fuel .afterValue frames rest
      | _ => skipWithin? fuel .key (.object :: frames) rest
    | cs => (skipScalar? cs).bind (skipWithin? fuel .afterValue frames)
  | fuel + 1, .key, frames, cs =>
    (expect? '"' cs).bind skipString? |>.bind (expect? ':') |>.bind
      (skipWithin? fuel .value frames)
  | fuel + 1, .afterValue, frames, cs =>
    match frames with
    | [] => some cs
    | .array :: outer =>
      match skipBlanks cs with
      | ',' :: rest => skipWithin? fuel .value frames rest
      | ']' :: rest => skipWithin? fuel .afterValue outer rest
      | _ => none
    | .object :: outer =>
      match skipBlanks cs with
      | ',' :: rest => skipWithin? fuel .key frames rest
      | '\x7d' :: rest => skipWithin? fuel .afterValue outer rest
      | _ => none

/-- Passes over one value.  Each value and each bracket takes up at least one
character, so two steps for each character are enough. -/
def skipValue? (cs : List Char) : Option (List Char) :=
  skipWithin? (2 * cs.length + 2) .value [] cs

end SnapshotIndex.Text.Json
