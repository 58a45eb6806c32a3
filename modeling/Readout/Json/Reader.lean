import Readout.Json.Numeral

/-!
# Reading JSON

`Json.readFirst` reads the first value of a text and hands back what stands behind it. Arrays and
objects may be nested 127 deep.
-/

namespace Readout.Json

/-- A reader takes a value off the front of a text, or refuses the text. -/
abbrev Reader (β : Type) := List Char → Option (β × List Char)

/-- The deepest nesting of arrays and objects. -/
def maxDepth : Nat := 127

/-- The four characters that may stand between the parts of a document. -/
def isBlank (c : Char) : Bool := c = ' ' || c = '\t' || c = '\n' || c = '\r'

/-- What stands behind leading blanks. -/
def skipBlanks (s : List Char) : List Char := s.dropWhile isBlank

/-- The value of a hexadecimal digit. -/
def hexDigit? (c : Char) : Option Nat :=
  if c.isDigit then some (c.toNat - '0'.toNat)
  else if 'a' ≤ c ∧ c ≤ 'f' then some (c.toNat - 'a'.toNat + 10)
  else if 'A' ≤ c ∧ c ≤ 'F' then some (c.toNat - 'A'.toNat + 10)
  else none

/-- Reads four hexadecimal digits. -/
def readUnit : Reader Nat
  | a :: b :: c :: d :: rest => do
    let a ← hexDigit? a
    let b ← hexDigit? b
    let c ← hexDigit? c
    let d ← hexDigit? d
    some (((a * 16 + b) * 16 + c) * 16 + d, rest)
  | _ => none

/-- Reads what follows `\u`: a character outside the surrogates, or both halves of a pair. -/
def readUnicode (s : List Char) : Option (Char × List Char) := do
  let (unit, rest) ← readUnit s
  if 0xDC00 ≤ unit ∧ unit ≤ 0xDFFF then none
  else if 0xD800 ≤ unit ∧ unit ≤ 0xDBFF then
    match rest with
    | '\\' :: 'u' :: rest => do
      let (second, rest) ← readUnit rest
      if 0xDC00 ≤ second ∧ second ≤ 0xDFFF then
        some (Char.ofNat (0x10000 + (unit - 0xD800) * 0x400 + (second - 0xDC00)), rest)
      else none
    | _ => none
  else some (Char.ofNat unit, rest)

/-- Reads what follows a backslash. -/
def readEscape : Reader Char
  | [] => none
  | c :: rest =>
    if c = '"' ∨ c = '\\' ∨ c = '/' then some (c, rest)
    else if c = 'b' then some ('\x08', rest)
    else if c = 'f' then some ('\x0c', rest)
    else if c = 'n' then some ('\n', rest)
    else if c = 'r' then some ('\r', rest)
    else if c = 't' then some ('\t', rest)
    else if c = 'u' then readUnicode rest
    else none

/-- Reads characters up to the closing quote, at most `fuel` of them. -/
def readChars : (fuel : Nat) → Reader (List Char)
  | 0, _ => none
  | _ + 1, [] => none
  | fuel + 1, c :: rest =>
    if c = '"' then some ([], rest)
    else if c.toNat < 0x20 then none
    else do
      let (c, rest) ← if c = '\\' then readEscape rest else some (c, rest)
      let (cs, rest) ← readChars fuel rest
      some (c :: cs, rest)

/-- Reads a string from its opening quote on. -/
def readString : Reader String
  | '"' :: rest => (readChars (rest.length + 1) rest).map fun (cs, rest) => (String.ofList cs, rest)
  | _ => none

/-- Reads items with commas between them up to a closing bracket, at most `fuel` of them. -/
def readItems {β : Type} (item : Reader β) (closing : Char) : (fuel : Nat) → Reader (List β)
  | 0, _ => none
  | fuel + 1, s => do
    let (value, rest) ← item (skipBlanks s)
    match skipBlanks rest with
    | [] => none
    | c :: rest =>
      if c = closing then some ([value], rest)
      else if c = ',' then do
        let (values, rest) ← readItems item closing fuel rest
        some (value :: values, rest)
      else none

/-- Reads what stands behind an opening bracket. -/
def readBracketed {β : Type} (item : Reader β) (closing : Char) (s : List Char) :
    Option (List β × List Char) :=
  match skipBlanks s with
  | [] => none
  | c :: rest =>
    if c = closing then some ([], rest) else readItems item closing (rest.length + 1) (c :: rest)

/-- Reads the name and the value of a member. -/
def readMember (value : Reader Json) : Reader (String × Json) := fun s => do
  let (name, rest) ← readString s
  match skipBlanks rest with
  | ':' :: rest => do
    let (member, rest) ← value (skipBlanks rest)
    some ((name, member), rest)
  | _ => none

/-- Reads a word that stands for a value. -/
def readLiteral (word : String) (value : Json) : Reader Json := fun s =>
  if word.toList.isPrefixOf s then some (value, s.drop word.length) else none

/-- Reads a value that is neither an array nor an object. -/
def readScalar (s : List Char) : Option (Json × List Char) :=
  match s with
  | 'n' :: _ => readLiteral "null" .null s
  | 't' :: _ => readLiteral "true" (.bool true) s
  | 'f' :: _ => readLiteral "false" (.bool false) s
  | '"' :: _ => (readString s).map fun (value, rest) => (.text value, rest)
  | _ => do
    let (numeral, rest) ← readNumeral s
    let value ← numeral.toJson?
    some (value, rest)

/-- Reads a value in which arrays and objects are nested at most `depth` deep. -/
def readValue : (depth : Nat) → Reader Json
  | 0, s =>
    match s with
    | '[' :: _ => none
    | '\x7b' :: _ => none
    | s => readScalar s
  | depth + 1, s =>
    match s with
    | '[' :: rest =>
      (readBracketed (readValue depth) ']' rest).map fun (items, rest) => (.array items, rest)
    | '\x7b' :: rest =>
      (readBracketed (readMember (readValue depth)) '\x7d' rest).map fun (members, rest) =>
        (.object members, rest)
    | s => readScalar s

/-- The first value of a text and what stands behind it. -/
def readFirst (text : String) : Option (Json × List Char) :=
  readValue maxDepth (skipBlanks text.toList)

end Readout.Json
