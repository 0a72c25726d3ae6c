import CodeAtlas.Json.Basic

/-!
# Reading documents

`Json.parse?` reads a text that holds one document and white space around it; `Json.read?` does the
same but keeps the members of objects as they are written, in their order and with repeated keys.
Arrays and objects may be nested in each other at most `maxNesting` deep. `readValue?` reads a
document in front of a text, with `fuel` for every character and `room` for the nesting that is
left.
-/

namespace CodeAtlas.Json

/-- Whether a character may stand between the parts of a document. -/
def isSpace (c : Char) : Bool := c == ' ' || c == '\n' || c == '\t' || c == '\r'

/-- The text without white space in front. -/
def skipSpace (text : List Char) : List Char := text.dropWhile isSpace

/-- The value of a hexadecimal digit. -/
def hexDigitValue? (c : Char) : Option Nat :=
  if c.isDigit then some (c.toNat - 48)
  else if 'a' ≤ c && c ≤ 'f' then some (c.toNat - 87)
  else if 'A' ≤ c && c ≤ 'F' then some (c.toNat - 55)
  else none

/-- The number of four hexadecimal digits. -/
def hex4? (a b c d : Char) : Option Nat := do
  let a ← hexDigitValue? a
  let b ← hexDigitValue? b
  let c ← hexDigitValue? c
  let d ← hexDigitValue? d
  return ((a * 16 + b) * 16 + c) * 16 + d

/-- The character that stands for itself behind a backslash, or that a letter there stands for. -/
def escapeOf? (c : Char) : Option Char :=
  match c with
  | '"' => some '"'
  | '\\' => some '\\'
  | '/' => some '/'
  | 'b' => some '\x08'
  | 'f' => some '\x0c'
  | 'n' => some '\n'
  | 'r' => some '\r'
  | 't' => some '\t'
  | _ => none

/-- Reads a string behind its first quote, onto the characters `read`, which are in reverse. A code
point above `0xFFFF` is escaped as a pair of surrogates, and no surrogate stands alone. -/
def readString? (read : List Char) : List Char → Option (String × List Char)
  | [] => none
  | '"' :: text => some (String.ofList read.reverse, text)
  | '\\' :: 'u' :: a :: b :: c :: d :: text =>
      match hex4? a b c d with
      | none => none
      | some n =>
          if 0xDC00 ≤ n && n < 0xE000 then none
          else if 0xD800 ≤ n && n < 0xDC00 then
            match text with
            | '\\' :: 'u' :: a :: b :: c :: d :: text =>
                match hex4? a b c d with
                | none => none
                | some m =>
                    if 0xDC00 ≤ m && m < 0xE000 then
                      readString?
                        (Char.ofNat (0x10000 + (n - 0xD800) * 0x400 + (m - 0xDC00)) :: read) text
                    else none
            | _ => none
          else readString? (Char.ofNat n :: read) text
  | '\\' :: c :: text =>
      match escapeOf? c with
      | some c => readString? (c :: read) text
      | none => none
  | c :: text => if c.toNat < 32 || c == '\\' then none else readString? (c :: read) text

/-- Reads a key with its colon. -/
def readKey? (text : List Char) : Option (String × List Char) :=
  match skipSpace text with
  | '"' :: text =>
      match readString? [] text with
      | some (key, text) =>
          match skipSpace text with
          | ':' :: text => some (key, text)
          | _ => none
      | none => none
  | _ => none

mutual

/-- Reads a document in front of a text, and returns the text behind it. -/
def readValue? : (fuel room : Nat) → List Char → Option (Json × List Char)
  | 0, _, _ => none
  | fuel + 1, room, text =>
      match skipSpace text with
      | 'n' :: 'u' :: 'l' :: 'l' :: text => some (.null, text)
      | 't' :: 'r' :: 'u' :: 'e' :: text => some (.bool true, text)
      | 'f' :: 'a' :: 'l' :: 's' :: 'e' :: text => some (.bool false, text)
      | '"' :: text => (readString? [] text).map fun (s, text) => (.str s, text)
      | '[' :: text =>
          match room with
          | 0 => none
          | room + 1 =>
              match skipSpace text with
              | ']' :: text => some (.arr [], text)
              | text => readItems? fuel room [] text
      | '\x7b' :: text =>
          match room with
          | 0 => none
          | room + 1 =>
              match skipSpace text with
              | '\x7d' :: text => some (.obj [], text)
              | text => readMembers? fuel room [] text
      | text => (readNumber? text).map fun (n, text) => (.num n, text)

/-- Reads the items of an array up to its bracket, behind the items `read`, in reverse. -/
def readItems? : (fuel room : Nat) → (read : List Json) → List Char → Option (Json × List Char)
  | 0, _, _, _ => none
  | fuel + 1, room, read, text =>
      match readValue? fuel room text with
      | none => none
      | some (item, text) =>
          match skipSpace text with
          | ',' :: text => readItems? fuel room (item :: read) text
          | ']' :: text => some (.arr (item :: read).reverse, text)
          | _ => none

/-- Reads the members of an object up to its brace, behind the members `read`, in reverse. -/
def readMembers? : (fuel room : Nat) → (read : List (String × Json)) → List Char →
    Option (Json × List Char)
  | 0, _, _, _ => none
  | fuel + 1, room, read, text =>
      match readKey? text with
      | none => none
      | some (key, text) =>
          match readValue? fuel room text with
          | none => none
          | some (value, text) =>
              match skipSpace text with
              | ',' :: text => readMembers? fuel room ((key, value) :: read) text
              | '\x7d' :: text => some (.obj ((key, value) :: read).reverse, text)
              | _ => none

end

/-- How deep arrays and objects may be nested. -/
def maxNesting : Nat := 127

/-- The document that a text holds, with the members of objects as they are written. -/
def readChars? (text : List Char) : Option Json :=
  match readValue? (2 * text.length + 2) maxNesting text with
  | some (j, rest) => if (skipSpace rest).isEmpty then some j else none
  | none => none

/-- The document that a text holds. -/
def parseChars? (text : List Char) : Option Json := (readChars? text).map sorted

/-- The document that a string holds, with the members of objects as they are written. -/
def read? (s : String) : Option Json := readChars? s.toList

/-- The document that a string holds. -/
def parse? (s : String) : Option Json := parseChars? s.toList

end CodeAtlas.Json
