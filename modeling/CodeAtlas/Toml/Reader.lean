import CodeAtlas.Toml.Outline
import CodeAtlas.Toml.Quoted
import CodeAtlas.Toml.Scalar

/-!
# Reading configuration documents

A document is read line by line: headers, keys with values, and comments. Arrays and tables in
braces nest less than 80 levels deep, and a key has less than 80 names. Loops take `fuel`, twice the
characters of the document and more.
-/

namespace CodeAtlas.Toml

/-- The number of levels and of names in a key that are too many. -/
def depthLimit : Nat := 80

/-- The text behind a comment, if there is one. -/
def skipComment (text : List Char) : List Char :=
  match text with
  | '#' :: rest => rest.dropWhile isPlain
  | _ => text

/-- The text behind the end of the line; the end of the text is one. -/
def lineEnd? (text : List Char) : Option (List Char) :=
  match skipComment (skipSpace text) with
  | [] => some []
  | '\n' :: rest => some rest
  | '\r' :: '\n' :: rest => some rest
  | _ => none

/-- The text without blanks, line ends and comments in front. -/
def skipLines (inComment : Bool) : List Char → List Char
  | [] => []
  | c :: rest =>
      if inComment && isPlain c then skipLines true rest
      else if isSpace c || c == '\n' || (c == '\r' && rest.head? == some '\n') then
        skipLines false rest
      else if c == '#' then skipLines true rest
      else c :: rest

/-! ## Keys -/

/-- Whether a character may stand in a key without quotes. -/
def isKeyChar (c : Char) : Bool := c.isAlphanum || c == '_' || c == '-'

/-- Reads one name of a key. -/
def keyPart? (fuel : Nat) (text : List Char) : Option (String × List Char) :=
  match text with
  | '"' :: rest => basicString? fuel [] rest
  | '\'' :: rest => literalString? rest
  | _ =>
      let (name, rest) := text.span isKeyChar
      if name.isEmpty then none else some (String.ofList name, rest)

/-- Reads a key of at most `most` names with points between them. -/
def keyOf? (fuel : Nat) : (most : Nat) → List Char → Option (List String × List Char)
  | 0, _ => none
  | most + 1, text => do
    let (name, rest) ← keyPart? fuel (skipSpace text)
    match skipSpace rest with
    | '.' :: rest => do
      let (names, rest) ← keyOf? fuel most rest
      some (name :: names, rest)
    | rest => some ([name], rest)

/-- Reads a key. -/
def key? (fuel : Nat) (text : List Char) : Option (List String × List Char) :=
  keyOf? fuel (depthLimit - 1) text

/-! ## Values -/

mutual

/-- Reads a value in which brackets and braces may nest `depth` levels deep. -/
def value? : (fuel depth : Nat) → List Char → Option (Toml × List Char)
  | 0, _, _ => none
  | fuel + 1, depth, text =>
      match text with
      | '"' :: rest => (string? '"' fuel rest).map fun (s, rest) => (.str s, rest)
      | '\'' :: rest => (string? '\'' fuel rest).map fun (s, rest) => (.str s, rest)
      | '[' :: rest => if depth == 0 then none else items? fuel (depth - 1) [] rest
      | '\x7b' :: rest =>
          if depth == 0 then none
          else
            match skipSpace rest with
            | '\x7d' :: rest => some (.table .inline [], rest)
            | rest => members? fuel (depth - 1) [] rest
      | _ => scalar? text

/-- Reads the items of an array up to its bracket, behind the items `read`, in reverse. -/
def items? : (fuel depth : Nat) → List Toml → List Char → Option (Toml × List Char)
  | 0, _, _, _ => none
  | fuel + 1, depth, read, text =>
      match skipLines false text with
      | ']' :: rest => some (.arr read.reverse, rest)
      | text =>
          match value? fuel depth text with
          | none => none
          | some (item, rest) =>
              match skipLines false rest with
              | ',' :: rest => items? fuel depth (item :: read) rest
              | ']' :: rest => some (.arr (item :: read).reverse, rest)
              | _ => none

/-- Reads the members of a table in braces up to its brace, behind those read. -/
def members? : (fuel depth : Nat) → Members → List Char → Option (Toml × List Char)
  | 0, _, _, _ => none
  | fuel + 1, depth, read, text =>
      match key? fuel text with
      | some (path, '=' :: rest) =>
          match value? fuel depth (skipSpace rest) with
          | none => none
          | some (value, rest) =>
              match addValue path value .inline read with
              | none => none
              | some read =>
                  match skipSpace rest with
                  | ',' :: rest => members? fuel depth read rest
                  | '\x7d' :: rest => some (.table .inline read, rest)
                  | _ => none
      | _ => none

end

/-! ## Lines -/

/-- Reads a header behind its brackets: its path and the text behind the line. -/
def header? (fuel : Nat) (closing text : List Char) : Option (List String × List Char) := do
  let (path, rest) ← key? fuel text
  let rest ← Text.after? closing rest
  let rest ← lineEnd? rest
  some (path, rest)

/-- Reads the next header or value. -/
def line? (fuel : Nat) (o : Outline) (text : List Char) : Option (Outline × List Char) := do
  match text with
  | '[' :: '[' :: rest => do
    let (path, rest) ← header? fuel [']', ']'] rest
    some (← o.next? path, rest)
  | '[' :: rest => do
    let (path, rest) ← header? fuel [']'] rest
    some (← o.table? path, rest)
  | _ =>
      match ← key? fuel text with
      | (path, '=' :: rest) => do
        let (value, rest) ← value? fuel (depthLimit - 1) (skipSpace rest)
        let rest ← lineEnd? rest
        some (← o.add? path value, rest)
      | _ => none

/-- Reads all lines, of which there are at most `lines`. -/
def lines? (fuel : Nat) : (lines : Nat) → Outline → List Char → Option Members
  | lines, o, text =>
      match skipLines false text with
      | [] => o.joined?
      | text =>
          match lines with
          | 0 => none
          | lines + 1 =>
              match line? fuel o text with
              | some (o, rest) => lines? fuel lines o rest
              | none => none

/-- The document that a text holds. -/
def parse? (text : List Char) : Option Toml := do
  let text := match text with
    | c :: rest => if c.toNat == 0xFEFF then rest else text
    | [] => []
  let members ← lines? (2 * text.length + 2) text.length .start text
  dated? (.table .header members)

end CodeAtlas.Toml
