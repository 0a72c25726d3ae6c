import CodeAtlas.Text.Basic

/-!
# Places in a document

A cursor stands at a position of a document, in front of the rest of its text. What is wrong with a
document is said with the position where it shows, and with that of the part that was being read.
-/

namespace CodeAtlas.Yaml

open Text

/-- A position in a document. -/
structure Position where
  line : Nat := 0
  column : Nat := 0
  /-- How many characters stand in front. -/
  offset : Nat := 0
  deriving DecidableEq, Repr

namespace Position

/-- The position so many characters behind, on the same line. -/
def right (p : Position) (n : Nat) : Position :=
  { p with column := p.column + n, offset := p.offset + n }

/-- The start of the next line, behind a line break of so many characters. -/
def nextLine (p : Position) (n : Nat) : Position := ⟨p.line + 1, 0, p.offset + n⟩

/-- Whether this is the start of the document. -/
def isStart (p : Position) : Bool := p.line = 0 && p.column = 0

/-- The text that points to a position, unless it is the start of the document. -/
def pointer (p : Position) : String :=
  if p.isStart then ""
  else " at line " ++ toString (p.line + 1) ++ " column " ++ toString (p.column + 1)

end Position

/-- What is wrong with a document. -/
structure Fault where
  problem : String
  position : Position := {}
  /-- What was being read, and where it starts. -/
  context : Option (String × Position) := none
  deriving DecidableEq, Repr

/-- What is said about a fault. -/
def Fault.message (f : Fault) : String :=
  let context := match f.context with
    | none => ""
    | some (reading, start) =>
        let isElsewhere := start.line != f.position.line || start.column != f.position.column
        ", " ++ reading ++ if isElsewhere then start.pointer else ""
  f.problem ++ f.position.pointer ++ context

/-! ## Characters -/

/-- Whether a character is a line break. -/
def isBreak (c : Char) : Bool :=
  c == '\n' || c == '\r' || c == '\u0085' || c == '\u2028' || c == '\u2029'

/-- Whether a character is a space or a tab. -/
def isGap (c : Char) : Bool := c == ' ' || c == '\t'

/-- Whether a text ends or starts with a space, a tab or a line break. -/
def endsWord : List Char → Bool
  | [] => true
  | c :: _ => isGap c || isBreak c

/-- Whether a character may stand in names. -/
def isNameChar (c : Char) : Bool := c.isAlphanum || c == '_' || c == '-'

/-- Whether a character may stand in a document. -/
def isPrintable (c : Char) : Bool :=
  let n := c.toNat
  n = 0x09 || n = 0x0A || n = 0x0D || (0x20 ≤ n && n ≤ 0x7E) || n = 0x85 ||
    (0xA0 ≤ n && n ≤ 0xD7FF) || (0xE000 ≤ n && n ≤ 0xFFFD) || 0x10000 ≤ n

/-! ## Cursors -/

/-- A place in a document. -/
structure Cursor where
  /-- The text behind it. -/
  rest : List Char
  position : Position := {}
  deriving DecidableEq, Repr

namespace Cursor

/-- The column of a cursor. -/
def column (c : Cursor) : Nat := c.position.column

/-- The cursor so many characters behind, on the same line. -/
def skip (c : Cursor) (n : Nat) : Cursor := ⟨c.rest.drop n, c.position.right n⟩

/-- The cursor behind the characters for which `p` holds; they are no line breaks. -/
def skipWhile (c : Cursor) (p : Char → Bool) : Cursor := c.skip (c.rest.takeWhile p).length

/-- The line break at a cursor as text, and the cursor behind it. Most line breaks count as line
feeds. -/
def break? (c : Cursor) : Option (List Char × Cursor) :=
  match c.rest with
  | '\r' :: '\n' :: rest => some (['\n'], ⟨rest, c.position.nextLine 2⟩)
  | b :: rest =>
      if isBreak b then
        some ([if b == '\u2028' || b == '\u2029' then b else '\n'], ⟨rest, c.position.nextLine 1⟩)
      else none
  | [] => none

/-- Whether there is a character at the cursor. -/
def sees (c : Cursor) (x : Char) : Bool := c.rest.head? == some x

/-- Whether the mark that starts or ends a document is at the cursor. -/
def seesMark (c : Cursor) (mark : String) : Bool :=
  c.column = 0 && startsWith c.rest mark.toList && endsWord (c.rest.drop 3)

/-- Whether a mark of either kind is at the cursor. -/
def seesAnyMark (c : Cursor) : Bool := c.seesMark "---" || c.seesMark "..."

/-- A fault at the cursor. -/
def fault (c : Cursor) (problem : String) (context : Option (String × Position)) : Fault :=
  { problem, position := c.position, context }

/-- The cursor behind spaces, tabs and a comment, if nothing else is on the line. -/
def toLineEnd? (c : Cursor) : Option Cursor :=
  let c := c.skipWhile isGap
  let c := if c.sees '#' then c.skipWhile (!isBreak ·) else c
  match c.break?, c.rest with
  | some (_, c), _ => some c
  | none, [] => some c
  | none, _ => none

end Cursor

end CodeAtlas.Yaml
