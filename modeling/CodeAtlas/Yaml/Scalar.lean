import CodeAtlas.Json.Reader
import CodeAtlas.Yaml.Cursor

/-!
# Scalars

A scalar is a text that is written plainly, in quotes, or as a block of indented lines. Line breaks
in it are folded, except in literal blocks.
-/

namespace CodeAtlas.Yaml

open Text

/-- How a scalar is written. -/
inductive Style where
  | plain
  | singleQuoted
  | doubleQuoted
  | literal
  | folded
  deriving DecidableEq, Repr

/-! ## Gaps between words -/

/-- What stands between two words of a scalar: spaces and tabs on one line, or line breaks. -/
inductive Gap where
  | spaces (text : List Char)
  | breaks (first more : List Char)
  deriving DecidableEq, Repr

namespace Gap

/-- Whether the gap spans lines. -/
def isBroken : Gap → Bool
  | spaces _ => false
  | breaks _ _ => true

/-- What a gap stands for: one line feed is folded into a space, the first of several is dropped. -/
def text : Gap → List Char
  | spaces text => text
  | breaks ['\n'] [] => [' ']
  | breaks ['\n'] more => more
  | breaks first more => first ++ more

/-- The gap with one more line break. -/
def addBreak (b : List Char) : Gap → Gap
  | spaces _ => breaks b []
  | breaks first more => breaks first (more ++ b)

end Gap

/-- Reads on in a gap. A tab in front of column `indent` of a later line is an error at its
place. -/
def readGap (indent : Nat) : (fuel : Nat) → Gap → Cursor → Except Cursor (Gap × Cursor)
  | 0, gap, c => .ok (gap, c)
  | fuel + 1, gap, c =>
      match c.break?, c.rest with
      | some (b, c), _ => readGap indent fuel (gap.addBreak b) c
      | none, x :: _ =>
          if !isGap x then .ok (gap, c)
          else match gap with
            | .spaces text => readGap indent fuel (.spaces (text ++ [x])) (c.skip 1)
            | .breaks _ _ =>
                if x == '\t' && c.column < indent then .error c
                else readGap indent fuel gap (c.skip 1)
      | none, [] => .ok (gap, c)

/-! ## Plain scalars -/

/-- Whether a character is part of the syntax of flow collections. -/
def isFlowIndicator (c : Char) : Bool :=
  c == ',' || c == '[' || c == ']' || c == '\x7b' || c == '\x7d'

/-- Whether a text starts with a colon that may not stand in a flow collection. -/
def hasStrayColon : List Char → Bool
  | ':' :: c :: _ => isFlowIndicator c || c == '?'
  | _ => false

/-- Whether a plain scalar ends in front of a text. -/
def endsPlain (inFlow : Bool) : List Char → Bool
  | [] => true
  | c :: rest =>
      isGap c || isBreak c || (c == ':' && endsWord rest) ||
        (inFlow && (isFlowIndicator c || hasStrayColon (c :: rest)))

/-- The word of a plain scalar in front of a text. -/
def plainWord (inFlow : Bool) : List Char → List Char
  | [] => []
  | c :: rest => if endsPlain inFlow (c :: rest) then [] else c :: plainWord inFlow rest

/-- Reads on in a plain scalar that starts at `start`, behind some text and a gap: the text, whether
it ends behind a line break, and the cursor there. Its later lines reach column `indent`. -/
def readPlain (inFlow : Bool) (indent : Nat) (start : Position) :
    (fuel : Nat) → List Char → Gap → Cursor → Except Fault (List Char × Bool × Cursor)
  | 0, text, gap, c => .ok (text, gap.isBroken, c)
  | fuel + 1, text, gap, c =>
      let context := some ("while scanning a plain scalar", start)
      if c.seesAnyMark || c.sees '#' then .ok (text, gap.isBroken, c)
      else
        let word := plainWord inFlow c.rest
        let (text, gap) := if word.isEmpty then (text, gap)
          else (text ++ gap.text ++ word, .spaces [])
        let c := c.skip word.length
        if inFlow && hasStrayColon c.rest then .error (c.fault "found unexpected ':'" context)
        else if c.rest.isEmpty || !endsWord c.rest then .ok (text, gap.isBroken, c)
        else match readGap indent (c.rest.length + 1) gap c with
          | .error c => .error (c.fault "found a tab character that violates indentation" context)
          | .ok (gap, c) =>
              if !inFlow && c.column < indent then .ok (text, gap.isBroken, c)
              else readPlain inFlow indent start fuel text gap c

/-! ## Quoted scalars -/

/-- The character that a letter behind a backslash stands for. -/
def escapes : List (Char × Char) := [
  ('0', '\x00'), ('a', '\x07'), ('b', '\x08'), ('t', '\t'), ('\t', '\t'), ('n', '\n'),
  ('v', '\x0b'), ('f', '\x0c'), ('r', '\r'), ('e', '\x1b'), (' ', ' '), ('"', '"'), ('/', '/'),
  ('\\', '\\'), ('N', '\u0085'), ('_', '\u00a0'), ('L', '\u2028'), ('P', '\u2029')]

/-- How many hexadecimal digits follow a letter behind a backslash. -/
def escapeLengths : List (Char × Nat) := [('x', 2), ('u', 4), ('U', 8)]

/-- Reads an escape sequence behind its backslash: its character and length. -/
def readEscape (rest : List Char) : Except String (Char × Nat) :=
  let unknown := .error "found unknown escape character"
  match rest with
  | [] => unknown
  | letter :: rest =>
      match escapes.lookup letter, escapeLengths.lookup letter with
      | some c, _ => .ok (c, 1)
      | none, none => unknown
      | none, some n =>
          match (rest.take n).mapM Json.hexDigitValue? with
          | none => .error "did not find expected hexdecimal number"
          | some digits =>
              let value := digits.foldl (fun sum d => sum * 16 + d) 0
              if digits.length < n then .error "did not find expected hexdecimal number"
              else if value.isValidChar then .ok (Char.ofNat value, n + 1)
              else .error "found invalid Unicode character escape code"

/-- How a run of characters in quotes ends. -/
inductive WordEnd where
  | here
  /-- At a line break that is escaped. -/
  | escapedBreak
  deriving DecidableEq, Repr

/-- Reads the characters of a quoted scalar up to a gap or its last quote, onto those in `read`,
which are in reverse. -/
def readQuotedWord (quote : Char) (start : Position) :
    (fuel : Nat) → (read : List Char) → Cursor → Except Fault (List Char × WordEnd × Cursor)
  | 0, read, c => .ok (read.reverse, .here, c)
  | fuel + 1, read, c =>
      if endsWord c.rest then .ok (read.reverse, .here, c)
      else match c.rest with
        | '\'' :: '\'' :: _ =>
            if quote == '\'' then readQuotedWord quote start fuel ('\'' :: read) (c.skip 2)
            else readQuotedWord quote start fuel ('\'' :: read) (c.skip 1)
        | '\\' :: rest =>
            if quote == '\'' then readQuotedWord quote start fuel ('\\' :: read) (c.skip 1)
            else match (c.skip 1).break?, readEscape rest with
              | some (_, c), _ => .ok (read.reverse, .escapedBreak, c)
              | none, .ok (x, n) => readQuotedWord quote start fuel (x :: read) (c.skip (n + 1))
              | none, .error problem =>
                  let at_ := if problem == "found unknown escape character" then c else c.skip 2
                  .error (at_.fault problem (some ("while parsing a quoted scalar", start)))
        | x :: _ =>
            if x == quote then .ok (read.reverse, .here, c)
            else readQuotedWord quote start fuel (x :: read) (c.skip 1)
        | [] => .ok (read.reverse, .here, c)

/-- Reads on in a quoted scalar that starts at `start`, behind some text. -/
def readQuoted (quote : Char) (start : Position) :
    (fuel : Nat) → List Char → Cursor → Except Fault (List Char × Cursor)
  | 0, text, c => .ok (text, c)
  | fuel + 1, text, c => do
    let context := some ("while scanning a quoted scalar", start)
    if c.seesAnyMark then throw (c.fault "found unexpected document indicator" context)
    if c.rest.isEmpty then throw (c.fault "found unexpected end of stream" context)
    let (word, ending, c) ← readQuotedWord quote start (c.rest.length + 1) [] c
    let text := text ++ word
    if c.sees quote then return (text, c.skip 1)
    let gap := if ending = .escapedBreak then .breaks [] [] else .spaces []
    match readGap 0 (c.rest.length + 1) gap c with
    | .ok (gap, c) => readQuoted quote start fuel (text ++ gap.text) c
    | .error c => throw (c.fault "found unexpected end of stream" context)

/-! ## Block scalars -/

/-- What becomes of the line breaks at the end of a block. -/
inductive Chomping where
  | strip
  | clip
  | keep
  deriving DecidableEq, Repr

/-- The chomping that a character asks for. -/
def Chomping.ofChar? (c : Char) : Option Chomping :=
  if c == '+' then some keep else if c == '-' then some strip else none

/-- The header of a block: its chomping, and its indentation if it is given. -/
structure BlockHeader where
  chomping : Chomping := .clip
  indentation? : Option Nat := none
  deriving DecidableEq, Repr

/-- Reads the digit of an indentation, if there is one. -/
def readIndentation (context : Option (String × Position)) (c : Cursor) :
    Except Fault (Option Nat × Cursor) :=
  match c.rest with
  | '0' :: _ => .error (c.fault "found an indentation indicator equal to 0" context)
  | x :: _ => .ok (if x.isDigit then (some (x.toNat - 48), c.skip 1) else (none, c))
  | [] => .ok (none, c)

/-- Reads the header of a block. Its two parts may stand in either order. -/
def readBlockHeader (context : Option (String × Position)) (c : Cursor) :
    Except Fault (BlockHeader × Cursor) := do
  match c.rest.head? >>= Chomping.ofChar? with
  | some chomping =>
      let (indentation?, c) ← readIndentation context (c.skip 1)
      return (⟨chomping, indentation?⟩, c)
  | none =>
      let (indentation?, c) ← readIndentation context c
      match indentation?, c.rest.head? >>= Chomping.ofChar? with
      | some n, some chomping => return (⟨chomping, some n⟩, c.skip 1)
      | _, _ => return (⟨.clip, indentation?⟩, c)

/-- Reads the spaces and line breaks in front of a line of a block, with the largest indentation of
a line so far: the line breaks, the largest indentation, and the cursor. Without a known indentation
all spaces belong to it. -/
def readBlockGap (context : Option (String × Position)) (indent? : Option Nat) :
    (fuel : Nat) → (breaks : List Char) → (widest : Nat) → Cursor →
    Except Fault (List Char × Nat × Cursor)
  | 0, breaks, widest, c => .ok (breaks, widest, c)
  | fuel + 1, breaks, widest, c =>
      let spaces := (c.rest.takeWhile (· == ' ')).length
      let c := c.skip (match indent? with
        | some n => min spaces (n - c.column)
        | none => spaces)
      let widest := max widest c.column
      if indent?.all (c.column < ·) && c.sees '\t' then
        .error (c.fault "found a tab character where an indentation space is expected" context)
      else match c.break? with
        | some (b, c) => readBlockGap context indent? fuel (breaks ++ b) widest c
        | none => .ok (breaks, widest, c)

/-- Reads the lines of a block behind some text, the last line break and the line breaks behind it:
the text and the two again. -/
def readBlockLines (isLiteral : Bool) (context : Option (String × Position)) (indent : Nat) :
    (fuel : Nat) → (text last more : List Char) → (wasSpaced : Bool) → Cursor →
    Except Fault (List Char × List Char × List Char × Cursor)
  | 0, text, last, more, _, c => .ok (text, last, more, c)
  | fuel + 1, text, last, more, wasSpaced, c =>
      if c.column != indent || c.rest.isEmpty then .ok (text, last, more, c)
      else do
        let isSpaced := c.rest.head?.any isGap
        let isFolded := !isLiteral && last == ['\n'] && !wasSpaced && !isSpaced
        let joint := if isFolded then if more.isEmpty then [' '] else [] else last
        let line := c.rest.takeWhile (!isBreak ·)
        let c := c.skip line.length
        let (last, c) := c.break?.getD ([], c)
        let text := text ++ joint ++ more ++ line
        let (more, _, c) ← readBlockGap context (some indent) (c.rest.length + 1) [] 0 c
        readBlockLines isLiteral context indent fuel text last more isSpaced c

/-- Reads a block behind its first character, in a collection with an indentation. -/
def readBlock (isLiteral : Bool) (start : Position) (outer : Int) (c : Cursor) :
    Except Fault (List Char × Cursor) := do
  let context := some ("while scanning a block scalar", start)
  let (header, c) ← readBlockHeader context c
  let c ← match c.toLineEnd? with
    | some c => pure c
    | none =>
        let c := c.skipWhile isGap
        throw (c.fault "did not find expected comment or line break" context)
  let given? := header.indentation?.map fun n => (max outer 0).toNat + n
  let (more, widest, c) ← readBlockGap context given? (c.rest.length + 1) [] 0 c
  let indent := given?.getD (max widest (max (outer + 1) 1).toNat)
  let (text, last, more, c) ←
    readBlockLines isLiteral context indent (c.rest.length + 1) [] [] more false c
  let ending := match header.chomping with
    | .strip => []
    | .clip => last
    | .keep => last ++ more
  return (text ++ ending, c)

end CodeAtlas.Yaml
