import CodeAtlas.Yaml.Tag

/-!
# Tokens of a document

A document is cut into tokens. Indentation gives tokens for the start and the end of blocks; a
scalar, or a whole flow collection, becomes a key when a colon follows it on the same line, and then
the token for a key is put in front of it.

`tokens` gives the tokens of a document, and what is wrong with it if there is no next token.
-/

namespace CodeAtlas.Yaml

open Text

/-- What a token is. -/
inductive TokenKind where
  | streamEnd
  | directive (directive : Directive)
  | documentStart
  | documentEnd
  | sequenceBlock
  | mappingBlock
  | blockEnd
  | flowSequence
  | flowSequenceEnd
  | flowMapping
  | flowMappingEnd
  | entry
  | flowEntry
  | key
  | value
  | alias (name : String)
  | anchor (name : String)
  | tag (tag : Tag)
  | scalar (style : Style) (text : String)
  deriving DecidableEq, Repr

/-- A token of a document. -/
structure Token where
  kind : TokenKind
  start : Position
  stop : Position
  deriving DecidableEq, Repr

/-- What may become a key: the number of its first token, and where it starts. It has to if it
stands where a mapping goes on. -/
structure KeyCandidate where
  number : Nat
  isRequired : Bool
  start : Position
  deriving DecidableEq, Repr

/-- The state between two tokens. -/
structure Scan where
  cursor : Cursor
  /-- How many flow collections are open. -/
  flow : Nat := 0
  /-- The column of the innermost block. -/
  indent : Int := -1
  /-- The columns of the blocks around it. -/
  outer : List Int := []
  /-- Whether a key may start here. -/
  allowsKey : Bool := true
  /-- What may become a key, in the innermost collection first. -/
  candidates : List (Option KeyCandidate) := [none]
  /-- The tokens so far, the last first. -/
  reversed : List Token := []
  count : Nat := 0
  isDone : Bool := false

namespace Scan

/-- Whether a flow collection is open. -/
def inFlow (s : Scan) : Bool := s.flow != 0

/-- Where the cursor stands. -/
def position (s : Scan) : Position := s.cursor.position

/-- Adds a token. -/
def add (s : Scan) (kind : TokenKind) (start stop : Position) : Scan :=
  { s with reversed := ⟨kind, start, stop⟩ :: s.reversed, count := s.count + 1 }

/-- Adds the token of the next characters. -/
def addNext (s : Scan) (kind : TokenKind) (length : Nat) : Scan :=
  let cursor := s.cursor.skip length
  { s.add kind s.position cursor.position with cursor }

/-- Puts a token in front of the one with a number. -/
def insert (s : Scan) (number : Nat) (kind : TokenKind) (start : Position) : Scan :=
  let (later, earlier) := s.reversed.splitAt (s.count - number)
  { s with reversed := later ++ ⟨kind, start, start⟩ :: earlier, count := s.count + 1 }

/-! ## Candidates for keys -/

/-- The longest key in characters. -/
def maxKeyLength : Nat := 1024

/-- Whether a candidate can no longer become a key: it is not on the line, or too long. -/
def isStale (s : Scan) (k : KeyCandidate) : Bool :=
  k.start.line < s.position.line || k.start.offset + maxKeyLength < s.position.offset

/-- What is wrong if a candidate that has to become a key does not. -/
def missingColon (s : Scan) (k : KeyCandidate) : Fault :=
  s.cursor.fault "could not find expected ':'" (some ("while scanning a simple key", k.start))

/-- A candidate, unless it can no longer become a key. -/
def fresh (s : Scan) : Option KeyCandidate → Except Fault (Option KeyCandidate)
  | none => .ok none
  | some k =>
      if !s.isStale k then .ok (some k)
      else if k.isRequired then .error (s.missingColon k)
      else .ok none

/-- Drops the candidates that can no longer become keys, from the outermost on. -/
def dropStale (s : Scan) : Except Fault Scan := do
  let candidates ← s.candidates.reverse.mapM s.fresh
  return { s with candidates := candidates.reverse }

/-- Replaces the innermost candidate, which need not become a key. -/
def setCandidate (s : Scan) (candidate : Option KeyCandidate) : Except Fault Scan :=
  match s.candidates with
  | some k :: rest =>
      if k.isRequired then .error (s.missingColon k)
      else .ok { s with candidates := candidate :: rest }
  | _ :: rest => .ok { s with candidates := candidate :: rest }
  | [] => .ok s

/-- Drops the innermost candidate. -/
def dropCandidate (s : Scan) : Except Fault Scan := s.setCandidate none

/-- Makes the next token a candidate, if a key may start here. -/
def saveCandidate (s : Scan) : Except Fault Scan :=
  if s.allowsKey then
    let isRequired := !s.inFlow && s.indent == s.cursor.column
    s.setCandidate (some ⟨s.count, isRequired, s.position⟩)
  else .ok s

/-! ## Blocks -/

/-- Closes the blocks that are indented deeper than a column. -/
def unroll (s : Scan) (column : Int) : Scan := go s s.outer
where
  /-- Closes blocks; these are around the innermost. -/
  go (s : Scan) : List Int → Scan
    | [] => s
    | indent :: outer =>
        if !s.inFlow && column < s.indent then
          go { s.add .blockEnd s.position s.position with indent, outer } outer
        else s

/-- Opens a block at a column, if it is deeper than the innermost; its token goes in front of the
one with a number. -/
def roll (s : Scan) (column : Nat) (number : Nat) (kind : TokenKind) (start : Position) : Scan :=
  if !s.inFlow && s.indent < column then
    { s.insert number kind start with indent := column, outer := s.indent :: s.outer }
  else s

/-! ## Single tokens -/

/-- A fault without anything that was being read. -/
def refuse (s : Scan) (problem : String) : Fault := s.cursor.fault problem none

/-- The token at the end of the document. All text is read, so a line that was begun is over. -/
def readEnd (s : Scan) : Except Fault Scan := do
  let position := if s.cursor.column = 0 then s.position else s.position.nextLine 0
  let s := { s with cursor := { s.cursor with position } }
  let s ← (s.unroll (-1)).dropCandidate
  return { s.add .streamEnd position position with allowsKey := false, isDone := true }

/-- A directive. -/
def scanDirective (s : Scan) : Except Fault Scan := do
  let s ← (s.unroll (-1)).dropCandidate
  let (directive, cursor) ← readDirective s.cursor
  return { s.add (.directive directive) s.position cursor.position with cursor, allowsKey := false }

/-- A mark that starts or ends a document. -/
def scanMark (s : Scan) (kind : TokenKind) : Except Fault Scan := do
  let s ← (s.unroll (-1)).dropCandidate
  return { s.addNext kind 3 with allowsKey := false }

/-- The start of a flow collection, which may become a key as a whole. -/
def scanFlowStart (s : Scan) (kind : TokenKind) : Except Fault Scan := do
  let s ← s.saveCandidate
  return { s.addNext kind 1 with
    flow := s.flow + 1, candidates := none :: s.candidates, allowsKey := true }

/-- The end of a flow collection. -/
def scanFlowEnd (s : Scan) (kind : TokenKind) : Except Fault Scan := do
  let s ← s.dropCandidate
  let s := if s.inFlow then { s with flow := s.flow - 1, candidates := s.candidates.tail } else s
  return { s.addNext kind 1 with allowsKey := false }

/-- A comma in a flow collection. -/
def scanFlowEntry (s : Scan) : Except Fault Scan := do
  let s ← s.dropCandidate
  return { s.addNext .flowEntry 1 with allowsKey := true }

/-- A hyphen in front of an entry of a sequence. -/
def scanEntry (s : Scan) : Except Fault Scan := do
  if !s.inFlow && !s.allowsKey then
    throw (s.refuse "block sequence entries are not allowed in this context")
  let s ← (s.roll s.cursor.column s.count .sequenceBlock s.position).dropCandidate
  return { s.addNext .entry 1 with allowsKey := true }

/-- A question mark in front of a key. -/
def scanKey (s : Scan) : Except Fault Scan := do
  if !s.inFlow && !s.allowsKey then
    throw (s.refuse "mapping keys are not allowed in this context")
  let s ← (s.roll s.cursor.column s.count .mappingBlock s.position).dropCandidate
  return { s.addNext .key 1 with allowsKey := !s.inFlow }

/-- A colon in front of a value. The innermost candidate becomes the key. -/
def scanValue (s : Scan) : Except Fault Scan := do
  match s.candidates with
  | some k :: rest =>
      let s := s.insert k.number .key k.start
      let s := s.roll k.start.column k.number .mappingBlock k.start
      return { s.addNext .value 1 with candidates := none :: rest, allowsKey := false }
  | _ =>
      if !s.inFlow && !s.allowsKey then
        throw (s.refuse "mapping values are not allowed in this context")
      let s := s.roll s.cursor.column s.count .mappingBlock s.position
      return { s.addNext .value 1 with allowsKey := !s.inFlow }

/-- An anchor or an alias. -/
def scanAnchor (s : Scan) (isAlias : Bool) : Except Fault Scan := do
  let s ← s.saveCandidate
  let reading := if isAlias then "while scanning an alias" else "while scanning an anchor"
  let (name, cursor) ← readAnchor (some (reading, s.position)) (s.cursor.skip 1)
  let kind : TokenKind := if isAlias then .alias name else .anchor name
  return { s.add kind s.position cursor.position with cursor, allowsKey := false }

/-- A tag. -/
def scanTag (s : Scan) : Except Fault Scan := do
  let s ← s.saveCandidate
  let (tag, cursor) ← readTag s.inFlow s.cursor
  return { s.add (.tag tag) s.position cursor.position with cursor, allowsKey := false }

/-- A scalar that is a block of lines. -/
def scanBlock (s : Scan) (isLiteral : Bool) : Except Fault Scan := do
  let s ← s.dropCandidate
  let (text, cursor) ← readBlock isLiteral s.position s.indent (s.cursor.skip 1)
  let kind : TokenKind := .scalar (if isLiteral then .literal else .folded) (String.ofList text)
  return { s.add kind s.position cursor.position with cursor, allowsKey := true }

/-- A scalar in quotes. -/
def scanQuoted (s : Scan) (quote : Char) : Except Fault Scan := do
  let s ← s.saveCandidate
  let (text, cursor) ← readQuoted quote s.position (s.cursor.rest.length + 1) [] (s.cursor.skip 1)
  let style : Style := if quote == '"' then .doubleQuoted else .singleQuoted
  return { s.add (.scalar style (String.ofList text)) s.position cursor.position with
    cursor, allowsKey := false }

/-- A plain scalar. A key may start behind it only on another line. -/
def scanPlain (s : Scan) : Except Fault Scan := do
  let s ← s.saveCandidate
  let (text, isBroken, cursor) ← readPlain s.inFlow (s.indent + 1).toNat s.position
    (s.cursor.rest.length + 1) [] (.spaces []) s.cursor
  return { s.add (.scalar .plain (String.ofList text)) s.position cursor.position with
    cursor, allowsKey := isBroken }

/-! ## Tokens -/

/-- Skips spaces, comments and line breaks, and a byte order mark at the start of a line. Tabs count
as spaces where no key may start. Behind a line break a key may start, unless a flow collection is
open. -/
def toToken (s : Scan) : (fuel : Nat) → Scan
  | 0 => s
  | fuel + 1 =>
      let isSpace (c : Char) : Bool := c == ' ' || (c == '\t' && (s.inFlow || !s.allowsKey))
      let c := if s.cursor.column = 0 && s.cursor.sees '\uFEFF' then s.cursor.skip 1 else s.cursor
      let c := c.skipWhile isSpace
      let c := if c.sees '#' then c.skipWhile (!isBreak ·) else c
      match c.break? with
      | some (_, cursor) => toToken { s with cursor, allowsKey := s.allowsKey || !s.inFlow } fuel
      | none => { s with cursor := c }

/-- The characters that no plain scalar starts with. -/
def indicators : List Char :=
  ['-', '?', ':', ',', '[', ']', '\x7b', '\x7d', '#', '&', '*', '!', '|', '>', '\'', '"', '%', '@',
    Char.ofNat 96]

/-- Whether a plain scalar starts with a text. A hyphen may be its first character, and outside of
flow collections a question mark or a colon, unless a space follows. -/
def startsPlain (s : Scan) : List Char → Bool
  | [] => false
  | c :: rest =>
      !(endsWord [c] || indicators.contains c) || (c == '-' && !rest.head?.any isGap) ||
        (!s.inFlow && (c == '?' || c == ':') && !endsWord rest)

/-- The token at the cursor. -/
def scanToken (s : Scan) : Except Fault Scan :=
  let isAlone := s.inFlow || endsWord (s.cursor.rest.drop 1)
  let other := if s.startsPlain s.cursor.rest then s.scanPlain
    else .error (s.cursor.fault "found character that cannot start any token"
      (some ("while scanning for the next token", s.position)))
  if s.cursor.rest.isEmpty then s.readEnd
  else if s.cursor.column = 0 && s.cursor.sees '%' then s.scanDirective
  else if s.cursor.seesMark "---" then s.scanMark .documentStart
  else if s.cursor.seesMark "..." then s.scanMark .documentEnd
  else match s.cursor.rest.headD ' ' with
    | '[' => s.scanFlowStart .flowSequence
    | '\x7b' => s.scanFlowStart .flowMapping
    | ']' => s.scanFlowEnd .flowSequenceEnd
    | '\x7d' => s.scanFlowEnd .flowMappingEnd
    | ',' => s.scanFlowEntry
    | '-' => if endsWord (s.cursor.rest.drop 1) then s.scanEntry else other
    | '?' => if isAlone then s.scanKey else other
    | ':' => if isAlone then s.scanValue else other
    | '*' => s.scanAnchor true
    | '&' => s.scanAnchor false
    | '!' => s.scanTag
    | '|' => if s.inFlow then other else s.scanBlock true
    | '>' => if s.inFlow then other else s.scanBlock false
    | '\'' => s.scanQuoted '\''
    | '"' => s.scanQuoted '"'
    | _ => other

/-- The state behind the next token. -/
def next (s : Scan) : Except Fault Scan := do
  let s ← s.dropStale
  let s ← (s.toToken (s.cursor.rest.length + 1)).dropStale
  (s.unroll s.cursor.column).scanToken

/-- The tokens that are known for good: those in front of all that may become keys. -/
def settled (s : Scan) : List Token :=
  let numbers := s.candidates.filterMap fun k? => k?.bind fun k =>
    if s.isStale k && !k.isRequired then none else some k.number
  s.reversed.reverse.take (numbers.foldl min s.count)

/-- The tokens from a state on. -/
def run : (fuel : Nat) → Scan → List Token × Option Fault
  | 0, s => (s.settled, none)
  | fuel + 1, s =>
      match s.next with
      | .error f => (s.settled, some f)
      | .ok s => if s.isDone then (s.reversed.reverse, none) else run fuel s

end Scan

/-- The byte offset of the first character that may not stand in a document. -/
def controlCharacter? (text : List Char) : Option Nat :=
  let front := text.takeWhile isPrintable
  if front.length < text.length then some (byteLength front) else none

/-- The tokens of a document, up to what is wrong with it. -/
def tokens (document : List Char) : List Token × Option Fault :=
  match controlCharacter? document with
  | some offset =>
      let place := if offset = 0 then "" else " at position " ++ toString offset
      ([], some { problem := "control characters are not allowed" ++ place })
  | none =>
      let text := (after? ['\uFEFF'] document).getD document
      Scan.run (2 * text.length + 2) { cursor := ⟨text, {}⟩ }

end CodeAtlas.Yaml
