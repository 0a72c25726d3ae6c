import CodeAtlas.Text.Utf8
import CodeAtlas.Yaml.Scalar

/-!
# Names, tags and directives

An anchor names a node and an alias mentions the name. A tag says what a node is, with a handle that
a directive may explain.
-/

namespace CodeAtlas.Yaml

open Text

/-- What is being read, and where it starts. -/
abbrev Context := Option (String × Position)

/-! ## Anchors and aliases -/

/-- Whether a name may end in front of a text. -/
def endsName (rest : List Char) : Bool :=
  endsWord rest || ['?', ':', ',', ']', '\x7d', '%', '@', Char.ofNat 96].contains (rest.headD ' ')

/-- Reads the name of an anchor or an alias behind its mark. -/
def readAnchor (context : Context) (c : Cursor) : Except Fault (String × Cursor) :=
  let name := c.rest.takeWhile isNameChar
  let c := c.skip name.length
  if name.isEmpty || !endsName c.rest then
    .error (c.fault "did not find expected alphabetic or numeric character" context)
  else .ok (String.ofList name, c)

/-! ## Tags -/

/-- Whether a character may stand in a tag; some only in a tag in brackets or in a directive. -/
def isTagChar (isOpen : Bool) (c : Char) : Bool :=
  isNameChar c || ";/?:@&=+$.%!~*'()".toList.contains c || (isOpen && [',', '[', ']'].contains c)

/-- The length of a character in bytes, from the first of them. -/
def sequenceLength? (b : Nat) : Option Nat :=
  if b < 0x80 then some 1 else if b / 0x20 = 6 then some 2 else if b / 0x10 = 14 then some 3
  else if b / 8 = 30 then some 4 else none

/-- Reads a byte that is written with a percent sign. -/
def readOctet? (rest : List Char) : Option (Nat × List Char) :=
  match rest with
  | '%' :: a :: b :: rest => do
    return ((← Json.hexDigitValue? a) * 16 + (← Json.hexDigitValue? b), rest)
  | _ => none

/-- Reads more bytes of a character that are written with percent signs. -/
def readOctets (context : Context) :
    (n : Nat) → (bytes : List UInt8) → Cursor → Except Fault (List UInt8 × Cursor)
  | 0, bytes, c => .ok (bytes, c)
  | n + 1, bytes, c =>
      match readOctet? c.rest with
      | none => .error (c.fault "did not find URI escaped octet" context)
      | some (b, _) =>
          if b / 0x40 = 2 then readOctets context n (bytes ++ [b.toUInt8]) (c.skip 3)
          else .error (c.fault "found an incorrect trailing UTF-8 octet" context)

/-- Reads a character of a tag. -/
def readTagChar (context : Context) (x : Char) (c : Cursor) : Except Fault (List Char × Cursor) :=
  if x != '%' then .ok ([x], c.skip 1)
  else match readOctet? c.rest with
    | none => .error (c.fault "did not find URI escaped octet" context)
    | some (b, _) =>
        match sequenceLength? b with
        | none => .error (c.fault "found an incorrect leading UTF-8 octet" context)
        | some n => do
          let (bytes, c) ← readOctets context (n - 1) [b.toUInt8] (c.skip 3)
          return (decode bytes, c)

/-- Reads on in the text of a tag, behind some text. -/
def readTagText (isOpen : Bool) (context : Context) :
    (fuel : Nat) → List Char → Cursor → Except Fault (List Char × Cursor)
  | 0, text, c => .ok (text, c)
  | fuel + 1, text, c =>
      match c.rest with
      | x :: _ =>
          if isTagChar isOpen x then do
            let (more, c) ← readTagChar context x c
            readTagText isOpen context fuel (text ++ more) c
          else .ok (text, c)
      | [] => .ok (text, c)

/-- Reads the text of a tag behind its handle. Without a handle it is not empty. -/
def readTagBody (isOpen : Bool) (context : Context) (handle : List Char) (c : Cursor) :
    Except Fault (List Char × Cursor) := do
  let (text, after) ← readTagText isOpen context (c.rest.length + 1) [] c
  if handle.isEmpty && text.isEmpty then throw (after.fault "did not find expected tag URI" context)
  return (handle.drop 1 ++ text, after)

/-- Reads a handle: names between exclamation marks, of which the last may be absent. -/
def readHandle? (c : Cursor) : Option (List Char × Cursor) :=
  match c.rest with
  | '!' :: rest =>
      let name := rest.takeWhile isNameChar
      let handle := '!' :: name ++ if (rest.drop name.length).head? == some '!' then ['!'] else []
      some (handle, c.skip handle.length)
  | _ => none

/-- A tag as it is written: its handle and the text behind. -/
structure Tag where
  handle : String
  text : String
  deriving DecidableEq, Repr

/-- Reads a tag that starts at the cursor. -/
def readTag (inFlow : Bool) (c : Cursor) : Except Fault (Tag × Cursor) := do
  let start := c.position
  let scanning : Context := some ("while scanning a tag", start)
  let parsing : Context := some ("while parsing a tag", start)
  let (tag, c) ←
    if startsWith c.rest ['!', '<'] then do
      let (text, c) ← readTagBody true parsing [] (c.skip 2)
      if !c.sees '>' then throw (c.fault "did not find the expected '>'" scanning)
      pure (Tag.mk "" (String.ofList text), c.skip 1)
    else match readHandle? c with
      | none => throw (c.fault "did not find expected '!'" scanning)
      | some (handle, c) =>
          if 1 < handle.length && handle.getLast? == some '!' then do
            let (text, c) ← readTagBody false parsing [] c
            pure (Tag.mk (String.ofList handle) (String.ofList text), c)
          else do
            let (text, c) ← readTagBody false parsing handle c
            pure (if text.isEmpty then Tag.mk "" "!" else Tag.mk "!" (String.ofList text), c)
  if !(inFlow && c.sees ',') && !endsWord c.rest then
    throw (c.fault "did not find expected whitespace or line break" scanning)
  return (tag, c)

/-! ## Directives -/

/-- A directive in front of a document. -/
inductive Directive where
  | version (major minor : Nat)
  | tag (handle meaning : String)
  deriving DecidableEq, Repr

/-- Reads a number of a version. -/
def readVersionNumber (context : Context) (c : Cursor) : Except Fault (Nat × Cursor) :=
  let digits := c.rest.takeWhile Char.isDigit
  if 9 < digits.length then
    .error ((c.skip 9).fault "found extremely long version number" context)
  else if digits.isEmpty then .error (c.fault "did not find expected version number" context)
  else .ok (digits.foldl (fun n d => n * 10 + (d.toNat - 48)) 0, c.skip digits.length)

/-- Reads the value of a directive that gives the version. -/
def readVersion (start : Position) (c : Cursor) : Except Fault (Directive × Cursor) := do
  let context := some ("while scanning a %YAML directive", start)
  let (major, c) ← readVersionNumber context (c.skipWhile isGap)
  if !c.sees '.' then throw (c.fault "did not find expected digit or '.' character" context)
  let (minor, c) ← readVersionNumber context (c.skip 1)
  return (.version major minor, c)

/-- Reads the value of a directive that explains a handle. -/
def readTagDirective (start : Position) (c : Cursor) : Except Fault (Directive × Cursor) := do
  let scanning := some ("while scanning a %TAG directive", start)
  let c := c.skipWhile isGap
  let (handle, c) ← match readHandle? c with
    | none =>
        throw (c.fault "did not find expected '!'" (some ("while scanning a tag directive", start)))
    | some (handle, c) =>
        if 1 < handle.length && handle.getLast? != some '!' then
          throw (c.fault "did not find expected '!'"
            (some ("while parsing a tag directive", start)))
        else pure (handle, c)
  if !c.rest.head?.any isGap then throw (c.fault "did not find expected whitespace" scanning)
  let parsing : Context := some ("while parsing a %TAG directive", start)
  let (meaning, c) ← readTagBody true parsing [] (c.skipWhile isGap)
  if !endsWord c.rest then
    throw (c.fault "did not find expected whitespace or line break" scanning)
  return (.tag (String.ofList handle) (String.ofList meaning), c)

/-- Reads a directive that starts at the cursor, with its line. -/
def readDirective (c : Cursor) : Except Fault (Directive × Cursor) := do
  let start := c.position
  let context := some ("while scanning a directive", start)
  let c := c.skip 1
  let name := c.rest.takeWhile isNameChar
  let c := c.skip name.length
  if name.isEmpty then throw (c.fault "could not find expected directive name" context)
  if !endsWord c.rest then
    throw (c.fault "found unexpected non-alphabetical character" context)
  let (directive, c) ← match String.ofList name with
    | "YAML" => readVersion start c
    | "TAG" => readTagDirective start c
    | _ => throw (c.fault "found unknown directive name" context)
  match c.toLineEnd? with
  | some c => return (directive, c)
  | none =>
      throw ((c.skipWhile isGap).fault "did not find expected comment or line break" context)

end CodeAtlas.Yaml
