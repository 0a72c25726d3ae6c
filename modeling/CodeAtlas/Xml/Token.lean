import CodeAtlas.Text.Basic

/-!
# Tokens of a document

A document is a row of tags, text, literal text, comments and instructions, behind an optional
declaration. `tokens?` cuts it into them; it does not look at how tags nest.
-/

namespace CodeAtlas.Xml

open Text

/-! ## Characters and names -/

/-- Whether a character is white space in a document. -/
def isSpace (c : Char) : Bool := c == ' ' || c == '\t' || c == '\n' || c == '\r'

/-- Whether a character may stand in a document. -/
def isAllowed (c : Char) : Bool :=
  if c.toNat < 0x20 then isSpace c else c.toNat != 0xFFFE && c.toNat != 0xFFFF

/-- The code points with which a name may start. -/
def nameStarts : List (Nat × Nat) := [
  (0x3A, 0x3A), (0x41, 0x5A), (0x5F, 0x5F), (0x61, 0x7A), (0xC0, 0xD6), (0xD8, 0xF6),
  (0xF8, 0x2FF), (0x370, 0x37D), (0x37F, 0x1FFF), (0x200C, 0x200D), (0x2070, 0x218F),
  (0x2C00, 0x2FEF), (0x3001, 0xD7FF), (0xF900, 0xFDCF), (0xFDF0, 0xFFFD), (0x10000, 0xEFFFF)]

/-- The other code points that a name may hold. -/
def nameParts : List (Nat × Nat) := [
  (0x2D, 0x2E), (0x30, 0x39), (0xB7, 0xB7), (0x300, 0x36F), (0x203F, 0x2040)]

/-- Whether a character is in one of the ranges. -/
def isWithin (ranges : List (Nat × Nat)) (c : Char) : Bool :=
  ranges.any fun (low, high) => low ≤ c.toNat && c.toNat ≤ high

/-- Whether a name may start with a character. -/
def isNameStart (c : Char) : Bool := isWithin nameStarts c

/-- Whether a character may stand in a name. -/
def isNamePart (c : Char) : Bool := isNameStart c || isWithin nameParts c

/-- A name of an element or of an attribute. -/
structure Name where
  /-- What stands in front of the colon. -/
  qualifier : String
  base : String
  deriving DecidableEq, Repr

/-- Reads a name, whatever colons are in it. -/
def readName? (text : List Char) : Option (List Char × List Char) :=
  let name := text.takeWhile isNamePart
  if name.head?.any isNameStart then some (name, text.drop name.length) else none

/-- Reads a name with at most one colon. -/
def readQualified? (text : List Char) : Option (Name × List Char) :=
  let name := text.takeWhile isNamePart
  let rest := text.drop name.length
  match splitChar ':' name with
  | [base] => if base.head?.any isNameStart then some (⟨"", String.ofList base⟩, rest) else none
  | [qualifier, base] =>
      if qualifier.head?.all isNameStart && base.head?.any isNameStart then
        some (⟨String.ofList qualifier, String.ofList base⟩, rest)
      else none
  | _ => none

/-! ## Tokens -/

/-- An attribute with its value as it is written. -/
structure Attribute where
  name : Name
  value : List Char
  deriving DecidableEq, Repr

/-- A token of a document. -/
inductive Token where
  /-- Text as it is written. -/
  | text (raw : List Char)
  /-- Text that stands for itself. -/
  | literal (content : List Char)
  /-- A comment or an instruction. -/
  | aside
  /-- A tag that opens an element, and whether it closes it too. -/
  | opening (name : Name) (attributes : List Attribute) (isWhole : Bool)
  | closing (name : Name)
  deriving DecidableEq, Repr

/-- The text without white space in front. -/
def skipSpaces (text : List Char) : List Char := text.dropWhile isSpace

/-- Reads an attribute. -/
def readAttribute? (text : List Char) : Option (Attribute × List Char) := do
  let (name, text) ← readQualified? text
  match skipSpaces (← after? ['='] (skipSpaces text)) with
  | quote :: text =>
      let value := text.takeWhile fun c => c != quote && c != '<'
      if (quote == '"' || quote == '\'') && value.all isAllowed then
        let rest ← after? [quote] (text.drop value.length)
        return (⟨name, value⟩, rest)
      else none
  | [] => none

/-- Reads the attributes of a tag and its end: the attributes, whether the tag closes its element
too, and the rest. White space stands in front of each attribute. -/
def readAttributes? : (fuel : Nat) → List Char → Option (List Attribute × Bool × List Char)
  | 0, _ => none
  | fuel + 1, text =>
      match skipSpaces text with
      | '/' :: rest => (after? ['>'] rest).map fun rest => ([], true, rest)
      | '>' :: rest => some ([], false, rest)
      | rest =>
          if text.head?.any isSpace then do
            let (first, rest) ← readAttribute? rest
            let (more, isWhole, rest) ← readAttributes? fuel rest
            return (first :: more, isWhole, rest)
          else none

/-- Reads up to a closing mark over characters that may stand in a document. -/
def readUntil? (mark : String) (text : List Char) : Option (List Char × List Char) := do
  let (content, rest) ← cut? mark.toList text
  if content.all isAllowed then some (content, rest) else none

/-- Reads an instruction behind its opening mark. -/
def readInstruction? (text : List Char) : Option (Token × List Char) := do
  if startsWith text "xml ".toList then none
  let (_, rest) ← readName? text
  let (_, rest) ← readUntil? "?>" (skipSpaces rest)
  return (.aside, rest)

/-- Reads a comment behind its opening mark. It holds no two hyphens in a row and ends with none. -/
def readComment? (text : List Char) : Option (Token × List Char) := do
  let (content, rest) ← readUntil? "-->" text
  if containsWord content ['-', '-'] || endsWith content ['-'] then none
  return (.aside, rest)

/-- Reads a token behind the angle bracket with which it begins. -/
def readMarkup? (text : List Char) : Option (Token × List Char) :=
  match text with
  | '!' :: '-' :: '-' :: rest => readComment? rest
  | '!' :: rest => do
    let (content, rest) ← readUntil? "]]>" (← after? "[CDATA[".toList rest)
    return (.literal content, rest)
  | '?' :: rest => readInstruction? rest
  | '/' :: rest => do
    let (name, rest) ← readQualified? rest
    let rest ← after? ['>'] (skipSpaces rest)
    return (.closing name, rest)
  | _ => do
    let (name, rest) ← readQualified? text
    let (attributes, isWhole, rest) ← readAttributes? (rest.length + 1) rest
    return (.opening name attributes isWhole, rest)

/-- Reads text up to the next tag. It does not hold the mark that ends literal text. -/
def readText? (text : List Char) : Option (Token × List Char) :=
  let raw := text.takeWhile (· != '<')
  if raw.all isAllowed && !containsWord raw "]]>".toList then
    some (.text raw, text.drop raw.length)
  else none

/-- The tokens of a text; `fuel` is one more than its length. -/
def tokensFrom? : (fuel : Nat) → List Char → Option (List Token)
  | 0, _ => none
  | _, [] => some []
  | fuel + 1, '<' :: text => do
    let (token, rest) ← readMarkup? text
    return token :: (← tokensFrom? fuel rest)
  | fuel + 1, text => do
    let (token, rest) ← readText? text
    return token :: (← tokensFrom? fuel rest)

/-! ## The declaration -/

/-- Skips the white space that stands behind a part of a declaration, unless it ends there. -/
def skipGap? (text : List Char) : Option (List Char) :=
  if text.head?.any isSpace then some (skipSpaces text)
  else if text.isEmpty || startsWith text ['?', '>'] then some text
  else none

/-- Skips an attribute of a declaration that may be absent. -/
def skipOptional? (name : String) (text : List Char) : Option (List Char) :=
  if startsWith text name.toList then (readAttribute? text).map (·.2) else some text

/-- Skips the declaration of a document, if there is one. It gives the version, then it may give an
encoding and say whether the document stands alone. -/
def skipDeclaration? (text : List Char) : Option (List Char) :=
  match after? "<?xml ".toList text with
  | none => some text
  | some rest => do
    let rest := skipSpaces rest
    if !startsWith rest "version".toList then none
    let rest ← skipGap? (← skipOptional? "version" rest)
    let rest ← if startsWith rest "encoding".toList
      then skipOptional? "encoding" rest >>= skipGap? else some rest
    after? ['?', '>'] (skipSpaces (← skipOptional? "standalone" rest))

/-- The tokens of a document behind its declaration. -/
def tokens? (document : List Char) : Option (List Token) := do
  let text := (after? ['\uFEFF'] document).getD document
  let text ← skipDeclaration? text
  tokensFrom? (text.length + 1) text

end CodeAtlas.Xml
