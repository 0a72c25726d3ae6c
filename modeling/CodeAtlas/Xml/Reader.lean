import CodeAtlas.Json.Reader
import CodeAtlas.Text.Basic
import CodeAtlas.Xml.Token

/-!
# Reading documents of elements

`Node.ofText?` reads a document: one element with comments and instructions around it. Tags nest,
qualifiers of names are bound by attributes, and no attribute is given twice.
-/

namespace CodeAtlas.Xml

/-! ## Documents of elements

A document is a tree of elements with text in them. Of an element only the name in front of which a
qualifier may stand and what is in it are kept.
-/

/-- A part of a document. -/
inductive Node where
  | text (content : List Char)
  | element (name : String) (children : List Node)
  /-- A comment or an instruction. -/
  | aside
  deriving Repr

namespace Node

/-- What is in an element. -/
def children : Node → List Node
  | element _ children => children
  | _ => []

/-- Whether a node is an element with a name. -/
def isNamed (name : String) : Node → Bool
  | element own _ => own == name
  | _ => false

/-- The elements with a name in an element. -/
def elements (n : Node) (name : String) : List Node := n.children.filter (isNamed name)

/-- The text with which an element begins. -/
def text? (n : Node) : Option (List Char) :=
  match n.children with
  | text content :: _ => some content
  | _ => none

/-- The text of the first element with a name in an element, without white space around it, unless
nothing is left. -/
def textOf? (n : Node) (name : String) : Option String := do
  let content := Text.trim (← (← n.children.find? (isNamed name)).text?)
  if content.isEmpty then none else some (String.ofList content)

end Node

open Text

/-! ## References -/

/-- The number of some digits. -/
def numeral? (base : Nat) (digits : List Char) : Option Nat :=
  if digits.isEmpty then none
  else digits.foldlM (fun n c => do
    let d ← Json.hexDigitValue? c
    if d < base then some (n * base + d) else none) 0

/-- The character with a code point; the replacement character if there is none. -/
def charOf (n : Nat) : Char := if n.isValidChar then Char.ofNat n else '\uFFFD'

/-- The characters that have names. -/
def entities : List (String × Char) := [
  ("quot", '"'), ("amp", '&'), ("apos", '\''), ("lt", '<'), ("gt", '>')]

/-- Reads a reference behind its ampersand: the character that it stands for, and the rest. -/
def readReference? (text : List Char) : Option (Char × List Char) := do
  let (front, rest) ← cut? [';'] text
  let number? (base : Nat) (digits : List Char) : Option Char := do
    let n ← numeral? base digits
    if n < 0x100000000 && isAllowed (charOf n) then some (charOf n) else none
  let c ← match front with
    | '#' :: 'x' :: digits => number? 16 digits
    | '#' :: digits => number? 10 digits
    | name => entities.lookup (String.ofList name)
  return (c, rest)

/-- The text with line feeds for its line breaks. A carriage return at the end may stay. -/
def lineFeeds (keepsLast : Bool) : List Char → List Char
  | [] => []
  | '\r' :: '\n' :: text => '\n' :: lineFeeds keepsLast text
  | ['\r'] => [if keepsLast then '\r' else '\n']
  | '\r' :: text => '\n' :: lineFeeds keepsLast text
  | c :: text => c :: lineFeeds keepsLast text

/-- The text of pieces that stand behind references each. -/
def joinPieces? : List (List Char) → Option (List Char)
  | [] => some []
  | piece :: pieces => do
    let (c, rest) ← readReference? piece
    return c :: lineFeeds (!pieces.isEmpty || rest.length == 1) rest ++ (← joinPieces? pieces)

/-- What text as it is written stands for. A lone carriage return in front of a reference stays. -/
def textContent? (raw : List Char) : Option (List Char) :=
  match splitChar '&' raw with
  | [] => some []
  | first :: pieces => (joinPieces? pieces).map (lineFeeds (!pieces.isEmpty) first ++ ·)

/-- The value of an attribute: white space as it is written gives blanks. -/
def attributeValue? (raw : List Char) : Option String :=
  let plain (piece : List Char) := (lineFeeds false piece).map fun c => if isSpace c then ' ' else c
  match splitChar '&' raw with
  | [] => some ""
  | first :: pieces => do
    let rest ← pieces.mapM fun piece => (readReference? piece).map fun (c, rest) => c :: plain rest
    return String.ofList (plain first ++ rest.flatten)

/-! ## Qualifiers -/

/-- What qualifiers are bound to. -/
abbrev Scope := List (String × String)

/-- What the qualifier of the format itself is bound to. -/
def formatSpace : String := "http://www.w3.org/XML/1998/namespace"

/-- What the qualifier of bindings is bound to. -/
def bindingSpace : String := "http://www.w3.org/2000/xmlns/"

/-- The bindings of a tag with that of one more attribute. -/
def bind? (own : Scope) (a : Attribute) : Option Scope := do
  let value ← attributeValue? a.value
  if a.name.qualifier == "xmlns" then
    let isFormat := value == formatSpace
    if value == bindingSpace || isFormat != (a.name.base == "xml") then none
    else if (own.lookup a.name.base).isSome then none
    else if isFormat then some own
    else some (own ++ [(a.name.base, value)])
  else if a.name.base == "xmlns" then
    if value == formatSpace || value == bindingSpace then none else some own
  else some own

/-- What the names of the attributes of a tag stand for, without those that bind. -/
def expandedNames? (scope : Scope) (attributes : List Attribute) :
    Option (List (Option String × String)) :=
  let plain := attributes.filter fun a => a.name.qualifier != "xmlns" && a.name.base != "xmlns"
  plain.mapM fun a =>
    if a.name.qualifier == "" then some (none, a.name.base)
    else if a.name.qualifier == "xml" then some (some formatSpace, a.name.base)
    else (scope.lookup a.name.qualifier).map fun space => (some space, a.name.base)

/-- The bindings in an element, from those around it, if its tag is in order. -/
def scopeIn? (outer : Scope) (name : Name) (attributes : List Attribute) : Option Scope := do
  let scope := (← attributes.foldlM bind? []) ++ outer
  let names ← expandedNames? scope attributes
  let isBound := name.qualifier == "" || (scope.lookup name.qualifier).isSome
  if names.eraseDups.length == names.length && isBound && name.qualifier != "xmlns" then some scope
  else none

/-! ## Elements -/

/-- An element that is not closed yet, with what is in it so far in reverse. -/
structure Unclosed where
  name : Name
  scope : Scope
  children : List Node

/-- The elements that are open, the innermost first, and the root once it is closed. -/
structure Progress where
  unclosed : List Unclosed := []
  root : Option Node := none

namespace Progress

/-- Adds text. What stands side by side is one text. -/
def addText? (p : Progress) (content : List Char) : Option Progress :=
  match p.unclosed with
  | [] => none
  | e :: outer =>
      let children := match e.children with
        | .text front :: before => .text (front ++ content) :: before
        | before => .text content :: before
      some { p with unclosed := { e with children } :: outer }

/-- Adds a node. -/
def addNode (p : Progress) (n : Node) : Progress :=
  match p.unclosed with
  | [] => { p with root := some n }
  | e :: outer => { p with unclosed := { e with children := n :: e.children } :: outer }

/-- Goes on with a token. -/
def add? (p : Progress) (t : Token) : Option Progress :=
  match t with
  | .text raw =>
      if p.unclosed.isEmpty then if raw.all isSpace then some p else none
      else textContent? raw >>= p.addText?
  | .literal content => p.addText? (lineFeeds false content)
  | .aside => some (if p.unclosed.isEmpty then p else p.addNode .aside)
  | .opening name attributes isWhole =>
      if p.unclosed.isEmpty && p.root.isSome then none
      else
        let outer := (p.unclosed.head?.map (·.scope)).getD []
        (scopeIn? outer name attributes).map fun scope =>
          if isWhole then p.addNode (.element name.base [])
          else { p with unclosed := ⟨name, scope, []⟩ :: p.unclosed }
  | .closing name =>
      match p.unclosed with
      | [] => none
      | e :: outer =>
          if e.name = name then
            some (addNode { p with unclosed := outer } (.element name.base e.children.reverse))
          else none

end Progress

/-- The root of a document. -/
def Node.ofText? (document : List Char) : Option Node := do
  let p ← (← tokens? document).foldlM Progress.add? {}
  if p.unclosed.isEmpty then p.root else none

end CodeAtlas.Xml
