import CodeAtlas.Pattern.Basic
import CodeAtlas.Text.Split

/-!
# The body of a block

The lines of a body assign attributes and open nested blocks. What is nested, in brackets or in a
here-document, assigns nothing to the block itself.
-/

namespace CodeAtlas.Source.Terraform

open Text

/-- A line that assigns an attribute. -/
def attributeLine : Pattern := .ofString
  r"^\s*(?P<name>[A-Za-z_][\w-]*)\s*=\s*(?P<value>.*?)\s*$"

/-- A line that opens a nested block. -/
def nestedLine : Pattern := .ofString
  r#"^\s*(?P<name>[A-Za-z_][\w-]*)(?:\s+"[^"]*")*\s*\x7b"#

/-- The start of a here-document, with the tag that ends it. -/
def documentStart : Pattern := .ofString
  r"^<<-?(?P<tag>\w+)"

/-- What a body assigns. -/
structure Attribute where
  name : String
  /-- The text behind the equals sign; the lines inside of a nested block. -/
  value : String
  line : Nat
  /-- Whether it is a nested block, or a value in brackets over several lines. -/
  isNested : Bool
  deriving DecidableEq, Repr

/-- What a line says about an attribute: its name, and its value unless it is a block. -/
structure Header where
  name : String
  value? : Option String
  deriving DecidableEq, Repr

/-- The header in a line, if there is one. -/
def Header.ofLine? (line : List Char) : Option Header :=
  match attributeLine.find? line with
  | some m => some ⟨m.textOf "name", some (m.textOf "value")⟩
  | none => (nestedLine.find? line).map fun m => ⟨m.textOf "name", none⟩

/-- The tag of the here-document that a value starts. -/
def documentTag? (value : String) : Option String :=
  (documentStart.find? value.toList).map (·.textOf "tag")

/-- How many brackets a line opens more than it closes. -/
def opened (line : List Char) : Int := lineDepthDelta .hcl line

/-- Where a line of a body stands. -/
inductive Location where
  /-- Among the attributes, where some brackets are open. -/
  | among (depth : Nat)
  /-- In the here-document with a tag. -/
  | document (tag : String)
  /-- In the nested block of an attribute, where some brackets are open; the lines in front of this
  one are in reverse. -/
  | nested (name : String) (line : Nat) (depth : Int) (before : List (List Char))
  deriving DecidableEq, Repr

/-- The attribute with a nested block, whose lines are in reverse. -/
def nestedAttribute (name : String) (line : Nat) (reversed : List (List Char)) : Attribute where
  name
  value := String.ofList (['\n'].intercalate reversed.reverse)
  line
  isNested := true

/-- Where the next line stands behind an attribute on one line. -/
def behindValue (value : String) : Location :=
  match documentTag? value with
  | some tag => .document tag
  | none => .among 0

/-- The attributes that lines from a location on assign; the first has number `n`. A block that is
not closed ends with the lines. -/
def attributesFrom : Location → (n : Nat) → List (List Char) → List Attribute
  | .nested name line _ before, _, [] => [nestedAttribute name line before]
  | _, _, [] => []
  | .document tag, n, line :: lines =>
      if trim line = tag.toList then attributesFrom (.among 0) (n + 1) lines
      else attributesFrom (.document tag) (n + 1) lines
  | .nested name start depth before, n, line :: lines =>
      let depth := depth + opened line
      if depth > 0 then attributesFrom (.nested name start depth (line :: before)) (n + 1) lines
      else nestedAttribute name start before :: attributesFrom (.among 0) (n + 1) lines
  | .among depth, n, line :: lines =>
      let behind : Location := .among (depth + opened line).toNat
      match if depth = 0 then Header.ofLine? line else none with
      | none => attributesFrom behind (n + 1) lines
      | some header =>
          if opened line > 0 then
            attributesFrom (.nested header.name n (opened line) []) (n + 1) lines
          else match header.value? with
            | none => attributesFrom behind (n + 1) lines
            | some value =>
                ⟨header.name, value, n, false⟩ :: attributesFrom (behindValue value) (n + 1) lines

/-- The attributes of a body whose first line has number `n`. -/
def attributesOf (body : List Char) (n : Nat) : List Attribute :=
  attributesFrom (.among 0) n (lines body)

end CodeAtlas.Source.Terraform
