import CodeAtlas.Scan
import CodeAtlas.Source.Terraform.Body
import CodeAtlas.Text.Block

/-!
# Blocks

A configuration is made of blocks: a word, labels in quotes and a body in braces.
-/

namespace CodeAtlas.Source.Terraform

open Text

/-- The header of a block. -/
def blockHeader : Pattern := .ofString
  r#"(?m)^[ \t]*(?P<kind>resource|data|module|variable|output|locals|terraform|provider)(?P<labels>(?:[ \t]+"[^"]*")*)[ \t]*\x7b"#

/-- A label of a block. -/
def quotedLabel : Pattern := .ofString
  r#""([^"]*)""#

/-- What a block declares. -/
inductive BlockKind where
  | resource
  | data
  | module
  | inputVariable
  | output
  | locals
  | terraform
  | provider
  deriving DecidableEq, Repr

/-- The kind of a block that starts with a word. -/
def BlockKind.ofWord? (word : String) : Option BlockKind :=
  match word with
  | "resource" => some resource
  | "data" => some data
  | "module" => some module
  | "variable" => some inputVariable
  | "output" => some output
  | "locals" => some locals
  | "terraform" => some terraform
  | "provider" => some provider
  | _ => none

/-- A block of a file. -/
structure Block where
  kind : BlockKind
  labels : List String
  file : String
  line : Nat
  body : List Char
  attributes : List Attribute
  deriving DecidableEq, Repr

/-- What a block declares with an address: its type and its name. A module has no type. -/
structure Declared where
  address : String
  kind : String
  type? : Option String
  name : String
  deriving DecidableEq, Repr

namespace Block

/-- The first attribute with a name. -/
def attribute? (b : Block) (name : String) : Option Attribute :=
  b.attributes.find? fun a => a.name == name

/-- The value of an attribute without its quotes, unless it is nested. -/
def value? (b : Block) (name : String) : Option String :=
  match b.attribute? name with
  | some a => if a.isNested then none else some (unquoted a.value)
  | none => none

/-- What a block declares, if it has an address. -/
def declared? (b : Block) : Option Declared :=
  match b.kind, b.labels with
  | .resource, type :: name :: _ => some ⟨type ++ "." ++ name, "resource", some type, name⟩
  | .data, type :: name :: _ => some ⟨"data." ++ type ++ "." ++ name, "data", some type, name⟩
  | .module, name :: _ => some ⟨"module." ++ name, "module", none, name⟩
  | _, _ => none

end Block

/-- The block with a header, whose body stops at a byte offset. -/
def blockOf (f : SourceFile) (index : LineIndex) (kind : BlockKind) (m : Match) (stop : Nat) :
    Block :=
  let body := slice f.content m.stop stop
  { kind
    labels := (quotedLabel.findAll (m.textOf "labels").toList).map (·.text 1)
    file := f.rel
    line := index.lineOf m.start
    body
    attributes := attributesOf body (index.lineOf m.stop) }

/-- The blocks with headers at or behind a byte offset. A header in a block opens no other, and
one whose brace is never closed opens none. -/
def blocksFrom (f : SourceFile) (index : LineIndex) (start : Nat) : List Match → List Block
  | [] => []
  | m :: more =>
      if m.start < start then blocksFrom f index start more
      else match BlockKind.ofWord? (m.textOf "kind"),
          findBalanced .hcl '\x7b' '\x7d' f.content (m.stop - 1) with
        | some kind, some stop => blockOf f index kind m stop :: blocksFrom f index (stop + 1) more
        | _, _ => blocksFrom f index start more

/-- The blocks of a file. -/
def blocksOf (f : SourceFile) : List Block :=
  blocksFrom f (.ofText f.content) 0 (blockHeader.findAll f.content)

end CodeAtlas.Source.Terraform
