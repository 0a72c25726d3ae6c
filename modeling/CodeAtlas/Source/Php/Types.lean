import CodeAtlas.Scan
import CodeAtlas.Text.Block
import CodeAtlas.Text.Split
import CodeAtlas.Text.Indent

/-!
# Types in PHP sources

Classes, interfaces, traits and enums with the properties and methods at the top level of their
bodies.
-/

namespace CodeAtlas.Source.Php

open Text

/-- The header of a type. -/
def typeHeader : Pattern := .ofString
  r"(?m)^[ \t]*(?P<mods>(?:(?:abstract|final|readonly)\s+)*)(?P<kind>class|trait|interface|enum)\s+(?P<name>[A-Za-z_]\w*)(?P<rest>[^\x7b;]*)\x7b"

/-- The clause with the types that a type extends. -/
def extendsClause : Pattern := .ofString
  r"\bextends\s+(?P<names>[\w\\]+(?:\s*,\s*[\w\\]+)*)"

/-- The clause with the interfaces that a type implements. -/
def implementsClause : Pattern := .ofString
  r"\bimplements\s+(?P<names>[\w\\]+(?:\s*,\s*[\w\\]+)*)"

/-- A property with its type. -/
def typedProperty : Pattern := .ofString
  r"^\s*(?:public|protected|private|var)(?:\s+(?:static|readonly))*\s+(?P<type>\??[\w\\|]+)\s+\$(?P<name>\w+)\s*(?:=\s*(?P<default>.*?))?\s*;\s*(?://.*)?$"

/-- A property without a type. -/
def untypedProperty : Pattern := .ofString
  r"^\s*(?:public|protected|private|var)(?:\s+(?:static|readonly))*\s+\$(?P<name>\w+)\s*(?:=\s*(?P<default>.*?))?\s*;?\s*(?://.*)?$"

/-- The header of a method. -/
def methodHeader : Pattern := .ofString
  r"^\s*(?:(?:public|protected|private|static|abstract|final)\s+)*function\s+&?(?P<name>\w+)\s*\((?P<params>[^)]*)\)(?:\s*:\s*(?P<ret>\??[\w\\|]+))?"

/-- The kind of type that a header's keyword declares. -/
def kindOf (keyword : String) : ModelKind :=
  match keyword with
  | "interface" => .interface
  | "trait" => .trait
  | "enum" => .enum
  | _ => .class_

/-- The names in a clause of a header, if it has the clause. -/
def clauseNames (clause : Pattern) (header : String) : List String :=
  match clause.find? header.toList with
  | some m => (splitChar ',' (m.textOf "names").toList).map fun name => String.ofList (trim name)
  | none => []

/-- The signature of a method. -/
def signature (m : Match) : String :=
  let result := ((m.named? "ret").map fun ret => ": " ++ ret.text).getD ""
  m.textOf "name" ++ "(" ++ trimmed (m.textOf "params") ++ ")" ++ result

/-- The property that a line with a type declares. -/
def typedField (m : Match) : Field :=
  let type := m.textOf "type"
  let nullable := type.toList.head? == some '?' || hasWord type "null"
  let default := m.capture? "default"
  { name := m.textOf "name", type := String.ofList (type.toList.dropWhile (· == '?')), default
    required := !nullable && default.isNone }

/-- The property that a line without a type declares. An initial value that goes on behind the line
is left out. -/
def untypedField (line : List Char) (m : Match) : Field :=
  let isWhole := endsWith (trimEnd line) [';']
  { name := m.textOf "name", type := "mixed", required := false
    default := if isWhole then m.capture? "default" else none }

/-- The property that a line declares. -/
def field? (line : List Char) : Option Field :=
  match typedProperty.find? line with
  | some m => some (typedField m)
  | none => (untypedProperty.find? line).map (untypedField line)

/-- What a line at the top level of a body declares: a method or a property. -/
def member (line : List Char) : Option (String ⊕ Field) :=
  match methodHeader.find? line with
  | some m => some (.inl (signature m))
  | none => (field? line).map .inr

/-- The modifiers of a header that are kept. -/
def modifiers (m : Match) : List String :=
  ["abstract", "final"].filter (hasWord (m.textOf "mods"))

/-- The model of a header with a body. -/
def model? (r : Repository) (f : SourceFile) (line : Nat) (m : Match) : Option Model := do
  let body ← braceBody? .php f.content m.start
  let kind := kindOf (m.textOf "kind")
  let header := m.textOf "rest"
  let extended := clauseNames extendsClause header
  let implemented := clauseNames implementsClause header
  let members := (topLines .php (lines body)).filterMap member
  let markers := ["/**", "*/", "*", "//"].map String.toList
  return { r.model f line (m.textOf "name") kind with
    fields := (members.filterMap Sum.getRight?).take maxFields
    methods := (members.filterMap Sum.getLeft?).take maxMethods
    description := (docComment? (lines f.content) line markers).map String.ofList
    -- an interface may extend several others
    parent := if kind = .interface then none else extended.head?
    interfaces := if kind = .interface then extended ++ implemented else implemented
    decorators := modifiers m }

/-- The models of a file. -/
def fileModels (r : Repository) (f : SourceFile) : List Model :=
  (f.find typeHeader).filterMap fun (line, m) => model? r f line m

end CodeAtlas.Source.Php
