import CodeAtlas.Scan
import CodeAtlas.Text.Block
import CodeAtlas.Text.Split

/-!
# Types in script sources

Interfaces, type aliases, classes and enums of TypeScript and JavaScript, and the schemas of a
validation library, with their fields and methods.
-/

namespace CodeAtlas.Source.Script

open Text

/-- The header of a type: its keyword, its name and everything up to its body. -/
def typeHeader : Pattern := .ofString
  r"(?m)^[ \t]*(?:export\s+)?(?:default\s+)?(?:declare\s+)?(?:abstract\s+)?(?:const\s+)?(?P<kind>interface|class|enum|type)\s+(?P<name>[A-Za-z_$][\w$]*)(?P<rest>[^\x7b=;]*(?:=\s*)?)\x7b"

/-- The header of a schema. -/
def schemaHeader : Pattern := .ofString
  r"(?m)^[ \t]*(?:export\s+)?const\s+(?P<name>\w+)\s*=\s*z\.object\(\s*\x7b"

/-- The clause with the types that a type extends. -/
def extendsClause : Pattern := .ofString
  r"\bextends\s+(?P<names>[^\x7b]+?)(?:\s+implements\b|$)"

/-- The clause with the interfaces that a class implements. -/
def implementsClause : Pattern := .ofString
  r"\bimplements\s+(?P<names>[^\x7b]+)"

/-- A member of an interface or a type alias. -/
def typeMember : Pattern := .ofString
  r#"^\s*(?:readonly\s+)?(?P<name>[A-Za-z_$][\w$]*|'[^']+'|"[^"]+")(?P<opt>\?)?\s*:\s*(?P<type>.+?)\s*[;,]?\s*(?://\s*(?P<comment>.*))?$"#

/-- A method of an interface or a type alias. -/
def typeMethod : Pattern := .ofString
  r"^\s*(?P<name>[A-Za-z_$][\w$]*)\??\s*(?:<[^>]*>)?\((?P<params>.*)\)\s*:\s*(?P<ret>.+?);?\s*$"

/-- A field of a class. -/
def classField : Pattern := .ofString
  r"^\s*(?:(?:public|private|protected|readonly|static|declare|override)\s+)*(?P<name>[A-Za-z_$#][\w$]*)(?P<opt>[?!])?\s*(?::\s*(?P<type>[^=;]+?))?\s*(?:=\s*(?P<default>[^;]+?))?\s*;\s*$"

/-- A method of a class. -/
def classMethod : Pattern := .ofString
  r"^\s*(?:(?:public|private|protected|static|async|override|abstract|get|set)\s+)*(?P<name>[A-Za-z_$#][\w$]*)\s*(?:<[^>]*>)?\((?P<params>[^)]*)\)\s*(?::\s*(?P<ret>[^\x7b;]+?))?\s*[\x7b;]?\s*$"

/-- A member of an enum. -/
def enumMember : Pattern := .ofString
  r"^\s*(?P<name>[A-Za-z_$][\w$]*)\s*(?:=\s*(?P<value>[^,]+?))?\s*,?\s*$"

/-- A field of a schema. -/
def schemaField : Pattern := .ofString
  r"^\s*(?P<name>\w+)\s*:\s*z\.(?P<type>\w+)\((?P<rest>.*)$"

/-- The kind of type that a header's keyword declares. -/
def kindOf (keyword : String) : ModelKind :=
  match keyword with
  | "interface" => .interface
  | "type" => .typeAlias
  | "enum" => .enum
  | _ => .class_

/-- The types in a list, where a type may have parameters of its own. -/
def typeList (text : String) : List String :=
  (splitGeneric .slashed ',' text.toList).map String.ofList

/-- A method or a field. -/
abbrev Member := String ⊕ Field

/-- The members in front of the first field that there is no room for. -/
def upToRoom (room : Nat) : List Member → List Member
  | [] => []
  | .inl m :: rest => .inl m :: upToRoom room rest
  | .inr f :: rest =>
      match room with
      | 0 => []
      | room + 1 => .inr f :: upToRoom room rest

/-- The signature of a method. -/
def signature (m : Match) : String := m.textOf "name" ++ "(" ++ trimmed (m.textOf "params") ++ ")"

/-- The field of a member of an interface or a type alias. -/
def typeField (m : Match) : Field :=
  let isEnd (c : Char) : Bool := c == '\x7b' || c == ';' || c == ','
  let type := String.ofList (trim (trimEndWhile isEnd (m.textOf "type").toList))
  { name := unquoted (m.textOf "name")
    type := if type.isEmpty then "object" else type
    description := m.capture? "comment"
    required := (m.named? "opt").isNone }

/-- What a line of an interface or a type alias declares. -/
def typeLine? (line : List Char) : Option Member :=
  match typeMethod.find? line with
  | some m => some (.inl (signature m))
  | none => (typeMember.find? line).map fun m => .inr (typeField m)

/-- The members of an interface or a type alias. -/
def typeMembers (body : List Char) : List Member :=
  upToRoom maxFields ((topLines .slashed (lines body)).filterMap typeLine?)

/-- The words that look like methods in front of a parenthesis. -/
def statementWords : List String := ["if", "for", "while", "switch", "catch", "return", "function"]

/-- What a line of a class declares. -/
def classLine? (line : List Char) : Option Member :=
  let text := trim line
  if text.isEmpty || startsWith text ['@'] || startsWith text ['/', '/'] then none
  else match classField.find? line with
    | some m => some (.inr {
        name := m.textOf "name", type := (m.capture? "type").getD "any"
        default := m.capture? "default", required := m.textOf "opt" != "?" })
    | none => do
      let m ← classMethod.find? line
      if statementWords.contains (m.textOf "name") then none else some (.inl (signature m))

/-- The members of a class. -/
def classMembers (body : List Char) : List Member :=
  (topLines .slashed (lines body)).filterMap classLine?

/-- Whether a value is a text. -/
def isQuoted (value : String) : Bool :=
  ['\'', '"', Char.ofNat 96].any fun c => value.toList.head? == some c

/-- The members of an enum. -/
def enumMembers (body : List Char) : List Member :=
  (splitWhere (fun c => c == ',' || c == '\n') body).filterMap fun part =>
    (enumMember.find? part).map fun m =>
      let value := m.capture? "value"
      let isText := (value.map isQuoted).getD false
      .inr { name := m.textOf "name", type := if isText then "string"
        else "number", default := value }

/-- The members of a body. -/
def members (kind : ModelKind) (body : List Char) : List Member :=
  match kind with
  | .interface | .typeAlias => typeMembers body
  | .enum => enumMembers body
  | _ => classMembers body

/-- The model of a header with a body. -/
def model? (r : Repository) (f : SourceFile) (line : Nat) (m : Match) : Option Model := do
  let body ← braceBody? .slashed f.content m.start
  let kind := kindOf (m.textOf "kind")
  let header := (m.textOf "rest").toList
  let names (clause : Pattern) (text : List Char) : List String :=
    ((clause.find? text).map fun m => typeList (m.textOf "names")).getD []
  let extended := names extendsClause (trim header)
  let implemented := names implementsClause header
  let members := members kind body
  return { r.model f line (m.textOf "name") kind with
    fields := (members.filterMap Sum.getRight?).take maxFields
    methods := (members.filterMap Sum.getLeft?).take maxMethods
    -- an interface may extend several others
    parent := if kind = .interface then none else extended.head?
    interfaces := if kind = .interface then extended ++ implemented else implemented
    decorators := decoratorsAbove (lines f.content) line }

/-- What a field of a schema says about itself in the call of `describe`. -/
def descriptionOf? (rest : List Char) : Option String := do
  let (_, tail) ← cut? ".describe(".toList rest
  let (text, _) ← cut? [')'] tail
  return String.ofList (unquote (trim text))

/-- The field of a line of a schema. -/
def schemaLine? (line : List Char) : Option Field :=
  (schemaField.find? line).map fun m =>
    let rest := m.textOf "rest"
    { name := m.textOf "name", type := m.textOf "type"
      description := descriptionOf? rest.toList
      required := ! [".optional()", ".nullish()", ".default("].any (hasWord rest) }

/-- The model of a schema with a body. -/
def schema? (r : Repository) (f : SourceFile) (line : Nat) (m : Match) : Option Model := do
  let body ← braceBody? .slashed f.content (m.stop - 1)
  return { r.model f line (m.textOf "name") .schema with
    fields := ((topLines .slashed (lines body)).filterMap schemaLine?).take maxFields
    decorators := ["zod"] }

/-- The models of a file, in the order of their lines. -/
def fileModels (r : Repository) (f : SourceFile) : List Model :=
  let types := (f.find typeHeader).filterMap fun (line, m) => model? r f line m
  let schemas := (f.find schemaHeader).filterMap fun (line, m) => schema? r f line m
  (types ++ schemas).mergeSort fun a b => a.line ≤ b.line

end CodeAtlas.Source.Script
