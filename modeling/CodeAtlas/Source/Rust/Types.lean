import CodeAtlas.Scan
import CodeAtlas.Text.Block
import CodeAtlas.Text.Split

/-!
# Types in Rust sources

Structs, enums, traits and type aliases, with the attributes and the documentation above them, and
the implementations that belong to them.
-/

namespace CodeAtlas.Source.Rust

open Text

/-! ## Implementations

An implementation block adds methods to a type, or says that the type has a trait. Its header may
have generic parameters, which do not matter for what the block is for.
-/

/-- The header of an implementation block. -/
def implHeader : Pattern := .ofString
  r"(?m)^[ \t]*(?:unsafe\s+)?impl\b(?P<header>[^\x7b;]*)\x7b"

/-- The header of a function. -/
def functionHeader : Pattern := .ofString
  r#"^\s*(?:pub(?:\([^)]*\))?\s+)?(?:(?:const|async|unsafe|default)\s+|extern\s+"[^"]*"\s+)*fn\s+(?P<name>\w+)"#

/-- The names of the functions at the top level of a body. -/
def functionNames (body : List Char) : List String :=
  ((topLines .rust (lines body)).filterMap fun line =>
    (functionHeader.find? line).map (·.textOf "name")).take maxMethods

/-- Whether a character may stand in a name. -/
def isNameChar (c : Char) : Bool := Unicode.isAlphanumeric c || c == '_'

/-- The last name in the path of a type, without references and generic arguments. -/
def baseName? (type : List Char) : Option String :=
  let referenced := trimStartWord "mut ".toList ((trim type).dropWhile (· == '&'))
  let name := trim (lastPiece [':', ':'] (upTo ['<'] (trim referenced)))
  if !name.isEmpty && name.all isNameChar then some (String.ofList name) else none

/-- What a block is for: a type, and the trait if the block is about one. -/
structure ImplTarget where
  trait : Option String
  type : String
  deriving DecidableEq, Repr

/-- A text with single spaces between its words. -/
def singleSpaced (text : List Char) : List Char := [' '].intercalate (words text)

/-- The header without its generic parameters. There is none if they are not closed. -/
def dropParameters? (header : List Char) : Option (List Char) :=
  if header.head? == some '<' then do
    let stop ← findBalanced .rust '<' '>' header 0
    return trim (← dropBytes? (stop + 1) header)
  else some header

/-- What the block with a header is for. -/
def implTarget? (header : List Char) : Option ImplTarget := do
  let bare ← dropParameters? (singleSpaced header)
  let text := trim (upTo " where ".toList bare)
  match cut? " for ".toList text with
  | some (trait, type) => return { trait := baseName? trait, type := ← baseName? type }
  | none => return { trait := none, type := ← baseName? text }

/-- An implementation block: what it is for and the functions in its body. -/
structure Impl where
  target : ImplTarget
  functions : List String

/-- The implementation blocks of a file. -/
def impls (f : SourceFile) : List Impl :=
  (implHeader.findAll f.content).filterMap fun m => do
    let target ← implTarget? (m.textOf "header").toList
    let body ← delimitedBody? .rust f.content (m.stop - 1)
    return { target, functions := functionNames body }

/-- The methods that blocks add to a type. -/
def methodsOf (impls : List Impl) (type : String) : List String :=
  impls.flatMap fun i => if i.target.type == type && i.target.trait.isNone then i.functions else []

/-- The traits that blocks say a type has. -/
def traitsOf (impls : List Impl) (type : String) : List String :=
  addNew [] (impls.filterMap fun i => if i.target.type == type then i.target.trait else none)

/-! ## Types -/

/-- The keyword and the name of a type. -/
def typeHeader : Pattern := .ofString
  r"(?m)^[ \t]*(?P<vis>pub(?:\([^)]*\))?\s+)?(?:unsafe\s+)?(?P<kind>struct|enum|trait)\s+(?P<name>[A-Za-z_]\w*)"

/-- The definition of a type alias. -/
def aliasLine : Pattern := .ofString
  r"(?m)^(?:pub(?:\([^)]*\))?\s+)?type\s+(?P<name>[A-Za-z_]\w*)(?:<[^=]*>)?\s*=\s*(?P<value>[^;]+);"

/-- A line that declares a field. -/
def fieldLine : Pattern := .ofString
  r"^\s*(?:pub(?:\([^)]*\))?\s+)?(?P<name>r#\w+|[a-z_]\w*)\s*:\s*(?P<type>.+)$"

/-- A line that declares a variant. -/
def variantLine : Pattern := .ofString
  r"^\s*(?P<name>[A-Z]\w*)\s*(?P<rest>.*)$"

/-- The attribute that lists the traits to derive. -/
def deriveAttribute : Pattern := .ofString
  r"^#\[derive\((?P<list>[^)]*)\)\]"

/-- The name of an attribute. -/
def attributeName : Pattern := .ofString
  r"^#\[(?P<name>[\w:]+)"

/-- The attribute that gives a field a default. -/
def defaultAttribute : Pattern := .ofString
  r#"\bdefault(?:\s*=\s*"(?P<path>[^"]+)")?"#

/-! ## What stands above a declaration -/

/-- The lines above a declaration: its attributes and its documentation. -/
structure Preamble where
  attributes : List (List Char) := []
  documentation : List (List Char) := []

/-- Reads the lines above a declaration from the lowest one up. -/
def Preamble.ofLinesUp : List (List Char) → Preamble
  | [] => {}
  | line :: lines =>
      let text := trim line
      if startsWith text ['#', '['] then
        let p := ofLinesUp lines
        { p with attributes := p.attributes ++ [text] }
      else match after? "///".toList text with
        | some doc =>
            let p := ofLinesUp lines
            let doc := trim doc
            if doc.isEmpty then p else { p with documentation := p.documentation ++ [doc] }
        | none => {}

/-- The preamble of the declaration in a line. -/
def preamble (lines : List (List Char)) (line : Nat) : Preamble :=
  .ofLinesUp (lines.take (line - 1)).reverse

/-- The documentation as one text. -/
def Preamble.description? (p : Preamble) : Option String :=
  if p.documentation.isEmpty then none else some (String.ofList ([' '].intercalate p.documentation))

/-- The traits that an attribute derives, or its name. -/
def attributeNames (text : List Char) : List String :=
  match deriveAttribute.find? text with
  | some m =>
      let names := (splitChar ',' (m.textOf "list").toList).map fun d =>
        lastPiece [':', ':'] (trim d)
      (names.filter fun name => !name.isEmpty).map String.ofList
  | none => ((attributeName.find? text).map (·.textOf "name")).toList

/-! ## Bodies -/

/-- Whether a type admits the absence of a value. -/
def isOptional (type : List Char) : Bool := startsWith type "Option<".toList

/-- The type of a field, without a comment and the comma behind it. -/
def fieldType (text : List Char) : List Char :=
  trim (trimEndWhile (· == ',') (trim (upTo " //".toList text)))

/-- The serialization attributes among some attributes, without brackets. -/
def serdeAttributes (attributes : List (List Char)) : List (List Char) :=
  (attributes.filter fun a => startsWith a "#[serde(".toList).map fun a =>
    trimEndWhile (· == ']') (a.drop 2)

/-- The field with what its serialization attributes say. -/
def withSerde (attributes : List (List Char)) (field : Field) : Field :=
  let serde := serdeAttributes attributes
  if serde.isEmpty then field
  else
    let defaults := serde.filterMap fun a => (defaultAttribute.find? a).map fun m =>
      match m.capture? "path" with
      | some path => path ++ "()"
      | none => "Default::default()"
    { field with
      default := defaults.getLast?
      required := field.required && defaults.isEmpty
      tag := some (String.ofList ([' '].intercalate serde)) }

/-- The field of a match, with the attributes and the documentation in front of it. -/
def namedField (attributes docs : List (List Char)) (m : Match) : Field :=
  let name := (m.textOf "name").toList
  let type := fieldType (m.textOf "type").toList
  let doc := trim ([' '].intercalate docs)
  withSerde attributes {
    name := String.ofList ((after? ['r', '#'] name).getD name)
    type := String.ofList type
    description := if doc.isEmpty then none else some (String.ofList doc)
    required := !isOptional type }

/-- The fields that lines declare, behind some attributes and documentation. -/
def namedFields (attributes docs : List (List Char)) : List (List Char) → List Field
  | [] => []
  | line :: lines =>
      let text := trim line
      match after? "///".toList text with
      | some doc => namedFields attributes (docs ++ [trim doc]) lines
      | none =>
          if startsWith text ['#', '['] then namedFields (attributes ++ [text]) docs lines
          else match fieldLine.find? line with
            | some m => namedField attributes docs m :: namedFields [] [] lines
            | none =>
                if text.isEmpty || startsWith text ['/', '/'] then namedFields attributes docs lines
                else namedFields [] [] lines

/-- The fields of a struct in braces. -/
def structFields (body : List Char) : List Field := namedFields [] [] (topLines .rust (lines body))

/-- The fields of a struct in parentheses, named by their places. -/
def tupleFields (body : List Char) : List Field :=
  (splitGeneric .rust ',' body).zipIdx.map fun (part, i) =>
    let type := trim (trimStartWord "pub ".toList part)
    { name := toString i, type := String.ofList type, required := !isOptional type }

/-- The shape of a variant, from what follows its name. -/
def variantShape (rest : List Char) : String :=
  match rest with
  | '(' :: _ => "tuple"
  | '\x7b' :: _ => "struct"
  | _ => "unit"

/-- The variant that a line declares, as a field. -/
def variant? (line : List Char) : Option Field :=
  let text := trim line
  if startsWith text ['/', '/'] || startsWith text ['#', '['] then none
  else (variantLine.find? line).map fun m =>
    let rest := trim (m.textOf "rest").toList
    let value := (after? ['='] rest).map fun v =>
      String.ofList (trim (trimEndWhile (· == ',') (trim v)))
    { name := m.textOf "name", type := variantShape rest, default := value, required := false }

/-- The variants of an enum. -/
def variants (body : List Char) : List Field := (topLines .rust (lines body)).filterMap variant?

/-! ## Models -/

/-- The kind of type that a keyword declares. -/
def kindOf (keyword : String) : ModelKind :=
  match keyword with
  | "enum" => .enum
  | "trait" => .trait
  | _ => .struct

/-- What follows the name of a type, from the text in which its header starts. -/
def afterName? (keyword name : String) (text : List Char) : Option (List Char) := do
  let (_, rest) ← cut? keyword.toList text
  let (_, rest) ← cut? name.toList rest
  return rest

/-- What the body of a type declares: its fields and its functions. -/
def declared (kind : ModelKind) (rest : List Char) : List Field × List String :=
  let rest := rest.dropWhile fun c => c != '\x7b' && c != '(' && c != ';'
  match kind, rest.head?, delimitedBody? .rust rest 0 with
  | .struct, some '\x7b', some body => (structFields body, [])
  | .struct, some '(', some body => (tupleFields body, [])
  | .enum, some '\x7b', some body => (variants body, [])
  | .trait, some '\x7b', some body => ([], functionNames body)
  | _, _, _ => ([], [])

/-- The model of a header. -/
def model? (r : Repository) (f : SourceFile) (lines : List (List Char)) (m : Match) :
    Option Model := do
  let name ← m.named? "name"
  let keyword := m.textOf "kind"
  let kind := kindOf keyword
  let rest ← afterName? keyword name.text (← dropBytes? m.start f.content)
  let line := lineAt f.content name.start
  let above := preamble lines line
  let (fields, functions) := declared kind rest
  return { r.model f line name.text kind with
    fields := fields.take maxFields
    methods := functions
    description := above.description?
    decorators := above.attributes.flatMap attributeNames }

/-- The model of a type alias; its value is its parent. -/
def alias? (r : Repository) (f : SourceFile) (lines : List (List Char)) (m : Match) :
    Option Model :=
  (m.named? "name").map fun name =>
    let line := lineAt f.content name.start
    { r.model f line name.text .typeAlias with
      description := (preamble lines line).description?
      parent := some (trimmed (m.textOf "value")) }

/-- The models of a file, in the order of their lines. -/
def fileModels (r : Repository) (f : SourceFile) : List Model :=
  let lines := lines f.content
  let types := (typeHeader.findAll f.content).filterMap (model? r f lines)
  let aliases := (aliasLine.findAll f.content).filterMap (alias? r f lines)
  (types ++ aliases).mergeSort fun a b => a.line ≤ b.line

/-- The model with what implementation blocks add to it. -/
def withImpls (impls : List Impl) (m : Model) : Model :=
  if m.kind = .struct ∨ m.kind = .enum then
    { m with
      methods := (m.methods ++ methodsOf impls m.name).take maxMethods
      interfaces := m.interfaces ++ traitsOf impls m.name }
  else m

/-- The models of files, with the implementation blocks of all of them. -/
def models (r : Repository) (files : List SourceFile) : List Model :=
  let files := untested files
  let impls := files.flatMap impls
  (files.flatMap (fileModels r)).map (withImpls impls)

end CodeAtlas.Source.Rust
