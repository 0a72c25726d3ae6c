import CodeAtlas.Analyzer
import CodeAtlas.Scan
import CodeAtlas.Text.Block
import CodeAtlas.Text.Indent
import CodeAtlas.Text.Split

/-!
# Classes in Python sources

A class is its header, which may go on over several lines, and the block of lines indented deeper
than it. The lines of the block with the indentation of its first line declare methods and fields.
-/

namespace CodeAtlas.Source.Python

open Text

/-- The line where the header of a class starts. -/
def classLine : Pattern := .ofString
  r"(?m)^[ \t]*class\s+\w+"

/-- The header of a class up to its bases. -/
def classHead : Pattern := .ofString
  r"^[ \t]*class\s+(?P<name>\w+)\s*(?:\[[^\]]*\])?\s*"

/-- The header of a method. -/
def methodHeader : Pattern := .ofString
  r"^\s*(?:async\s+)?def\s+(?P<name>\w+)\s*\((?P<params>[^)]*)(?P<close>\))?"

/-- A field with a type. -/
def annotatedField : Pattern := .ofString
  r"^\s*(?P<name>[A-Za-z_]\w*)\s*:\s*(?P<type>[^=#]+?)\s*(?:=\s*(?P<default>[^#]+?))?\s*(?:#\s*(?P<comment>.*))?$"

/-- A name that is given a value. -/
def assignment : Pattern := .ofString
  r"^\s*(?P<name>[A-Za-z_]\w*)\s*=\s*(?P<value>.+?)\s*(?:#.*)?$"

/-- The default in the arguments of a field. -/
def defaultArgument : Pattern := .ofString
  r"\bdefault\s*=\s*(?P<v>[^,)]+)"

/-- The function that makes the default, in the arguments of a field. -/
def factoryArgument : Pattern := .ofString
  r"\bdefault_factory\s*=\s*(?P<v>[^,)]+)"

/-- The description in the arguments of a field. -/
def descriptionArgument : Pattern := .ofString
  r#"\bdescription\s*=\s*['"](?P<v>[^'"]*)['"]"#

/-! ## Names and types -/

/-- The last part of a dotted name, without parameters and arguments. -/
def shortName (name : String) : String :=
  let stem := name.toList.takeWhile fun c => c != '[' && c != '('
  String.ofList (trim ((splitChar '.' stem).getLastD []))

/-- Whether a type admits the absence of a value. -/
def isOptional (type : String) : Bool :=
  let text := type.toList.filter (· != ' ')
  startsWith text "Optional[".toList || containsWord text "|None".toList ||
    startsWith text "None|".toList || text == "Any".toList

/-- The bases that make a class an enum. -/
def enumBases : List String := ["Enum", "IntEnum", "StrEnum", "Flag", "IntFlag"]

/-- The kind of a class, from its decorators and bases. -/
def kindOf (decorators bases : List String) : ModelKind :=
  let has (names : List String) : Bool := bases.any fun b => names.contains (shortName b)
  if decorators.any fun d => shortName d == "dataclass" then .dataclass
  else if has ["BaseModel", "BaseSettings"] then .pydantic
  else if has enumBases then .enum
  else if has ["Protocol"] then .protocol
  else if has ["TypedDict"] then .schema
  else .class_

/-! ## Descriptions -/

/-- The quotes that a description may stand in. -/
def docQuotes : List (List Char) := [List.replicate 3 '"', List.replicate 3 '\'']

/-- The parts of a description in the lines behind its first one, up to the closing quote or to the
first blank line behind some text. -/
def docLines (quote : List Char) (started : Bool) : List (List Char) → List (List Char)
  | [] => []
  | line :: lines =>
      let text := trim line
      match upTo? quote text with
      | some last => [trim last]
      | none =>
          if text.isEmpty && started then []
          else text :: docLines quote (started || !text.isEmpty) lines

/-- The description at the head of a block. -/
def description? (body : List (List Char)) : Option String := do
  let first :: more := body.dropWhile isBlankLine | none
  let opening := (trim first).dropWhile fun c => c == 'r' || c == 'u' || c == 'R' || c == 'U'
  let quote ← docQuotes.find? (startsWith opening)
  let rest := opening.drop quote.length
  let text := match upTo? quote rest with
    | some text => trim text
    | none =>
        let head := trim rest
        let parts := head :: docLines quote (!head.isEmpty) more
        [' '].intercalate (parts.filter fun part => !part.isEmpty)
  if text.isEmpty then none else some (String.ofList text)

/-! ## Members -/

/-- What the initial value of a field says: its default, its description, and whether it says that
the field is required. -/
structure FieldSpec where
  default : Option String := none
  description : Option String := none
  isRequired : Bool := false

/-- The first of a field's arguments, if it has no name. -/
def firstArgument? (arguments : List Char) : Option String := do
  let first ← (splitTopLevel .hash ',' arguments).head?
  if first.contains '=' then none else some (String.ofList first)

/-- Reads the initial value of a field, which may be a call that describes the field. -/
def FieldSpec.ofText (text : List Char) : FieldSpec :=
  match after? "Field(".toList text with
  | none => { default := some (String.ofList text) }
  | some call =>
      let arguments := trim ((before? [')'] call).getD call)
      let description := (descriptionArgument.find? arguments).map (·.textOf "v")
      if startsWith arguments "...".toList then { description, isRequired := true }
      else
        let named := (defaultArgument.find? arguments).map fun m => trimmed (m.textOf "v")
        let made := (factoryArgument.find? arguments).map fun m => trimmed (m.textOf "v") ++ "()"
        { default := (named.or made).or (firstArgument? arguments), description }

/-- The field of a line with a type, unless it belongs to the class as a whole. -/
def annotatedField? (line : List Char) : Option Field := do
  let m ← annotatedField.find? line
  let type := trim (m.textOf "type").toList
  if startsWith type "ClassVar".toList || m.textOf "name" == "model_config" then none
  let type := String.ofList type
  let spec := ((m.capture? "default").map fun d => FieldSpec.ofText d.toList).getD {}
  return {
    name := m.textOf "name", type
    default := spec.default
    description := spec.description.or (m.capture? "comment")
    required := spec.isRequired || (spec.default.isNone && !isOptional type) }

/-- The type of a value of an enum. -/
def enumType (value : List Char) : String :=
  if value.head? == some '"' || value.head? == some '\'' then "str"
  else if startsWith value "auto(".toList then "auto"
  else "int"

/-- The member of an enum that a line declares. -/
def enumField? (line : List Char) : Option Field :=
  (assignment.find? line).map fun m =>
    let value := (m.textOf "value").toList
    { name := m.textOf "name", type := enumType value
      default := some (String.ofList (unquote value)) }

/-- The signature of a method. Parameters that go on behind the line are left out. -/
def signature (m : Match) : String :=
  let params := if (m.named? "close").isSome then trimmed (m.textOf "params") else "..."
  m.textOf "name" ++ "(" ++ params ++ ")"

/-- The member of a class that a line declares. -/
def member? (kind : ModelKind) (line : List Char) : Option (String ⊕ Field) :=
  match methodHeader.find? line with
  | some m => some (.inl (signature m))
  | none => (if kind = .enum then enumField? line else annotatedField? line).map .inr

/-- The members of a block: those of the lines that are indented like its first one. -/
def members (kind : ModelKind) (body : List (List Char)) : List (String ⊕ Field) :=
  match body.find? fun line => !isBlankLine line with
  | none => []
  | some first =>
      (body.filter fun line => !isBlankLine line && indentation line == indentation first).filterMap
        (member? kind)

/-! ## Classes -/

/-- A class: its model, its bases, and the lines of its block with the number, from 0, of the first
one. -/
structure Class where
  model : Model
  bases : List String
  start : Nat
  body : List (List Char)

/-- The header of a class: its name, its bases and the byte offset behind it. -/
structure Header where
  name : String
  bases : List String
  stop : Nat

/-- Reads the header that starts at a byte offset. -/
def header? (text : List Char) (start : Nat) : Option Header := do
  let m ← classHead.find? (← dropBytes? start text)
  let stop := start + m.stop
  let name := m.textOf "name"
  if ((dropBytes? stop text).getD []).head? == some '(' then
    let closer ← findBalanced .hash '(' ')' text stop
    let bases := splitTopLevel .hash ',' (slice text (stop + 1) closer)
    let plain := bases.filter fun b => !b.contains '='
    return { name, bases := plain.map String.ofList, stop := closer + 1 }
  else return { name, bases := [], stop }

/-- Whether a class inside another one only configures it. -/
def isInnerSettings (name : String) : Bool := name == "Config" || name == "Meta"

/-- The failure to read a block that would start behind the end of the text. -/
def blockFailure (stop count : Nat) : Failure :=
  .defect ("range end index " ++ toString stop ++ " out of range for slice of length " ++
    toString count)

/-- The class whose header starts in a line at a byte offset, if it is a model. -/
def class? (r : Repository) (f : SourceFile) (lines : List (List Char)) (line start : Nat) :
    Except Failure (Option Class) :=
  match header? f.content start with
  | none => .ok none
  | some h =>
      if indentation (lines.getD (line - 1) []) > 0 && isInnerSettings h.name then .ok none
      else
        let (first, stop) := indentedBlock lines (lineAt f.content h.stop - 1)
        if stop > lines.length then .error (blockFailure stop lines.length)
        else
          let body := (lines.drop first).take (stop - first)
          let decorators := decoratorsAbove lines line
          let kind := kindOf decorators h.bases
          let inherited := h.bases.filter fun b =>
            b != "object" && !startsWith b.toList "Generic[".toList
          let members := members kind body
          .ok (some {
            model := { r.model f line h.name kind with
              fields := (members.filterMap Sum.getRight?).take maxFields
              methods := (members.filterMap Sum.getLeft?).take maxMethods
              description := description? body
              parent := inherited.head?
              interfaces := inherited.tail
              decorators }
            bases := h.bases, start := first, body })

/-- The classes of a file. -/
def classes (r : Repository) (f : SourceFile) : Except Failure (List Class) := do
  let lines := lines f.content
  let found ← (f.find classLine).mapM fun (line, m) => class? r f lines line m.start
  return found.filterMap id

/-- The models of files. -/
def models (r : Repository) (files : List SourceFile) : Except Failure (List Model) := do
  return (← (untested files).mapM (classes r)).flatten.map (·.model)

end CodeAtlas.Source.Python
