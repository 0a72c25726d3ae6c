import CodeAtlas.Scan
import CodeAtlas.Text.Block
import CodeAtlas.Text.Split
import CodeAtlas.Text.Indent

/-!
# Types in Go sources

Structs and interfaces, alone or in a group, with the fields, embedded types and methods that their
bodies declare. The methods of a struct stand outside its body, in any file.
-/

namespace CodeAtlas.Source.Go

open Text

/-- The header of a struct or an interface. -/
def typeHeader : Pattern := .ofString
  r"(?m)^\s*type\s+(?P<name>[A-Za-z_]\w*)(?:\[[^\]]*\])?\s+(?P<kind>struct|interface)\s*\x7b"

/-- The opening of a group of types. -/
def groupHeader : Pattern := .ofString r"(?m)^type\s*\("

/-- The header of a struct or an interface in a group. -/
def groupedHeader : Pattern := .ofString
  r"(?m)^\s*(?P<name>[A-Za-z_]\w*)\s+(?P<kind>struct|interface)\s*\x7b"

/-- A line that declares fields. -/
def fieldLine : Pattern := .ofString
  r"^\s*(?P<names>[A-Za-z_]\w*(?:\s*,\s*[A-Za-z_]\w*)*)\s+(?P<type>[^\s`/][^`]*?)\s*(?:`(?P<tag>[^`]*)`)?\s*(?://\s*(?P<comment>.*))?$"

/-- A line that embeds a type. -/
def embeddedLine : Pattern := .ofString
  r"^\s*\*?(?P<name>[A-Za-z_][\w.]*)\s*(?:`[^`]*`)?\s*(?://.*)?$"

/-- A line that declares a method of an interface. -/
def methodLine : Pattern := .ofString r"^\s*(?P<name>[A-Za-z_]\w*)\s*(?P<sig>\(.*)$"

/-- The header of a method with its receiver. -/
def receiverMethod : Pattern := .ofString
  r"(?m)^func\s*\(\s*\w*\s*\*?\s*(?P<recv>[A-Za-z_]\w*)(?:\[[^\]]*\])?\s*\)\s*(?P<name>[A-Za-z_]\w*)\s*(?P<sig>\([^\x7b\n]*)"

/-- A key and its value in the tag of a field. -/
def tagPair : Pattern := .ofString r#"(?P<k>\w+):"(?P<v>[^"]*)""#

/-- A type that a file declares: its name, whether it is an interface, and where the name starts. -/
structure Declaration where
  name : String
  isInterface : Bool
  start : Nat

/-- The declaration that a match of a header gives, in a text that starts at `offset`. -/
def Declaration.ofMatch? (offset : Nat) (m : Match) : Option Declaration :=
  (m.named? "name").map fun name =>
    { name := name.text, isInterface := m.textOf "kind"
      == "interface", start := offset + name.start }

/-- The declarations in the lines of a group, the first of which starts at `offset`. -/
def groupedDeclarations (depth : Int) (offset : Nat) : List (List Char) → List Declaration
  | [] => []
  | line :: lines =>
      let found? := if depth = 0 then groupedHeader.find? line
        >>= Declaration.ofMatch? offset else none
      found?.toList ++
        groupedDeclarations (depth + lineDepthDelta .slashed line) (offset + byteLength line) lines

/-- The declarations in the group whose bracket opens at `start`. -/
def groupDeclarations (text : List Char) (start : Nat) : List Declaration :=
  match findBalanced .slashed '(' ')' text start with
  | some stop => groupedDeclarations 0 (start + 1) (brokenLines (slice text (start + 1) stop))
  | none => []

/-- The declarations of a file, in their order. -/
def declarations (text : List Char) : List Declaration :=
  let single := (typeHeader.findAll text).filterMap (Declaration.ofMatch? 0)
  let grouped := (groupHeader.findAll text).flatMap fun m => groupDeclarations text (m.stop - 1)
  (single ++ grouped).mergeSort fun a b => a.start ≤ b.start

/-- Whether the tag of a field says that it may be left out. -/
def isOptionalTag (tag : String) : Bool :=
  (tagPair.findAll tag.toList).any fun m =>
    m.textOf "k" == "json" &&
      ((splitChar ',' (m.textOf "v").toList).drop 1).contains "omitempty".toList

/-- The fields that a match of a field line declares. -/
def fieldsOf (m : Match) : List Field :=
  let type := trim (trimEndWhile (· == '\x7b') (trim (m.textOf "type").toList))
  let tag := m.capture? "tag"
  (splitChar ',' (m.textOf "names").toList).map fun name =>
    { name := String.ofList (trim name)
      type := String.ofList type
      description := m.capture? "comment"
      required := !(tag.map isOptionalTag).getD false
      tag }

/-- What the body of a type declares. -/
structure Body where
  fields : List Field := []
  embedded : List String := []
  methods : List String := []

/-- Puts what a line declares in front of the rest. -/
def Body.append (a b : Body) : Body :=
  { fields := a.fields ++ b.fields, embedded := a.embedded ++ b.embedded
    methods := a.methods ++ b.methods }

/-- The bodies of several lines as one. -/
def Body.join (bodies : List Body) : Body := bodies.foldr Body.append {}

/-- The name of the type that a line embeds. -/
def embeddedBy (line : List Char) : Body :=
  { embedded := ((embeddedLine.find? line).map (·.textOf "name")).toList }

/-- What a line of a struct declares. -/
def structLine (line : List Char) : Body :=
  let text := trim line
  if text.isEmpty || startsWith text ['/', '/'] then {}
  else match fieldLine.find? line with
    | some m => { fields := fieldsOf m }
    | none => embeddedBy line

/-- What a line of an interface declares. -/
def interfaceLine (line : List Char) : Body :=
  match methodLine.find? line with
  | some m => { methods := [m.textOf "name" ++ trimmed (m.textOf "sig")] }
  | none => embeddedBy line

/-- The body of a struct. Its lines may also end with semicolons. -/
def structBody (text : List Char) : Body :=
  .join ((topLines .slashed (splitWhere (fun c => c == '\n' || c == ';') text)).map structLine)

/-- The body of an interface. -/
def interfaceBody (text : List Char) : Body :=
  .join ((topLines .slashed (lines text)).map interfaceLine)

/-- The model of a declaration that has a body. The first type that a struct embeds is its
parent. -/
def Declaration.model? (r : Repository) (f : SourceFile) (d : Declaration) : Option Model := do
  let text ← braceBody? .slashed f.content d.start
  let line := lineAt f.content d.start
  let base : Model := {
    name := d.name, kind := if d.isInterface then .interface else .struct
    file := f.rel, line
    description := (docComment? (lines f.content) line [['/', '/']]).map String.ofList
    sourceLink := r.sourceLink f.rel line }
  if d.isInterface then
    let body := interfaceBody text
    return { base with methods := body.methods.take maxMethods, interfaces := body.embedded }
  else
    let body := structBody text
    return { base with
      fields := body.fields.take maxFields
      parent := body.embedded.head?, interfaces := body.embedded.tail }

/-- Adds a method to the first struct with the receiver's name, if it has room for one more. -/
def addMethod (receiver signature : String) : List Model → List Model
  | [] => []
  | m :: models =>
      if m.name == receiver && m.kind == .struct then
        (if m.methods.length < maxMethods
          then { m with methods := m.methods ++ [signature] } else m)
          :: models
      else m :: addMethod receiver signature models

/-- The methods with receivers in a file: the receiver and the signature of each. -/
def receiverMethods (f : SourceFile) : List (String × String) :=
  (receiverMethod.findAll f.content).map fun m =>
    (m.textOf "recv", m.textOf "name" ++ trimmed (m.textOf "sig"))

/-- The models of all files. -/
def models (r : Repository) (files : List SourceFile) : List Model :=
  let files := untested files
  let found := files.flatMap fun f => (declarations f.content).filterMap (·.model? r f)
  (files.flatMap receiverMethods).foldl (fun models (receiver, m) => addMethod receiver m models)
    found

end CodeAtlas.Source.Go
