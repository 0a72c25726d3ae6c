import CodeAtlas.Scan
import CodeAtlas.Text.Block
import CodeAtlas.Text.Split

/-!
# Types in Apex sources

Classes, interfaces and enumerations with their members, and triggers. Words may be written in any
case.
-/

namespace CodeAtlas.Source.Salesforce

open Text

/-- The header of a class, an interface or an enumeration. -/
def typeHeader : Pattern := .ofString
  r"(?mi)^[ \t]*(?P<mods>(?:(?:public|private|global|protected|virtual|abstract|static|with\s+sharing|without\s+sharing|inherited\s+sharing)\s+)*)(?P<kind>class|interface|enum)\s+(?P<name>\w+)(?P<rest>[^\x7b;]*)\x7b"

/-- The clause with the type that a type extends. -/
def extendsClause : Pattern := .ofString
  r"(?i)\bextends\s+(?P<name>[\w.]+)"

/-- The clause with the interfaces that a class implements. -/
def implementsClause : Pattern := .ofString
  r"(?i)\bimplements\s+(?P<names>[\w.<>]+(?:\s*,\s*[\w.<>]+)*)"

/-- A line that holds only an annotation. -/
def annotationLine : Pattern := .ofString
  r"^\s*@(?P<name>\w+)(?:\s*\((?P<args>[^)]*)\))?\s*$"

/-- The header of a trigger. -/
def triggerHeader : Pattern := .ofString
  r"(?mi)^\s*trigger\s+(?P<name>\w+)\s+on\s+(?P<object>\w+)\s*\((?P<events>[^)]*)\)"

/-- A line that declares a method. -/
def methodLine : Pattern := .ofString
  r"(?i)^\s*(?:@\w+(?:\([^)]*\))?\s+)*(?:(?:public|private|global|protected|static|override|virtual|abstract|webservice|testmethod)\s+)*(?P<ret>[\w.<>, \[\]]+?)\s+(?P<name>\w+)\s*\((?P<params>[^)]*)\)"

/-- A line that declares a property. -/
def propertyLine : Pattern := .ofString
  r"(?i)^\s*(?:@\w+(?:\([^)]*\))?\s+)*(?P<mods>(?:(?:public|private|global|protected|static|final|transient)\s+)*)(?P<type>[\w.]+(?:<[\w.<>, ]+>)?(?:\[\])?)\s+(?P<name>\w+)\s*(?P<tail>\x7b|=|;)"

/-- A value of an enumeration. -/
def enumValue : Pattern := .ofString
  r"\b(?P<name>[A-Za-z_]\w*)\b"

/-- The words in front of a class that say how it shares records. -/
def sharingModifiers (modifiers : String) : List String :=
  let words := (words (asciiLower modifiers.toList)).map String.ofList
  (words.zip words.tail).filterMap fun (how, word) =>
    if word == "sharing" then some (how ++ "_sharing") else none

/-- The words that start a statement with a call, not a method. -/
def statementWords : List String := ["return", "new", "else", "throw"]

/-- The method of a match with its parameters, unless the line is a statement. -/
def methodOf? (m : Match) : Option String :=
  let last := lastPiece [' '] (trim (m.textOf "ret").toList)
  if statementWords.contains (String.ofList (asciiLower last)) then none
  else some (m.textOf "name" ++ "(" ++ trimmed (m.textOf "params") ++ ")")

/-- The property of a match. -/
def propertyOf (m : Match) : Field where
  name := m.textOf "name"
  type := m.textOf "type"
  required := false
  tag := if hasWord (asciiLowered (m.textOf "mods")) "final" then some "final" else none

/-- The member that a line declares. A line that looks like a method is no property. -/
def member? (line : List Char) : Option (String ⊕ Field) :=
  match methodLine.find? line with
  | some m => (methodOf? m).map .inl
  | none => (propertyLine.find? line).map fun m => .inr (propertyOf m)

/-- The values of an enumeration. -/
def enumValues (body : List Char) : List Field :=
  ((enumValue.findAll body).take maxFields).map fun m =>
    { name := m.textOf "name", type := "enum_value" }

/-- The kind of a type, by the word that declares it. -/
def kindOf (word : String) : ModelKind :=
  match word with
  | "interface" => .interface
  | "enum" => .enum
  | _ => .class_

/-- The names in the clause of a header that lists interfaces. -/
def interfacesIn (header : List Char) : List String :=
  match implementsClause.find? header with
  | some m => (splitChar ',' (m.textOf "names").toList).map fun name => String.ofList (trim name)
  | none => []

/-- The model of a header, unless it declares tests. -/
def model? (r : Repository) (f : SourceFile) (lines : List (List Char)) (line : Nat) (m : Match) :
    Option Model := do
  let annotations := namesAbove annotationLine lines line
  if annotations.any fun a => asciiLowered a == "istest" then none
  let body ← braceBody? .slashed f.content m.start
  let kind := kindOf (asciiLowered (m.textOf "kind"))
  let members := if kind = .enum then []
    else (topLines .slashed (Text.lines body)).filterMap member?
  let header := (m.textOf "rest").toList
  return { r.model f line (m.textOf "name") kind with
    fields := if kind = .enum then enumValues body
      else (members.filterMap Sum.getRight?).take maxFields
    methods := (members.filterMap Sum.getLeft?).take maxMethods
    parent := (extendsClause.find? header).map (·.textOf "name")
    interfaces := interfacesIn header
    decorators := annotations ++ sharingModifiers (m.textOf "mods") }

/-- The events of a trigger. -/
def eventsOf (text : String) : List String :=
  let events := (splitChar ',' text.toList).map fun event =>
    [' '].intercalate (words (asciiLower event))
  (events.filter fun event => !event.isEmpty).map String.ofList

/-- The model of a trigger. -/
def trigger? (r : Repository) (f : SourceFile) (m : Match) : Option Model :=
  (m.named? "name").map fun name =>
    { r.model f (lineAt f.content name.start) name.text .class_ with
      methods := eventsOf (m.textOf "events")
      description := some ("Trigger on " ++ m.textOf "object")
      decorators := ["trigger"] }

/-- The models of a file. -/
def fileModels (r : Repository) (f : SourceFile) : List Model :=
  let lines := Text.lines f.content
  ((f.find typeHeader).filterMap fun (line, m) => model? r f lines line m) ++
    (triggerHeader.findAll f.content).filterMap (trigger? r f)

end CodeAtlas.Source.Salesforce
