import CodeAtlas.CommandLine.Command
import CodeAtlas.Facts.Analysis
import CodeAtlas.Graph.Query
import CodeAtlas.Json.Printer
import CodeAtlas.Language.Basic

/-!
# Reports

What the program prints about an analysis, about the languages of a repository and about a store.
-/

namespace CodeAtlas.CommandLine

/-- The text filled up with spaces on the right. -/
def padRight (n : Nat) (s : String) : String :=
  s ++ String.ofList (List.replicate (n - s.length) ' ')

/-- The text filled up with spaces on the left. -/
def padLeft (n : Nat) (s : String) : String :=
  String.ofList (List.replicate (n - s.length) ' ') ++ s

/-- The lines as a text. -/
def textOfLines (lines : List String) : String := String.join (lines.map (· ++ "\n"))

/-- The lines in front of a report. -/
def headerLines : List String := ["", "  " ++ programName ++ " v" ++ version, ""]

/-- A line with a label. -/
def labelLine (label value : String) : String := "  " ++ padRight 10 label ++ value

/-- The most items that a list in a report has. -/
def maxListed : Nat := 20

/-- The lines of a list with a title, if it has items. -/
def listLines {α : Type} (title : String) (items : List α) (line : α → String) : List String :=
  let elided := items.length - maxListed
  let more := if elided = 0 then [] else
    ["    ... and " ++ toString elided ++ " more (use --format json)"]
  if items.isEmpty then []
  else ["  " ++ title ++ " (" ++ toString items.length ++ "):"] ++
    (items.take maxListed).map line ++ more ++ [""]

/-- The line of an endpoint. -/
def endpointLine (e : Endpoint) : String :=
  let line := if e.line = 0 then "" else ":" ++ toString e.line
  "    " ++ padRight 8 e.method ++ padRight 40 e.path ++ e.file ++ line

/-- The line of a model. -/
def modelLine (m : Model) : String :=
  "    " ++ padRight 32 m.name ++ padRight 12 m.kind.label ++ toString m.fields.length ++ " fields"

/-- The line with the numbers of facts. -/
def countLine (s : Summary) : String :=
  let counts := [(s.models, "models"), (s.endpoints, "endpoints"), (s.sideEffects, "side effects"),
    (s.settings, "config"), (s.dependencies, "dependencies")]
  let errors := if s.errors = 0 then "" else "  " ++ toString s.errors ++ " errors"
  " " ++ String.join (counts.map fun (n, label) => " " ++ toString n ++ " " ++ label) ++ errors

/-- The lines about a diagram, if it has resources. -/
def diagramLines (d? : Option Infra.Diagram) : List String :=
  match d? with
  | some d =>
      if d.isEmpty then []
      else ["  Infrastructure (" ++ toString d.resources.length ++ " resources)", ""]
  | none => []

/-- The lines about errors, if there are any. All are listed. -/
def errorLines (errors : List String) : List String :=
  if errors.isEmpty then []
  else ["  Errors (" ++ toString errors.length ++ "):"] ++
    errors.map ("    ERROR " ++ ·) ++ [""]

/-- The report on the analysis of a path, with the path of the configuration. -/
def analysisReport (path : String) (config? : Option String) (a : Analysis) : String :=
  textOfLines (headerLines ++
    [labelLine "Scanning:" path] ++ (config?.map (labelLine "Config:")).toList ++
    [labelLine "Language:" a.language, "", countLine a.summary, ""] ++
    listLines "Endpoints" a.endpoints endpointLine ++
    listLines "Models" a.models modelLine ++
    diagramLines a.infrastructure ++ errorLines a.errors ++
    [if a.errors.isEmpty then "  ✓ COMPLETE" else "  ✗ PARTIAL", ""])

/-- The analysis of a path as a document. -/
def analysisDocument (path : String) (a : Analysis) : String :=
  let report : Json := .obj [("version", .str version), ("path", .str path),
    ("summary", a.summary.toJson), ("result", a.toJson)]
  report.renderPretty ++ "\n"

/-- The report on the languages of a path. -/
def languageReport (path : String) (primary? : Option Language) (all : List Language) : String :=
  let others := (all.filter fun l => primary? != some l).map Language.label
  textOfLines (headerLines ++ [labelLine "Scanning:" path,
    labelLine "Primary:" ((primary?.map Language.label).getD "none")] ++
    (if others.isEmpty then [] else [labelLine "Also:" (String.intercalate ", " others)]) ++ [""])

/-- The lines of numbers by type. -/
def typeLines (counts : List (String × Nat)) : List String :=
  counts.map fun (type, n) => "    " ++ padRight 16 type ++ " " ++ padLeft 5 (toString n)

/-- The report on a store. -/
def storeReport (store : String) (s : Graph.Statistics) (documents : Nat) (agents : List String) :
    String :=
  textOfLines (headerLines ++ [labelLine "Store:" store, "",
    "  Entities: " ++ toString s.totalEntities] ++ typeLines s.entityCounts ++ ["",
    "  Relations: " ++ toString s.totalRelations] ++ typeLines s.relationCounts ++ ["",
    labelLine "Components:" (toString s.connectedComponents),
    labelLine "Documents:" (toString documents)] ++
    (if agents.isEmpty then [] else [labelLine "Agents:" (String.intercalate ", " agents)]) ++ [""])

end CodeAtlas.CommandLine
