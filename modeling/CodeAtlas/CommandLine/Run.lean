import CodeAtlas.Assist.Survey
import CodeAtlas.CommandLine.Report
import CodeAtlas.Config.Reader
import CodeAtlas.Files.Change
import CodeAtlas.Graph.Lift
import CodeAtlas.Language.Detect
import CodeAtlas.Store.Basic
import CodeAtlas.Survey
import CodeAtlas.Text.Literal

/-!
# Running commands

A command is run in a world: a tree of files and the time. It prints, ends with a code and may
change the files.
-/

namespace CodeAtlas.CommandLine

/-- Where a command is run. -/
structure World where
  tree : Tree
  now : Instant

/-- How a command ends. -/
structure Outcome where
  code : Nat := 0
  output : String := ""
  errors : String := ""
  /-- Whether the arguments make no sense. -/
  isMisuse : Bool := false
  deriving DecidableEq, Repr

/-- The code for something that was not found, or not all of it. -/
def failureCode : Nat := 1

/-- The code for a command that cannot be run. -/
def errorCode : Nat := 2

/-- The outcome of a command that cannot be run. -/
def refusal (message : String) : Outcome :=
  { code := errorCode, errors := "Error: " ++ message ++ "\n" }

/-- The outcome of a command that prints a report. -/
def reported (isFine : Bool) (output : String) : Outcome :=
  { code := if isFine then 0 else failureCode, output }

/-! ## Targets -/

/-- What is known about a target before it is analyzed. -/
structure Prepared where
  root : Path
  config : Config
  configFile : Option Location
  scope : Scope
  languages : List Language
  asksModel : Bool

/-- The location of the root, from the top. -/
def Prepared.location (p : Prepared) : Location := p.root.absolute

/-- The root of a target. -/
def rootOf (t : Tree) (l : Location) : Except String Path :=
  match t.trace l with
  | .error e => .error ("cannot access path " ++ quotedText l ++ ": " ++ e.message)
  | .ok root => if t.isFolder root then .ok root else .error ("not a directory: " ++ root.absolute)

/-- Prepares the analysis of a target. What is given goes before what is configured. -/
def prepare (w : World) (t : Target) : Except String Prepared := do
  let root ← rootOf w.tree t.path
  let (config, configFile) ← (Config.load w.tree root.absolute t.config).mapError (·.message)
  let configured ← config.knownLanguages
  let given ← Config.readLanguages t.languages
  return {
    root, config, configFile
    scope := { config.scope with
      baseUrl := t.baseUrl.or config.baseUrl, branch := t.branch.or config.branch }
    languages := if given.isEmpty then configured else given
    asksModel := t.asksModel || config.assist.isEnabled }

/-- The analysis of a target. No model can be reached from here, so its questions stay without
answers. -/
def analysisOf (w : World) (p : Prepared) : Analysis :=
  let a := analyzeRepository p.scope w.tree p.location p.languages
  if !p.asksModel then a
  else
    let r := p.scope.repository w.tree p.location
    let language := ((Language.primary? r).map Language.label).getD "unknown"
    let assisted := Assist.survey (fun _ _ => none) r p.config.assist.options language
    a.merge { assisted with dependencies := [] }

/-! ## Commands -/

/-- Prints the analysis of a target. -/
def runAnalyze (w : World) (t : Target) (format : String) : Outcome :=
  if format != "pretty" && format != "json" then
    refusal ("invalid format " ++ quotedText format ++ ", must be 'pretty' or 'json'")
  else match prepare w t with
    | .error message => refusal message
    | .ok p =>
        let a := analysisOf w p
        reported a.errors.isEmpty (if format == "json" then analysisDocument t.path a
          else analysisReport t.path p.configFile a)

/-- The name of the service in the repository at a root. -/
def serviceName (root : Path) : String := if root.fileName.isEmpty then "service" else root.fileName

/-- Where the store of a target is. -/
def storeOf (p : Prepared) (given? : Option Location) : Location :=
  given?.getD (p.config.storeLocation p.location)

/-- Adds the analysis of a target to a store and prints what is in it. -/
def runBuild (w : World) (t : Target) (store? : Option Location) (name? : Option String) :
    Outcome × Tree :=
  match prepare w t with
  | .error message => (refusal message, w.tree)
  | .ok p =>
      let dir := storeOf p store?
      let name := name?.getD (serviceName p.root)
      let a := analysisOf w p
      let store := (Store.new dir agentVersion).load w.tree
      let (graph, _) := store.graph.lift w.now name p.scope.baseUrl a
      let store := { store with graph }
      let (tree, fault?) := store.save w.tree
      match fault? with
      | some f => (refusal f.message, tree)
      | none =>
          let agents := ((store.listCheckpoints tree).toOption).getD []
          let report := storeReport dir graph.statistics store.documents.length agents
          (reported a.errors.isEmpty report, tree)

/-- Prints the languages of a repository. -/
def runDetect (w : World) (root : Location) : Outcome :=
  if !w.tree.leadsToFolder root then refusal ("not a directory: " ++ root)
  else
    let r := ({} : Scope).repository w.tree root
    let primary? := Language.primary? r
    reported primary?.isSome (languageReport root primary? (Language.present r))

/-- Prints what is in a store. -/
def runStats (w : World) (dir : Location) : Outcome :=
  if !w.tree.leadsToFolder dir then refusal ("no knowledge store at " ++ dir)
  else
    let store := (Store.new dir agentVersion).load w.tree
    match store.listCheckpoints w.tree with
    | .error f => refusal f.message
    | .ok agents =>
        reported true (storeReport dir store.graph.statistics store.documents.length agents)

/-- Prints the diagram of a configuration. -/
def runDiagram (w : World) (root : Location) : Outcome :=
  if !w.tree.leadsToFolder root then refusal ("not a directory: " ++ root)
  else
    let a := analyzeRepository {} w.tree root [.terraform]
    match a.infrastructure.filter fun d => !d.isEmpty with
    | some d => reported true (d.toMermaid ++ "\n")
    | none => { code := failureCode, errors := "No Terraform resources found in " ++ root ++ "\n" }

/-- Runs a command: how it ends, and the files behind it. -/
def Command.run (w : World) : Command → Outcome × Tree
  | analyze target format => (runAnalyze w target format, w.tree)
  | build target store name => runBuild w target store name
  | detect path => (runDetect w path, w.tree)
  | stats store => (runStats w store, w.tree)
  | diagram path => (runDiagram w path, w.tree)

/-- The locations at which a command looks. In a world where its target is known, they are all; else
the store of a target may be missing. -/
def Command.places (w : World) : Command → List Location
  | analyze t _ => t.path :: t.config.toList
  | build t store? _ =>
      let store := match prepare w t with
        | .ok p => [storeOf p store?]
        | .error _ => store?.toList
      t.path :: t.config.toList ++ store
  | detect root => [root]
  | stats dir => [dir]
  | diagram root => [root]

/-- What is said to arguments that make no sense. -/
def misuseText : String :=
  "Usage: " ++ programName ++ " [OPTIONS] <COMMAND>\n\nFor more information, try '--help'.\n"

/-- The locations at which the program looks for its arguments. -/
def places (w : World) (args : List String) : List Location :=
  match asked args with
  | .run command => command.places w
  | _ => []

/-- Runs the program with its arguments. -/
def run (w : World) (args : List String) : Outcome × Tree :=
  match asked args with
  | .run command => command.run w
  | .show text => ({ output := text }, w.tree)
  | .misuse => ({ code := errorCode, errors := misuseText, isMisuse := true }, w.tree)

end CodeAtlas.CommandLine
