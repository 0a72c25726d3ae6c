import CodeAtlas.CommandLine.Arguments

/-!
# Commands

The commands of the program, and what is asked for by its arguments.
-/

namespace CodeAtlas.CommandLine

open Text

/-- What is analyzed, and how. -/
structure Target where
  path : String
  config : Option String := none
  baseUrl : Option String := none
  branch : Option String := none
  languages : List String := []
  /-- Whether a model is asked too. -/
  asksModel : Bool := false
  deriving DecidableEq, Repr

/-- A command. -/
inductive Command where
  | analyze (target : Target) (format : String)
  | build (target : Target) (store name : Option String)
  | detect (path : String)
  | stats (store : String)
  | diagram (path : String)
  deriving DecidableEq, Repr

/-- What the arguments of the program ask for. -/
inductive Asked where
  | run (command : Command)
  /-- A text is asked for, such as help. -/
  | show (text : String)
  | misuse
  deriving DecidableEq, Repr

/-! ## Options -/

/-- The option that every command takes. -/
def verboseFlag : Flag :=
  { long := "verbose", short := some 'v', help := "Log at debug level (RUST_LOG overrides)" }

/-- The options of a command that analyzes. -/
def targetFlags : List Flag := [
  { long := "config", short := some 'c', value := some "CONFIG"
    help := "Path to config YAML file (default: auto-discover)" },
  verboseFlag,
  { long := "base-url", value := some "BASE_URL", allowsEmpty := true
    help := "Hosted repository URL used for source links" },
  { long := "branch", value := some "BRANCH", allowsEmpty := true
    help := "Branch used in source links" },
  { long := "language", short := some 'l', value := some "LANGUAGES", isRepeatable := true
    allowsEmpty := true, help := "Analyze these languages instead of detecting them" },
  { long := "ai", help := "Also ask a language model to read the sources" }]

/-- The target that is given to a command. -/
def targetOf (g : Given) : Target where
  path := g.argument.getD ""
  config := g.value? "config"
  baseUrl := g.value? "base-url"
  branch := g.value? "branch"
  languages := g.values "language"
  asksModel := g.has "ai"

/-! ## Commands -/

/-- Extracts facts. -/
def analyzeUsage : Usage where
  name := "analyze"
  about := "Extract facts from a repository and print them"
  flags := targetFlags ++ [
    { long := "format", short := some 'f', value := some "FORMAT", default := some "pretty"
      allowsEmpty := true, help := "Output format: pretty or json" }]
  argument := some ("PATH", "Repository checkout to analyze")

/-- Adds facts to a store. -/
def buildUsage : Usage where
  name := "build"
  about := "Analyze a repository and add it to a knowledge store"
  flags := targetFlags ++ [
    { long := "store", short := some 's', value := some "STORE"
      help := "Store directory (default: <path>/.repograph or config store_dir)" },
    { long := "name", short := some 'n', value := some "NAME", allowsEmpty := true
      help := "Service name (default: repository directory name)" }]
  argument := some ("PATH", "Repository checkout to analyze")

/-- Tells the languages of a repository. -/
def detectUsage : Usage where
  name := "detect"
  about := "Print the languages detected in a repository"
  flags := [verboseFlag]
  argument := some ("PATH", "")

/-- Tells what is in a store. -/
def statsUsage : Usage where
  name := "stats"
  about := "Print statistics of a knowledge store"
  flags := [{ long := "store", short := some 's', value := some "STORE"
              default := some ".repograph", help := "Store directory" }, verboseFlag]

/-- Draws the resources of a configuration. -/
def diagramUsage : Usage where
  name := "diagram"
  about := "Print the Terraform resource graph as Mermaid"
  flags := [verboseFlag]
  argument := some ("PATH", "")

/-- The commands with what they do. -/
def commands : List (Usage × (Given → Command)) := [
  (analyzeUsage, fun g => .analyze (targetOf g) ((g.value? "format").getD "pretty")),
  (buildUsage, fun g => .build (targetOf g) (g.value? "store") (g.value? "name")),
  (detectUsage, fun g => .detect (g.argument.getD "")),
  (statsUsage, fun g => .stats ((g.value? "store").getD ".repograph")),
  (diagramUsage, fun g => .diagram (g.argument.getD ""))]

/-- The name of the program. -/
def programName : String := "repograph"

/-- The version of the program. -/
def version : String := "0.1.0"

/-- What the program takes in front of a command. -/
def programUsage : Usage where
  name := programName
  about := "Multi-language repository analyzer that builds a typed knowledge graph of services, " ++
    "APIs and schemas"
  flags := [verboseFlag]
  hasVersion := true

/-- What is said about the command for help. -/
def helpAbout : String := "Print this message or the help of the given subcommand(s)"

/-- The help of the program. -/
def programHelp : String :=
  let rows := commands.map fun (u, _) => (u.name, u.about)
  programUsage.about ++ "\n\nUsage: " ++ programName ++ " [OPTIONS] <COMMAND>\n\nCommands:\n" ++
    Usage.columns (rows ++ [("help", helpAbout)]) ++ "\nOptions:\n" ++
    Usage.columns (programUsage.allFlags.map fun f => (Usage.flagText f, Usage.flagHelp f))

/-- The help of the command for help. -/
def helpHelp : String :=
  helpAbout ++ "\n\nUsage: " ++ programName ++ " help [COMMAND]...\n\nArguments:\n" ++
    Usage.columns [("[COMMAND]...", "Print help for the subcommand(s)")]

/-- The help of a command. -/
def commandHelp (u : Usage) : String := u.helpText (programName ++ " " ++ u.name)

/-- What the arguments behind the word for help ask for. -/
def askedHelp : List String → Asked
  | [] => .show programHelp
  | [name] =>
      match commands.find? fun c => c.1.name == name with
      | some (u, _) => .show (commandHelp u)
      | none => if name == "help" then .show helpHelp else .misuse
  | _ => .misuse

/-- What the arguments behind the name of a command ask for. -/
def askedCommand (u : Usage) (make : Given → Command) (args : List String) : Asked :=
  match u.read args with
  | .ok g => .run (make g)
  | .error .help => .show (commandHelp u)
  | .error _ => .misuse

/-- What arguments ask for behind the given options of the program. -/
def askedFrom (g : Given) : List String → Asked
  | [] => .misuse
  | arg :: rest =>
      if !Usage.isOption arg then
        match commands.find? fun c => c.1.name == arg with
        | some (u, make) => askedCommand u make rest
        | none => if arg == "help" then askedHelp rest else .misuse
      else
        let text := arg.toList
        let read := match after? ['-', '-'] text with
          | some text => programUsage.readLong g text
          | none => programUsage.readShort g (text.drop 1)
        match read with
        | .ok (g, _) => askedFrom g rest
        | .error .help => .show programHelp
        | .error .version => .show (programName ++ " " ++ version ++ "\n")
        | .error .misuse => .misuse

/-- What the arguments of the program ask for. -/
def asked (args : List String) : Asked := askedFrom {} args

end CodeAtlas.CommandLine
