import CodeAtlas.Language.Detect
import CodeAtlas.Source.Go.Basic
import CodeAtlas.Source.Php.Basic
import CodeAtlas.Source.Script.Basic
import CodeAtlas.Source.Python.Basic
import CodeAtlas.Source.Rust.Basic
import CodeAtlas.Source.Lua.Basic
import CodeAtlas.Source.Shell
import CodeAtlas.Source.Native.Basic
import CodeAtlas.Source.ActionScript.Basic
import CodeAtlas.Source.Salesforce.Basic
import CodeAtlas.Source.Terraform.Basic

/-!
# Analyzing a repository

Each language has its analyzer. A repository is analyzed by the analyzers of the languages that are
asked for, or else of those that it holds, and the analyses are merged.
-/

namespace CodeAtlas

/-- The analyzer of a language. -/
def Language.analyzer : Language → Analyzer
  | .go => Source.Go.analyzer
  | .php => Source.Php.analyzer
  | .typeScript => Source.Script.typedAnalyzer
  | .javaScript => Source.Script.plainAnalyzer
  | .python => Source.Python.analyzer
  | .rust => Source.Rust.analyzer
  | .lua => Source.Lua.analyzer
  | .bash => Source.Shell.analyzer
  | .c => Source.Native.analyzer
  | .cpp => Source.Native.objectAnalyzer
  | .actionScript => Source.ActionScript.analyzer
  | .apex => Source.Salesforce.analyzer
  | .terraform => Source.Terraform.analyzer

/-- Leaves out the items that are equal to the one in front of them. -/
def dropRepeats {α : Type} [BEq α] : List α → List α
  | a :: b :: rest => if a == b then dropRepeats (b :: rest) else a :: dropRepeats (b :: rest)
  | rest => rest

/-- One analyzer reads both script languages; it reports the typed one if both are there. -/
def shareScript (languages : List Language) : List Language :=
  if languages.contains .typeScript then languages.filter (· != .javaScript) else languages

/-- The languages to analyze: those that are asked for, or those that the repository holds. -/
def languagesToAnalyze (r : Repository) (requested : List Language) : List Language :=
  shareScript (if requested.isEmpty then Language.present r else dropRepeats requested)

/-- The analysis of the part of a tree at a root. -/
def analyzeRepository (scope : Scope) (tree : Tree) (root : Location)
    (requested : List Language) : Analysis :=
  if !(tree.locate root).isOk then .failed "unknown" ("repository path does not exist: " ++ root)
  else
    let r := scope.repository tree root
    match (languagesToAnalyze r requested).map Language.analyzer with
    | [] => .failed "unknown" "no analyzer available for repository"
    | a :: rest =>
        let merged := (rest.map (·.analyze r)).foldl Analysis.merge (a.analyze r)
        { merged with language := if merged.language.isEmpty then "unknown" else merged.language }

end CodeAtlas
