import CodeAtlas.Facts.Analysis
import CodeAtlas.Repository

/-!
# Analyzers

An analyzer extracts the facts of each category from a repository. An extraction that fails leaves
its category empty and adds an error; it does not touch the other categories.
-/

namespace CodeAtlas

/-- Why an extraction failed: a chain of errors, the outermost first, or a defect, with or without a
text. -/
inductive Failure where
  | error (chain : List String)
  | defect (message : String)
  | silentDefect
  deriving DecidableEq, Repr

/-- What is said about a failure. -/
def Failure.message : Failure → String
  | error chain => String.intercalate ": " chain
  | defect message => message
  | silentDefect => "panic during extraction"

/-- The categories of facts, in the order in which they are extracted. -/
inductive FactCategory where
  | models
  | endpoints
  | sideEffects
  | settings
  | dependencies
  | infrastructure
  deriving DecidableEq, Repr

/-- The label of a category. -/
def FactCategory.label : FactCategory → String
  | models => "models"
  | endpoints => "endpoints"
  | sideEffects => "side_effects"
  | settings => "config"
  | dependencies => "dependencies"
  | infrastructure => "infrastructure"

/-- The most characters of an error entry. -/
def maxErrorLength : Nat := 200

/-- The entry for an error in a category, cut if it is too long. -/
def errorEntry (category message : String) : String :=
  String.ofList ((category ++ ": " ++ message).toList.take maxErrorLength)

/-- The extractions of an analyzer from a repository. -/
structure Extractions where
  models : Except Failure (List Model)
  endpoints : Except Failure (List Endpoint)
  sideEffects : Except Failure (List SideEffect)
  settings : Except Failure (List Setting)
  dependencies : Except Failure (List Dependency) := .ok []
  infrastructure : Except Failure (Option Infra.Diagram) := .ok none

/-- An analyzer: its language, the extensions of its files and its extractions. -/
structure Analyzer where
  language : String
  extensions : List String
  extract : Repository → Extractions

/-- What an extraction gives, unless it fails: then its entry comes behind the errors so far. -/
def isolate {α : Type} (category : FactCategory) :
    Except Failure α → StateM (List String) (Option α)
  | .ok a => return some a
  | .error f => do
    modify (· ++ [errorEntry category.label f.message])
    return none

/-- The analysis that the extractions give one after the other, without its errors. -/
def Extractions.collect (x : Extractions) (language : String) : StateM (List String) Analysis := do
  let models ← isolate .models x.models
  let endpoints ← isolate .endpoints x.endpoints
  let sideEffects ← isolate .sideEffects x.sideEffects
  let settings ← isolate .settings x.settings
  let dependencies ← isolate .dependencies x.dependencies
  let infrastructure ← isolate .infrastructure x.infrastructure
  return {
    language
    models := models.getD []
    endpoints := endpoints.getD []
    sideEffects := sideEffects.getD []
    settings := settings.getD []
    dependencies := dependencies.getD []
    infrastructure := infrastructure.join }

/-- The analysis that the extractions give together. -/
def Extractions.analysis (x : Extractions) (language : String) : Analysis :=
  let (a, errors) := (x.collect language).run []
  { a with errors }

namespace Analyzer

/-- The analysis of a repository. -/
def analyze (a : Analyzer) (r : Repository) : Analysis := (a.extract r).analysis a.language

/-- Whether files with an extension belong to the analyzer. -/
def handles (a : Analyzer) (ext : String) : Bool :=
  a.extensions.any fun x => asciiLowered x == asciiLowered ext

end Analyzer

end CodeAtlas
