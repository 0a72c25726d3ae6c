import CodeAtlas.Facts.Codec
import CodeAtlas.Infra.Diagram

/-!
# Analyses

An analysis holds the facts found in the sources of one or several languages, and the errors that
were met. Two analyses are merged fact list by fact list; their languages are joined by `+`, each
one once, and their diagrams are put together.
-/

namespace CodeAtlas

/-- The facts found in source code. -/
structure Analysis where
  language : String := ""
  models : List Model := []
  endpoints : List Endpoint := []
  sideEffects : List SideEffect := []
  settings : List Setting := []
  dependencies : List Dependency := []
  errors : List String := []
  infrastructure : Option Infra.Diagram := none
  deriving DecidableEq, Repr

/-- How many facts of each sort there are. -/
structure Summary where
  models : Nat
  endpoints : Nat
  sideEffects : Nat
  settings : Nat
  dependencies : Nat
  errors : Nat
  deriving DecidableEq, Repr

/-- Adds to `tags` those of the other list that are not there yet. -/
def joinTags (tags : List (List Char)) : List (List Char) → List (List Char)
  | [] => tags
  | t :: more => if tags.contains t then joinTags tags more else joinTags (tags ++ [t]) more

/-- The languages of both texts, joined by `+`. -/
def joinLanguages (left right : String) : String :=
  if right.isEmpty then left
  else if left.isEmpty then right
  else
    let tags := joinTags (Text.splitChar '+' left.toList) (Text.splitChar '+' right.toList)
    String.ofList (['+'].intercalate tags)

namespace Analysis

/-- An analysis that found only an error. -/
def failed (language error : String) : Analysis := { language, errors := [error] }

/-- The diagrams put together, if there is any. -/
def mergeDiagrams : Option Infra.Diagram → Option Infra.Diagram → Option Infra.Diagram
  | some a, some b => some (a.extend b)
  | a, b => a.or b

/-- The facts of both analyses. -/
def merge (a b : Analysis) : Analysis where
  language := joinLanguages a.language b.language
  models := a.models ++ b.models
  endpoints := a.endpoints ++ b.endpoints
  sideEffects := a.sideEffects ++ b.sideEffects
  settings := a.settings ++ b.settings
  dependencies := a.dependencies ++ b.dependencies
  errors := a.errors ++ b.errors
  infrastructure := mergeDiagrams a.infrastructure b.infrastructure

/-- The numbers of facts. -/
def summary (a : Analysis) : Summary where
  models := a.models.length
  endpoints := a.endpoints.length
  sideEffects := a.sideEffects.length
  settings := a.settings.length
  dependencies := a.dependencies.length
  errors := a.errors.length

/-- Whether no fact was found; errors and diagrams do not count. -/
def isEmpty (a : Analysis) : Bool :=
  a.models.isEmpty && a.endpoints.isEmpty && a.sideEffects.isEmpty && a.settings.isEmpty &&
    a.dependencies.isEmpty

/-- The document of an analysis. A diagram is a member only if there is one. -/
def toJson (a : Analysis) : Json :=
  .obj ([("language", .str a.language), ("models", .arr (a.models.map Model.toJson)),
    ("endpoints", .arr (a.endpoints.map Endpoint.toJson)),
    ("side_effects", .arr (a.sideEffects.map SideEffect.toJson)),
    ("config", .arr (a.settings.map Setting.toJson)),
    ("dependencies", .arr (a.dependencies.map Dependency.toJson)),
    ("errors", .strings a.errors)] ++
    match a.infrastructure with
    | some d => [("infrastructure", d.toJson)]
    | none => [])

/-- The analysis that a document describes. -/
def ofJson? (j : Json) : Option Analysis := do
  let r ← j.record? ["language", "models", "endpoints", "side_effects", "config", "dependencies",
    "errors", "infrastructure"] 1
  return {
    language := ← Json.field? Json.str? r "language"
    models := ← Json.field? (Json.list? Model.ofJson?) r "models"
    endpoints := ← Json.field? (Json.list? Endpoint.ofJson?) r "endpoints"
    sideEffects := ← Json.field? (Json.list? SideEffect.ofJson?) r "side_effects"
    settings := ← Json.field? (Json.list? Setting.ofJson?) r "config"
    dependencies := ← Json.field? (Json.list? Dependency.ofJson?) r "dependencies"
    errors := ← Json.field? Json.strings? r "errors"
    infrastructure := ← Json.optionalField? Infra.Diagram.ofJson? r "infrastructure" }

end Analysis

/-- The document of a summary. -/
def Summary.toJson (s : Summary) : Json :=
  .obj [("models", .nat s.models), ("endpoints", .nat s.endpoints),
    ("side_effects", .nat s.sideEffects), ("config", .nat s.settings),
    ("dependencies", .nat s.dependencies), ("errors", .nat s.errors)]

end CodeAtlas
