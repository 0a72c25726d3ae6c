import CodeAtlas.Facts.Basic
import CodeAtlas.Json.Number
import CodeAtlas.Json.Printer
import CodeAtlas.Reply.Items
import CodeAtlas.Repository
import CodeAtlas.Text.Literal

/-!
# From a model's records to facts

A model does not always keep to the shape it was asked for, so records are read leniently: numbers
and truth values count as texts, blank texts count as missing, and a record without the member that
identifies it is dropped.
-/

namespace CodeAtlas.Assist

open Reply (Item)

/-- A member of a record as a text that is not blank. -/
def textOf? (item : Item) (key : String) : Option String :=
  match item.lookup key with
  | some (.str s) => if trimmed s = "" then none else some (trimmed s)
  | some (.num n) => some (Json.num n).render
  | some (.bool b) => some (if b then "true" else "false")
  | _ => none

/-- The line that a record names, or 0. -/
def lineOf (item : Item) : Nat :=
  match item.lookup "line" with
  | some (.num n) => (Json.num n).nat?.getD 0
  | some (.str s) => (Text.word? (Text.trim s.toList)).getD 0
  | _ => 0

/-- A member of a record as a truth value. -/
def flagOf? (item : Item) (key : String) : Option Bool :=
  match item.lookup key with
  | some (.bool b) => some b
  | some (.str s) =>
      if trimmed s = "true" then some true else if trimmed s = "false" then some false else none
  | _ => none

/-- The text that an item of a list stands for: itself if it is not blank, or a record's name. -/
def nameOf? : Json → Option String
  | .str s => if trimmed s = "" then none else some (trimmed s)
  | .obj members => textOf? members "name"
  | _ => none

/-- The texts of a member that is a list. -/
def namesOf (item : Item) (key : String) : List String :=
  match item.lookup key with
  | some (.arr items) => items.filterMap nameOf?
  | _ => []

/-- The file that a record names, or the given one. -/
def fileOf (item : Item) (file : String) : String :=
  match textOf? item "file" with
  | some f => String.ofList (Repository.dropHere f.toList)
  | none => file

/-- The endpoint of a record that has a path. -/
def endpointOf? (r : Repository) (file : String) (item : Item) : Option Endpoint := do
  let path ← textOf? item "path"
  let file := fileOf item file
  return {
    method := ((textOf? item "method").map asciiUppered).getD "ANY"
    path, file, line := lineOf item
    handler := textOf? item "handler"
    description := textOf? item "description"
    parameters := namesOf item "parameters"
    responseType := textOf? item "response_type"
    sourceLink := r.sourceLink file (lineOf item) }

/-- The field of a record that has a name. -/
def fieldOf? : Json → Option Field
  | .obj item => do
    let name ← textOf? item "name"
    return {
      name, type := (textOf? item "type").getD "any"
      description := textOf? item "description"
      required := (flagOf? item "required").getD true }
  | _ => none

/-- The data model of a record that has a name. -/
def modelOf? (r : Repository) (file : String) (item : Item) : Option Model := do
  let name ← textOf? item "name"
  let file := fileOf item file
  return {
    name
    kind := ((textOf? item "model_type").map ModelKind.ofWord).getD .class_
    file, line := lineOf item
    fields := match item.lookup "fields" with
      | some (.arr fields) => fields.filterMap fieldOf?
      | _ => []
    methods := namesOf item "methods"
    description := textOf? item "description"
    parent := textOf? item "parent"
    sourceLink := r.sourceLink file (lineOf item) }

/-- The setting of a record that has a key. -/
def settingOf? (r : Repository) (file : String) (item : Item) : Option Setting := do
  let key ← textOf? item "key"
  let file := fileOf item file
  let default := textOf? item "default"
  return {
    key, source := (textOf? item "source").getD "env"
    file, line := lineOf item, default
    description := textOf? item "description"
    required := (flagOf? item "required").getD default.isNone
    sourceLink := r.sourceLink file (lineOf item) }

/-- The side effect of a record. -/
def sideEffectOf (r : Repository) (file : String) (item : Item) : SideEffect :=
  let file := fileOf item file
  { category := ((textOf? item "category").map EffectCategory.ofWord).getD .externalApi
    operation := (textOf? item "operation").getD "unknown"
    target := textOf? item "target"
    file, line := lineOf item
    description := textOf? item "description"
    sourceLink := r.sourceLink file (lineOf item) }

end CodeAtlas.Assist
