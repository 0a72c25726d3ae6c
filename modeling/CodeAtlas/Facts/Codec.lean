import CodeAtlas.Facts.Basic

/-!
# Facts as documents

Every fact is an object with one member for each of its fields; what is absent is null.
-/

namespace CodeAtlas

open Json

namespace Field

/-- The document of a field. -/
def toJson (f : Field) : Json :=
  .obj [("name", f.name), ("type", f.type), ("description", ofString? f.description),
    ("required", f.required), ("default", ofString? f.default), ("tag", ofString? f.tag)]

/-- The field that a document describes. -/
def ofJson? (j : Json) : Option Field := do
  let r ← record? ["name", "type", "description", "required", "default", "tag"] 0 j
  return {
    name := ← field? str? r "name"
    type := ← field? str? r "type"
    description := ← optionalField? str? r "description"
    required := ← field? bool? r "required"
    default := ← optionalField? str? r "default"
    tag := ← optionalField? str? r "tag" }

end Field

namespace Model

/-- The document of a model. -/
def toJson (m : Model) : Json :=
  .obj [("name", m.name), ("model_type", m.kind.label), ("file", m.file), ("line", .nat m.line),
    ("fields", .arr (m.fields.map Field.toJson)), ("methods", .strings m.methods),
    ("description", ofString? m.description), ("parent", ofString? m.parent),
    ("interfaces", .strings m.interfaces), ("decorators", .strings m.decorators),
    ("source_link", ofString? m.sourceLink)]

/-- The model that a document describes. -/
def ofJson? (j : Json) : Option Model := do
  let r ← record? ["name", "model_type", "file", "line", "fields", "methods",
    "description", "parent", "interfaces", "decorators", "source_link"] 0 j
  return {
    name := ← field? str? r "name"
    kind := ← field? ModelKind.ofJson? r "model_type"
    file := ← field? str? r "file"
    line := ← field? word? r "line"
    fields := ← field? (list? Field.ofJson?) r "fields"
    methods := ← field? strings? r "methods"
    description := ← optionalField? str? r "description"
    parent := ← optionalField? str? r "parent"
    interfaces := ← field? strings? r "interfaces"
    decorators := ← field? strings? r "decorators"
    sourceLink := ← optionalField? str? r "source_link" }

end Model

namespace Endpoint

/-- The document of an endpoint. -/
def toJson (e : Endpoint) : Json :=
  .obj [("method", e.method), ("path", e.path), ("file", e.file), ("line", .nat e.line),
    ("handler", ofString? e.handler), ("description", ofString? e.description),
    ("parameters", .strings e.parameters), ("response_type", ofString? e.responseType),
    ("decorators", .strings e.decorators), ("source_link", ofString? e.sourceLink)]

/-- The endpoint that a document describes. -/
def ofJson? (j : Json) : Option Endpoint := do
  let r ← record? ["method", "path", "file", "line", "handler", "description", "parameters",
    "response_type", "decorators", "source_link"] 0 j
  return {
    method := ← field? str? r "method"
    path := ← field? str? r "path"
    file := ← field? str? r "file"
    line := ← field? word? r "line"
    handler := ← optionalField? str? r "handler"
    description := ← optionalField? str? r "description"
    parameters := ← field? strings? r "parameters"
    responseType := ← optionalField? str? r "response_type"
    decorators := ← field? strings? r "decorators"
    sourceLink := ← optionalField? str? r "source_link" }

end Endpoint

namespace SideEffect

/-- The document of a side effect. -/
def toJson (e : SideEffect) : Json :=
  .obj [("category", e.category.label), ("operation", e.operation), ("target", ofString? e.target),
    ("file", e.file), ("line", .nat e.line), ("description", ofString? e.description),
    ("source_link", ofString? e.sourceLink)]

/-- The side effect that a document describes. -/
def ofJson? (j : Json) : Option SideEffect := do
  let r ← record? ["category", "operation", "target", "file", "line", "description",
    "source_link"] 0 j
  return {
    category := ← field? EffectCategory.ofJson? r "category"
    operation := ← field? str? r "operation"
    target := ← optionalField? str? r "target"
    file := ← field? str? r "file"
    line := ← field? word? r "line"
    description := ← optionalField? str? r "description"
    sourceLink := ← optionalField? str? r "source_link" }

end SideEffect

namespace Setting

/-- The document of a setting. -/
def toJson (s : Setting) : Json :=
  .obj [("key", s.key), ("source", s.source), ("file", s.file), ("line", .nat s.line),
    ("default", ofString? s.default), ("description", ofString? s.description),
    ("required", s.required), ("source_link", ofString? s.sourceLink)]

/-- The setting that a document describes. -/
def ofJson? (j : Json) : Option Setting := do
  let r ← record? ["key", "source", "file", "line", "default", "description", "required",
    "source_link"] 0 j
  return {
    key := ← field? str? r "key"
    source := ← field? str? r "source"
    file := ← field? str? r "file"
    line := ← field? word? r "line"
    default := ← optionalField? str? r "default"
    description := ← optionalField? str? r "description"
    required := ← field? bool? r "required"
    sourceLink := ← optionalField? str? r "source_link" }

end Setting

namespace Dependency

/-- The document of a dependency. -/
def toJson (d : Dependency) : Json :=
  .obj [("name", d.name), ("version", ofString? d.version), ("import_path", ofString? d.importPath),
    ("file", d.file), ("line", .nat d.line)]

/-- The dependency that a document describes. -/
def ofJson? (j : Json) : Option Dependency := do
  let r ← record? ["name", "version", "import_path", "file", "line"] 0 j
  return {
    name := ← field? str? r "name"
    version := ← optionalField? str? r "version"
    importPath := ← optionalField? str? r "import_path"
    file := ← field? str? r "file"
    line := ← field? word? r "line" }

end Dependency

end CodeAtlas
