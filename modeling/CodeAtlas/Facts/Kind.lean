import CodeAtlas.Json.Decode
import CodeAtlas.Text.Basic

/-!
# Kinds of facts

The kinds of data models and the categories of side effects, with their labels. A label is read
exactly where documents are read, and leniently where people or models wrote it.
-/

namespace CodeAtlas

/-- What a data model is in its language. -/
inductive ModelKind where
  | class_
  | struct
  | interface
  | typeAlias
  | enum
  | trait
  | protocol
  | dataclass
  | pydantic
  | schema
  deriving DecidableEq, Repr

namespace ModelKind

/-- All kinds. -/
def all : List ModelKind :=
  [class_, struct, interface, typeAlias, enum, trait, protocol, dataclass, pydantic, schema]

/-- The label of a kind. -/
def label : ModelKind → String
  | class_ => "class"
  | struct => "struct"
  | interface => "interface"
  | typeAlias => "type_alias"
  | enum => "enum"
  | trait => "trait"
  | protocol => "protocol"
  | dataclass => "dataclass"
  | pydantic => "pydantic"
  | schema => "schema"

/-- The kind with a label. -/
def ofLabel? (s : String) : Option ModelKind := all.find? fun k => k.label == s

/-- The kind that a word means, a class if it is not known. -/
def ofWord (s : String) : ModelKind :=
  match asciiLowered (trimmed s) with
  | "type" | "alias" => typeAlias
  | word => (ofLabel? word).getD class_

/-- The kind that a document names. -/
def ofJson? (j : Json) : Option ModelKind := j.label? >>= ofLabel?

end ModelKind

/-- What a side effect touches. -/
inductive EffectCategory where
  | database
  | http
  | file
  | queue
  | cache
  | email
  | notification
  | externalApi
  | cloudService
  deriving DecidableEq, Repr

namespace EffectCategory

/-- All categories. -/
def all : List EffectCategory :=
  [database, http, file, queue, cache, email, notification, externalApi, cloudService]

/-- The label of a category. -/
def label : EffectCategory → String
  | database => "database"
  | http => "http"
  | file => "file"
  | queue => "queue"
  | cache => "cache"
  | email => "email"
  | notification => "notification"
  | externalApi => "external_api"
  | cloudService => "cloud_service"

/-- The category with a label. -/
def ofLabel? (s : String) : Option EffectCategory := all.find? fun k => k.label == s

/-- The category that a word means, an external interface if it is not known. -/
def ofWord (s : String) : EffectCategory :=
  match asciiLowered (trimmed s) with
  | "db" | "sql" => database
  | "api_call" => http
  | "filesystem" | "storage" => file
  | "messaging" => queue
  | "mail" => email
  | "push" => notification
  | "cloud" | "aws" | "gcp" => cloudService
  | word => (ofLabel? word).getD externalApi

/-- The category that a document names. -/
def ofJson? (j : Json) : Option EffectCategory := j.label? >>= ofLabel?

end EffectCategory

end CodeAtlas
