import CodeAtlas.Json.Decode
import CodeAtlas.Text.Basic

/-!
# Types of entities and relations

The types in their order, with their labels.
-/

namespace CodeAtlas.Graph

/-- What an entity is. -/
inductive EntityType where
  | service
  | domain
  | api
  | endpoint
  | schema
  | document
  | person
  | repository
  | integration
  deriving DecidableEq, Repr

namespace EntityType

/-- All types, in order. -/
def all : List EntityType :=
  [service, domain, api, endpoint, schema, document, person, repository, integration]

/-- The label of a type. -/
def label : EntityType → String
  | service => "service"
  | domain => "domain"
  | api => "api"
  | endpoint => "endpoint"
  | schema => "schema"
  | document => "document"
  | person => "person"
  | repository => "repository"
  | integration => "integration"

/-- The type with a label. -/
def ofLabel? (s : String) : Option EntityType := all.find? fun t => t.label == s

/-- The type that a word means. -/
def ofWord? (s : String) : Option EntityType := ofLabel? (asciiLowered (trimmed s))

/-- What is said about a word that means no type. -/
def unknownMessage (s : String) : String := "unknown entity type: " ++ s

end EntityType

/-- How the source of a relation stands to its target. -/
inductive RelationType where
  | belongsTo
  | calls
  | exposes
  | owns
  | documents
  | references
  | dependsOn
  | contains
  | implements
  | uses
  deriving DecidableEq, Repr

namespace RelationType

/-- All types, in order. -/
def all : List RelationType :=
  [belongsTo, calls, exposes, owns, documents, references, dependsOn, contains, implements, uses]

/-- The label of a type. -/
def label : RelationType → String
  | belongsTo => "belongs_to"
  | calls => "calls"
  | exposes => "exposes"
  | owns => "owns"
  | documents => "documents"
  | references => "references"
  | dependsOn => "depends_on"
  | contains => "contains"
  | implements => "implements"
  | uses => "uses"

/-- The place of a type in their order. -/
def rank (t : RelationType) : Nat := all.idxOf t

/-- The type with a label. -/
def ofLabel? (s : String) : Option RelationType := all.find? fun t => t.label == s

/-- The type that a word means. -/
def ofWord? (s : String) : Option RelationType := ofLabel? (asciiLowered (trimmed s))

/-- What is said about a word that means no type. -/
def unknownMessage (s : String) : String := "unknown relation type: " ++ s

end RelationType

end CodeAtlas.Graph
