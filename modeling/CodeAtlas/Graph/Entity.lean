import CodeAtlas.Graph.Label
import CodeAtlas.Repository
import CodeAtlas.Time.Instant
import CodeAtlas.Unicode.Property

/-!
# Entities

An entity has an id and a name, notes of any form, and the details of its type. The entities that
are known by their names get their ids from them.
-/

namespace CodeAtlas.Graph

/-! ## Slugs

The slug of a name keeps its letters and digits in small form, its points and underscores, and has
one hyphen wherever something else stood between two of them. Ids are made of a type and a slug.
-/

/-- Whether a character is kept in a slug. -/
def isSlugChar (c : Char) : Bool := Unicode.isAlphanumeric c || c == '.' || c == '_'

/-- The slug of what is left of a name. `started` once a character has been kept; `pending` if
something has been left out since. -/
def slugFrom (started pending : Bool) : List Char → List Char
  | [] => []
  | c :: rest =>
      if isSlugChar c then
        let kept := Unicode.lowerChars c ++ slugFrom true false rest
        if pending && started then '-' :: kept else kept
      else slugFrom started true rest

/-- The slug of a text. -/
def slug (text : List Char) : List Char := slugFrom false false (Text.trim text)

/-- The slug of a name. -/
def slugify (name : String) : String := String.ofList (slug name.toList)

/-- The id of the entity of a type with a name. -/
def entityId (type : EntityType) (name : String) : String := type.label ++ ":" ++ slugify name

/-! ## Entities -/

/-- Notes of any form: documents by name, sorted. -/
abbrev Metadata := List (String × Json)

/-- What every entity has. -/
structure EntityBase where
  id : String
  name : String
  description : Option String := none
  metadata : Metadata := []
  sourceRefs : List String := []
  createdAt : Instant
  updatedAt : Instant
  deriving Repr, BEq

/-- How far a service is in its life. -/
inductive ServiceStatus where
  | active
  | deprecated
  | planned
  deriving DecidableEq, Repr

/-- Marks of a service. -/
structure ServiceTraits where
  serviceType : Option String := none
  isApiGateway : Bool := false
  deriving DecidableEq, Repr

/-- What a service has. -/
structure Service where
  repository : Option String := none
  language : Option String := none
  framework : Option String := none
  status : ServiceStatus := .active
  team : Option String := none
  dependencies : List String := []
  apis : List String := []
  databases : List String := []
  configFiles : List String := []
  documentationStatus : Option String := none
  traits : ServiceTraits := {}
  deriving DecidableEq, Repr

/-- What a domain has. -/
structure Domain where
  services : List String := []
  parentDomain : Option String := none
  subDomains : List String := []
  deriving DecidableEq, Repr

/-- The style of an interface. -/
inductive ApiType where
  | rest
  | graphql
  | grpc
  | websocket
  deriving DecidableEq, Repr

/-- What an interface has. -/
structure Api where
  serviceId : Option String := none
  apiType : ApiType := .rest
  version : Option String := none
  baseUrl : Option String := none
  authType : Option String := none
  specFile : Option String := none
  endpoints : List String := []
  deriving DecidableEq, Repr

/-- What an endpoint has. -/
structure Endpoint where
  apiId : Option String := none
  path : String
  method : String
  requestSchema : Option String := none
  responseSchema : Option String := none
  authRequired : Bool := false
  deprecated : Bool := false
  examples : List Json := []
  deriving Repr, BEq

/-- A field of a schema. -/
structure SchemaField where
  name : String
  type : String
  description : Option String := none
  required : Bool := true
  deriving DecidableEq, Repr

/-- What a schema has. -/
structure Schema where
  schemaType : String
  serviceId : Option String := none
  definition : Option Json := none
  fields : List SchemaField := []
  relationships : List String := []
  graphqlKind : Option String := none
  deriving Repr, BEq

/-- Where a document comes from. -/
inductive DocumentSource where
  | confluence
  | github
  | jira
  | docs360
  deriving DecidableEq, Repr

/-- How far a document is trusted. -/
inductive TrustLevel where
  | high
  | medium
  | low
  | reference
  deriving DecidableEq, Repr

/-- What a document has. -/
structure Document where
  sourceType : DocumentSource
  url : String
  content : Option String := none
  contentHash : String := ""
  labels : List String := []
  linkedServices : List String := []
  lastModified : Option Instant := none
  trustLevel : TrustLevel := .medium
  disclaimer : Option String := none
  deriving DecidableEq, Repr

/-- What a person has. -/
structure Person where
  email : Option String := none
  team : Option String := none
  role : Option String := none
  ownedServices : List String := []
  deriving DecidableEq, Repr

/-- What a repository has. -/
structure Repository where
  url : Option String := none
  defaultBranch : String := CodeAtlas.defaultBranch
  languages : List String := []
  services : List String := []
  deriving DecidableEq, Repr

/-- What an integration has. -/
structure Integration where
  integrationType : String
  provider : Option String := none
  services : List String := []
  configKeys : List String := []
  deriving DecidableEq, Repr

/-- The details of an entity, by its type. -/
inductive Detail where
  | service (d : Service)
  | domain (d : Domain)
  | api (d : Api)
  | endpoint (d : Endpoint)
  | schema (d : Schema)
  | document (d : Document)
  | person (d : Person)
  | repository (d : Repository)
  | integration (d : Integration)
  deriving Repr, BEq

/-- An entity. -/
structure Entity where
  base : EntityBase
  detail : Detail
  deriving Repr, BEq

/-- The type of the entities with these details. -/
def Detail.type : Detail → EntityType
  | service _ => .service
  | domain _ => .domain
  | api _ => .api
  | endpoint _ => .endpoint
  | schema _ => .schema
  | document _ => .document
  | person _ => .person
  | repository _ => .repository
  | integration _ => .integration

namespace Entity

/-- The id of an entity. -/
def id (e : Entity) : String := e.base.id

/-- The name of an entity. -/
def name (e : Entity) : String := e.base.name

/-- The type of an entity. -/
def type (e : Entity) : EntityType := e.detail.type

/-- When an entity was changed last. -/
def updatedAt (e : Entity) : Instant := e.base.updatedAt

/-- The details of a service. -/
def service? (e : Entity) : Option Service :=
  match e.detail with
  | .service d => some d
  | _ => none

/-- The details of an interface. -/
def api? (e : Entity) : Option Api :=
  match e.detail with
  | .api d => some d
  | _ => none

/-- The details of a schema. -/
def schema? (e : Entity) : Option Schema :=
  match e.detail with
  | .schema d => some d
  | _ => none

/-- An entity made at `now`. -/
def new (now : Instant) (id name : String) (detail : Detail) : Entity :=
  ⟨{ id, name, createdAt := now, updatedAt := now }, detail⟩

/-- An entity made at `now` whose id comes from its name. -/
def newNamed (now : Instant) (name : String) (detail : Detail) : Entity :=
  new now (entityId detail.type name) name detail

/-- An endpoint, named by its method and path. -/
def newEndpoint (now : Instant) (id method path : String) : Entity :=
  new now id (method ++ " " ++ path) (.endpoint { path, method })

/-- The entity with a note. -/
def note (e : Entity) (key : String) (value : Json) : Entity :=
  { e with base := { e.base with metadata := Json.insertMember key value e.base.metadata } }

end Entity

end CodeAtlas.Graph
