import CodeAtlas.Graph.Entity

/-!
# Entities as documents

An entity is one object with its type, the members of its base and those of its details. Where a
member is missing that has a default, the default is taken.
-/

namespace CodeAtlas.Graph

open Json

/-- The document of an instant. -/
def instantToJson (t : Instant) : Json := .str t.text

/-- The instant that a document writes. -/
def instantOfJson? (j : Json) : Option Instant := j.str? >>= Instant.ofText?

/-- Notes of any form, sorted. -/
def metadataOfJson? : Json → Option Metadata
  | .obj members => some (sortMembers (sortedMembers members))
  | _ => none

namespace ServiceStatus

/-- The label of a status. -/
def label : ServiceStatus → String
  | active => "active"
  | deprecated => "deprecated"
  | planned => "planned"

/-- The status with a label. -/
def ofJson? (j : Json) : Option ServiceStatus :=
  j.looseLabel? >>= fun s => [active, deprecated, planned].find? fun t => t.label == s

end ServiceStatus

namespace ApiType

/-- The label of a style. -/
def label : ApiType → String
  | rest => "rest"
  | graphql => "graphql"
  | grpc => "grpc"
  | websocket => "websocket"

/-- The style with a label. -/
def ofJson? (j : Json) : Option ApiType :=
  j.looseLabel? >>= fun s => [rest, graphql, grpc, websocket].find? fun t => t.label == s

end ApiType

namespace DocumentSource

/-- The label of a source. -/
def label : DocumentSource → String
  | confluence => "confluence"
  | github => "github"
  | jira => "jira"
  | docs360 => "docs360"

/-- The source with a label. -/
def ofJson? (j : Json) : Option DocumentSource :=
  j.looseLabel? >>= fun s => [confluence, github, jira, docs360].find? fun t => t.label == s

end DocumentSource

namespace TrustLevel

/-- The label of a level. -/
def label : TrustLevel → String
  | high => "high"
  | medium => "medium"
  | low => "low"
  | reference => "reference"

/-- The level with a label. -/
def ofJson? (j : Json) : Option TrustLevel :=
  j.looseLabel? >>= fun s => [high, medium, low, reference].find? fun t => t.label == s

end TrustLevel

namespace ServiceTraits

/-- The document of the marks of a service. -/
def toJson (t : ServiceTraits) : Json :=
  .obj [("service_type", ofString? t.serviceType), ("is_api_gateway", t.isApiGateway)]

/-- The marks that a document describes. -/
def ofJson? (j : Json) : Option ServiceTraits := do
  let r ← record? ["service_type", "is_api_gateway"] 2 j
  return {
    serviceType := ← optionalField? str? r "service_type"
    isApiGateway := ← defaultField? bool? false r "is_api_gateway" }

end ServiceTraits

namespace SchemaField

/-- The document of a field. -/
def toJson (f : SchemaField) : Json :=
  .obj [("name", f.name), ("type", f.type), ("description", ofString? f.description),
    ("required", f.required)]

/-- The field that a document describes. -/
def ofJson? (j : Json) : Option SchemaField := do
  let r ← record? ["name", "type", "description", "required"] 2 j
  return {
    name := ← field? str? r "name"
    type := ← field? str? r "type"
    description := ← optionalField? str? r "description"
    required := ← defaultField? bool? true r "required" }

end SchemaField

namespace EntityBase

/-- The members of the base of an entity. -/
def members (b : EntityBase) : List (String × Json) :=
  [("id", b.id), ("name", b.name), ("description", ofString? b.description),
    ("metadata", .obj b.metadata), ("source_refs", .strings b.sourceRefs),
    ("created_at", instantToJson b.createdAt), ("updated_at", instantToJson b.updatedAt)]

/-- The base that the members of an object describe. -/
def ofMembers? (r : List (String × Json)) : Option EntityBase := do
  return {
    id := ← field? str? r "id"
    name := ← field? str? r "name"
    description := ← optionalField? str? r "description"
    metadata := ← defaultField? metadataOfJson? [] r "metadata"
    sourceRefs := ← defaultField? strings? [] r "source_refs"
    createdAt := ← field? instantOfJson? r "created_at"
    updatedAt := ← field? instantOfJson? r "updated_at" }

end EntityBase

/-- An optional string, absent unless it is there. -/
def textField? (r : List (String × Json)) (name : String) : Option (Option String) :=
  optionalField? str? r name

/-- A list of strings, empty unless it is there. -/
def listField? (r : List (String × Json)) (name : String) : Option (List String) :=
  defaultField? strings? [] r name

namespace Detail

/-- The members of the details of an entity. -/
def members : Detail → List (String × Json)
  | service d => [
    ("repository", ofString? d.repository), ("language", ofString? d.language),
    ("framework", ofString? d.framework), ("status", d.status.label), ("team", ofString? d.team),
    ("dependencies", .strings d.dependencies), ("apis", .strings d.apis),
    ("databases", .strings d.databases), ("config_files", .strings d.configFiles),
    ("documentation_status", ofString? d.documentationStatus), ("traits", d.traits.toJson)]
  | domain d => [
    ("services", .strings d.services), ("parent_domain", ofString? d.parentDomain),
    ("sub_domains", .strings d.subDomains)]
  | api d => [
    ("service_id", ofString? d.serviceId), ("api_type", d.apiType.label),
    ("version", ofString? d.version), ("base_url", ofString? d.baseUrl),
    ("auth_type", ofString? d.authType), ("spec_file", ofString? d.specFile),
    ("endpoints", .strings d.endpoints)]
  | endpoint d => [
    ("api_id", ofString? d.apiId), ("path", d.path), ("method", d.method),
    ("request_schema", ofString? d.requestSchema), ("response_schema", ofString? d.responseSchema),
    ("auth_required", d.authRequired), ("deprecated", d.deprecated), ("examples", .arr d.examples)]
  | schema d => [
    ("schema_type", d.schemaType), ("service_id", ofString? d.serviceId),
    ("definition", d.definition.getD .null), ("fields", .arr (d.fields.map SchemaField.toJson)),
    ("relationships", .strings d.relationships), ("graphql_kind", ofString? d.graphqlKind)]
  | document d => [
    ("source_type", d.sourceType.label), ("url", d.url), ("content", ofString? d.content),
    ("content_hash", d.contentHash), ("labels", .strings d.labels),
    ("linked_services", .strings d.linkedServices),
    ("last_modified", ofOption instantToJson d.lastModified), ("trust_level", d.trustLevel.label),
    ("disclaimer", ofString? d.disclaimer)]
  | person d => [
    ("email", ofString? d.email), ("team", ofString? d.team), ("role", ofString? d.role),
    ("owned_services", .strings d.ownedServices)]
  | repository d => [
    ("url", ofString? d.url), ("default_branch", d.defaultBranch),
    ("languages", .strings d.languages), ("services", .strings d.services)]
  | integration d => [
    ("integration_type", d.integrationType), ("provider", ofString? d.provider),
    ("services", .strings d.services), ("config_keys", .strings d.configKeys)]

/-- The details of a service that the members of an object describe. -/
def serviceOf? (r : List (String × Json)) : Option Service := do
  return {
    repository := ← textField? r "repository"
    language := ← textField? r "language"
    framework := ← textField? r "framework"
    status := ← defaultField? ServiceStatus.ofJson? .active r "status"
    team := ← textField? r "team"
    dependencies := ← listField? r "dependencies"
    apis := ← listField? r "apis"
    databases := ← listField? r "databases"
    configFiles := ← listField? r "config_files"
    documentationStatus := ← textField? r "documentation_status"
    traits := ← defaultField? ServiceTraits.ofJson? {} r "traits" }

/-- The details of an interface that the members of an object describe. -/
def apiOf? (r : List (String × Json)) : Option Api := do
  return {
    serviceId := ← textField? r "service_id"
    apiType := ← defaultField? ApiType.ofJson? .rest r "api_type"
    version := ← textField? r "version"
    baseUrl := ← textField? r "base_url"
    authType := ← textField? r "auth_type"
    specFile := ← textField? r "spec_file"
    endpoints := ← listField? r "endpoints" }

/-- The details of an endpoint that the members of an object describe. -/
def endpointOf? (r : List (String × Json)) : Option Endpoint := do
  return {
    apiId := ← textField? r "api_id"
    path := ← field? str? r "path"
    method := ← field? str? r "method"
    requestSchema := ← textField? r "request_schema"
    responseSchema := ← textField? r "response_schema"
    authRequired := ← defaultField? bool? false r "auth_required"
    deprecated := ← defaultField? bool? false r "deprecated"
    examples := ← defaultField? (list? fun j => some j.sorted) [] r "examples" }

/-- The details of a schema that the members of an object describe. -/
def schemaOf? (r : List (String × Json)) : Option Schema := do
  return {
    schemaType := ← field? str? r "schema_type"
    serviceId := ← textField? r "service_id"
    definition := ← optionalField? (fun j => some j.sorted) r "definition"
    fields := ← defaultField? (list? SchemaField.ofJson?) [] r "fields"
    relationships := ← listField? r "relationships"
    graphqlKind := ← textField? r "graphql_kind" }

/-- The details of a document that the members of an object describe. -/
def documentOf? (r : List (String × Json)) : Option Document := do
  return {
    sourceType := ← field? DocumentSource.ofJson? r "source_type"
    url := ← field? str? r "url"
    content := ← textField? r "content"
    contentHash := ← defaultField? str? "" r "content_hash"
    labels := ← listField? r "labels"
    linkedServices := ← listField? r "linked_services"
    lastModified := ← optionalField? instantOfJson? r "last_modified"
    trustLevel := ← defaultField? TrustLevel.ofJson? .medium r "trust_level"
    disclaimer := ← textField? r "disclaimer" }

/-- The details of an entity of a type that the members of an object describe. -/
def ofMembers? (type : EntityType) (r : List (String × Json)) : Option Detail :=
  match type with
  | .service => (serviceOf? r).map service
  | .domain => do
    return domain {
      services := ← listField? r "services"
      parentDomain := ← textField? r "parent_domain"
      subDomains := ← listField? r "sub_domains" }
  | .api => (apiOf? r).map api
  | .endpoint => (endpointOf? r).map endpoint
  | .schema => (schemaOf? r).map schema
  | .document => (documentOf? r).map document
  | .person => do
    return person {
      email := ← textField? r "email"
      team := ← textField? r "team"
      role := ← textField? r "role"
      ownedServices := ← listField? r "owned_services" }
  | .repository => do
    return repository {
      url := ← textField? r "url"
      defaultBranch := ← defaultField? str? CodeAtlas.defaultBranch r "default_branch"
      languages := ← listField? r "languages"
      services := ← listField? r "services" }
  | .integration => do
    return integration {
      integrationType := ← field? str? r "integration_type"
      provider := ← textField? r "provider"
      services := ← listField? r "services"
      configKeys := ← listField? r "config_keys" }

end Detail

namespace Entity

/-- The document of an entity. -/
def toJson (e : Entity) : Json :=
  .obj (("entity_type", .str e.type.label) :: (e.base.members ++ e.detail.members))

/-- The entity that a document describes. No member that it has is given twice. -/
def ofJson? (j : Json) : Option Entity := do
  let r ← j.obj?
  let type ← field? (fun j => j.str? >>= EntityType.ofLabel?) r "entity_type"
  let e : Entity := ⟨← EntityBase.ofMembers? r, ← Detail.ofMembers? type r⟩
  let names := "entity_type" :: (e.base.members ++ e.detail.members).map (·.1)
  if unrepeated names r then some e else none

end Entity

end CodeAtlas.Graph
