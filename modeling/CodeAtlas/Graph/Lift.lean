import CodeAtlas.Facts.Analysis
import CodeAtlas.Graph.Query

/-!
# Lifting an analysis into a graph

The analysis of a repository becomes a repository that contains a service. The service owns a schema
for every model, exposes an interface that contains the endpoints, uses an integration for every
target of its side effects, and owns a schema for every resource of its infrastructure.
-/

namespace CodeAtlas.Graph

/-- How many entities an analysis became. -/
structure LiftSummary where
  serviceId : String
  schemas : Nat
  endpoints : Nat
  integrations : Nat
  infrastructure : Nat
  deriving DecidableEq, Repr

/-- A relation without notes. -/
def link (g : Graph) (source target : String) (type : RelationType) : Graph :=
  g.relate { source, target, type }

/-- Where a fact was found: its link, or its file and line. -/
def sourceRef (link? : Option String) (file : String) (line : Nat) : String :=
  link?.getD (file ++ ":" ++ toString line)

/-- A name that is not used: `base` with the first number from `n` on that is free. There are fewer
used names than `fuel`. -/
def numbered (used : List String) (base : String) : (fuel n : Nat) → String
  | 0, n => base ++ "-" ++ toString n
  | fuel + 1, n =>
      let id := base ++ "-" ++ toString n
      if used.contains id then numbered used base fuel (n + 1) else id

/-- The id of the schema of a model: made of its name, then of its file too, then with a number. -/
def schemaId (slug : String) (used : List String) (m : Model) : String :=
  let id := "schema:" ++ slug ++ "." ++ slugify m.name
  if used.contains id then
    let qualified := "schema:" ++ slug ++ "." ++ slugify m.file ++ "." ++ slugify m.name
    if used.contains qualified then numbered used qualified used.length 2 else qualified
  else id

/-- The models with the ids of their schemas; `used` are the ids taken before. -/
def schemaIds (slug : String) (used : List String) : List Model → List (Model × String)
  | [] => []
  | m :: models =>
      let id := schemaId slug used m
      (m, id) :: schemaIds slug (id :: used) models

/-- The schema of a model. -/
def schemaOfModel (now : Instant) (serviceId id : String) (m : Model) : Entity :=
  let detail : Schema := {
    schemaType := "model"
    serviceId := some serviceId
    fields := m.fields.map fun f =>
      { name := f.name, type := f.type, description := f.description, required := f.required }
    definition := some (.ofMembers [("model_type", m.kind.label), ("file", m.file),
      ("line", .nat m.line), ("methods", .strings m.methods), ("parent", .ofString? m.parent),
      ("interfaces", .strings m.interfaces), ("decorators", .strings m.decorators)])
    relationships := m.parent.toList ++ m.interfaces }
  let e := Entity.new now id m.name (.schema detail)
  { e with base := { e.base with
      description := m.description, sourceRefs := [sourceRef m.sourceLink m.file m.line] } }

/-- The first id of every model name. -/
abbrev SchemaNames := List (String × String)

/-- The id of the first model with a name. -/
def firstIds (models : List (Model × String)) : SchemaNames :=
  models.map fun (m, id) => (m.name, id)

/-- Lifts the models with their ids. -/
def liftModels (g : Graph) (now : Instant) (serviceId : String) (models : List (Model × String)) :
    Graph :=
  let names := firstIds models
  let g := models.foldl (fun g (m, id) =>
    (g.addEntity now (schemaOfModel now serviceId id m)).link serviceId id .owns) g
  models.foldl (fun g (m, _) =>
    match names.lookup m.name with
    | none => g
    | some source => (m.parent.toList ++ m.interfaces).foldl (fun g parent =>
        match names.lookup parent with
        | some target => if target != source then g.link source target .implements else g
        | none => g) g) g

/-- The entity of an endpoint. -/
def entityOfEndpoint (now : Instant) (apiId id : String) (names : SchemaNames)
    (e : CodeAtlas.Endpoint) : Entity :=
  let bare := fun (t : String) =>
    String.ofList (Text.trimEndWord ['[', ']'] t.toList)
  let detail : Endpoint := {
    path := e.path
    method := e.method
    apiId := some apiId
    responseSchema := e.responseType >>= fun t => names.lookup (bare t) }
  let entity := Entity.new now id (e.method ++ " " ++ e.path) (.endpoint detail)
  let entity := { entity with base := { entity.base with
    description := e.description, sourceRefs := [sourceRef e.sourceLink e.file e.line] } }
  let entity := match e.handler with
    | some h => entity.note "handler" h
    | none => entity
  let entity := if e.parameters.isEmpty then entity
    else entity.note "parameters" (.strings e.parameters)
  if e.decorators.isEmpty then entity else entity.note "decorators" (.strings e.decorators)

/-- The id of the entity of an endpoint. -/
def endpointId (slug : String) (e : CodeAtlas.Endpoint) : String :=
  "endpoint:" ++ slug ++ ":" ++ slugify (e.method ++ " " ++ e.path)

/-- The endpoints with their ids, of those with one id only the first. -/
def endpointIds (slug : String) (seen : List String) :
    List CodeAtlas.Endpoint → List (CodeAtlas.Endpoint × String)
  | [] => []
  | e :: endpoints =>
      let id := endpointId slug e
      if seen.contains id then endpointIds slug seen endpoints
      else (e, id) :: endpointIds slug (id :: seen) endpoints

/-- The style of an interface with these endpoints. -/
def apiTypeOf (endpoints : List CodeAtlas.Endpoint) : ApiType :=
  if endpoints.all fun e => asciiUppered e.method == "GRAPHQL" then .graphql else .rest

/-- Lifts the endpoints: the graph, and how many entities they became. -/
def liftEndpoints (g : Graph) (now : Instant) (serviceId slug : String) (names : SchemaNames)
    (endpoints : List CodeAtlas.Endpoint) : Graph × Nat :=
  if endpoints.isEmpty then (g, 0)
  else
    let apiId := "api:" ++ slug
    let ids := endpointIds slug [] endpoints
    let api : Api :=
      { serviceId := some serviceId, apiType := apiTypeOf endpoints, endpoints := ids.map (·.2) }
    let g := (g.addEntity now (Entity.new now apiId (slug ++ " API") (.api api))).link
      serviceId apiId
      .exposes
    let g := ids.foldl (fun g (e, id) =>
      let entity := entityOfEndpoint now apiId id names e
      let g := (g.addEntity now entity).link apiId id .contains
      match entity.detail with
      | .endpoint { responseSchema := some schema, .. } => g.link id schema .references
      | _ => g) g
    (g, ids.length)

/-- The targets of side effects by category and target, sorted, each with its operations. -/
def groupedEffects (effects : List SideEffect) : List ((String × String) × List String) :=
  let keys := effects.filterMap fun e => e.target.map fun t => (e.category.label, t)
  let unique := keys.foldl (fun l k => if l.contains k then l else l ++ [k]) []
  let sorted := unique.mergeSort fun a b => if a.1 != b.1 then a.1 < b.1 else !(b.2 < a.2)
  sorted.map fun (category, target) =>
    let operations := effects.filterMap fun e =>
      if e.category.label == category && e.target == some target then some e.operation else none
    ((category, target), sortedSet operations)

/-- The number of side effects without a target, by category. -/
def untargeted (effects : List SideEffect) : List (String × Nat) :=
  countByLabel EffectCategory.all EffectCategory.label
    ((effects.filter fun e => e.target.isNone).map (·.category))

/-- The integration that a service uses for a target, made of the one that is there. -/
def integrationFor (g : Graph) (now : Instant) (serviceId id category target : String)
    (operations : List String) : Entity :=
  let fresh := Entity.new now id target (.integration { integrationType := category })
  let (e, d) : Entity × Integration :=
    match g.get? id with
    | some ⟨base, .integration d⟩ => (⟨base, .integration d⟩, d)
    | _ => (fresh, { integrationType := category })
  let services := if d.services.contains serviceId then d.services else d.services ++ [serviceId]
  Entity.note { e with detail := .integration { d with provider := some target, services } }
    "operations" (.strings operations)

/-- Lifts the side effects: the graph, and how many integrations they became. -/
def liftEffects (g : Graph) (now : Instant) (serviceId : String) (effects : List SideEffect) :
    Graph × Nat :=
  let grouped := groupedEffects effects
  let g := grouped.foldl (fun g ((category, target), operations) =>
    let id := entityId .integration (category ++ "-" ++ target)
    (g.addEntity now (g.integrationFor now serviceId id category target operations)).link
      serviceId id
      .uses) g
  let rest := untargeted effects
  let g := if rest.isEmpty then g else
    match g.get? serviceId with
    | some e =>
        if e.type == .service then
          g.addEntity now
            (e.note "untargeted_side_effects" (.obj (rest.map fun (k, n) => (k, .nat n))))
        else g
    | none => g
  (g, grouped.length)

/-- The schema of a resource. -/
def schemaOfResource (now : Instant) (owner? : Option String) (r : Infra.Resource) : Entity :=
  let detail : Schema := {
    schemaType := "infrastructure"
    serviceId := owner?
    definition := some (.ofMembers [("kind", r.kind), ("resource_type", r.resourceType),
      ("name", r.name), ("file", r.file), ("line", .nat r.line),
      ("attributes", .ofMembers (r.attributes.map fun (k, v) => (k, .str v)))])
    relationships := r.dependencies }
  let e := Entity.new now ("infra:" ++ r.address) r.address (.schema detail)
  { e with base := { e.base with sourceRefs := [sourceRef none r.file r.line] } }

/-- Lifts the resources of a diagram, owned by `owner?`: the graph, and how many there are. -/
def liftInfrastructure (g : Graph) (now : Instant) (owner? : Option String) (d : Infra.Diagram) :
    Graph × Nat :=
  let g := d.resources.foldl (fun g r =>
    let g := g.addEntity now (schemaOfResource now owner? r)
    match owner? with
    | some owner => g.link owner ("infra:" ++ r.address) .owns
    | none => g) g
  let g := d.resources.foldl (fun g r => r.dependencies.foldl (fun g dependency =>
    if g.contains ("infra:" ++ dependency) then
      g.relate
        { source := "infra:" ++ r.address, target := "infra:" ++ dependency, type := .dependsOn
          metadata := [("source", "terraform")] }
    else g) g) g
  (g, d.resources.length)

/-- The service of an analysis. -/
def serviceOf (now : Instant) (name : String) (url? : Option String) (a : Analysis) : Entity :=
  let detail : Service := {
    repository := url?
    language := some a.language
    dependencies := sortedSet (a.dependencies.map (·.name))
    configFiles := sortedSet (a.settings.map (·.file))
    databases := sortedSet (a.sideEffects.filterMap fun e =>
      if e.category == .database then e.target else none)
    apis := if a.endpoints.isEmpty then [] else ["api:" ++ slugify name] }
  (Entity.newNamed now name (.service detail)).note "config_keys"
    (.strings (sortedSet (a.settings.map (·.key))))

/-- Lifts an analysis for the service with a name. -/
def lift (g : Graph) (now : Instant) (name : String) (url? : Option String) (a : Analysis) :
    Graph × LiftSummary :=
  let serviceId := entityId .service name
  let repositoryId := entityId .repository name
  let slug := slugify name
  let languages := (Text.splitChar '+' a.language.toList).map String.ofList
  let repository : Repository := { url := url?, languages, services := [serviceId] }
  let g := g.addEntity now (serviceOf now name url? a)
  let g := g.addEntity now (Entity.newNamed now name (.repository repository))
  let g := g.link repositoryId serviceId .contains
  let models := schemaIds slug [] a.models
  let g := g.liftModels now serviceId models
  let (g, endpoints) := g.liftEndpoints now serviceId slug (firstIds models) a.endpoints
  let (g, integrations) := g.liftEffects now serviceId a.sideEffects
  let (g, infrastructure) := match a.infrastructure with
    | some d => g.liftInfrastructure now (some serviceId) d
    | none => (g, 0)
  let schemas := (firstIds models).foldl (fun (l : List String) (n, _) =>
    if l.contains n then l else n :: l) []
  (g, { serviceId, schemas := schemas.length, endpoints, integrations, infrastructure })

end CodeAtlas.Graph
