import CodeAtlas.Proofs.Graph.Script

/-!
# Lifting an analysis twice

Lifting an analysis is a script that depends on neither the graph nor the time. Apart from the
dependencies of the infrastructure, which come last, its relations are between entities that it made
before; under every id it renews the entity, or one service extends an integration. So lifting an
analysis again changes nothing but times, whatever ids its parts share.
-/

namespace CodeAtlas.Graph

open Step

/-! ## The script -/

/-- The time of the entities in a script, which does not matter. -/
def epoch : Instant := ⟨0, 0⟩

/-- A step that adds a relation without notes. -/
def linkStep (source target : String) (type : RelationType) : Step :=
  .relate { source, target, type }

/-- The steps for the service and its repository. -/
def serviceSteps (name : String) (url? : Option String) (a : Analysis) : List Step :=
  let serviceId := entityId .service name
  let languages := (Text.splitChar '+' a.language.toList).map String.ofList
  [.renew (serviceOf epoch name url? a),
    .renew (Entity.newNamed epoch name
      (.repository { url := url?, languages, services := [serviceId] })),
    linkStep (entityId .repository name) serviceId .contains]

/-- The steps for the schemas of models. -/
def schemaSteps (serviceId : String) (models : List (Model × String)) : List Step :=
  models.flatMap fun (m, id) =>
    [.renew (schemaOfModel epoch serviceId id m), linkStep serviceId id .owns]

/-- The steps from a model to what it implements. -/
def parentSteps (names : SchemaNames) (m : Model) : List Step :=
  match names.lookup m.name with
  | none => []
  | some source => (m.parent.toList ++ m.interfaces).flatMap fun parent =>
      match names.lookup parent with
      | some target => if target != source then [linkStep source target .implements] else []
      | none => []

/-- A step from a model leads to the schema of what it inherits from, unless that is its own. -/
theorem mem_parentSteps {names : SchemaNames} {m : Model} {s : Step} : s ∈ parentSteps names m
    ↔ ∃ source target, names.lookup m.name = some source
      ∧ (∃ n ∈ m.parent.toList ++ m.interfaces, names.lookup n = some target)
      ∧ target ≠ source ∧ s = linkStep source target .implements := by
  have htarget : ∀ source parent : String, s ∈ (match names.lookup parent with
        | some target => if target != source then [linkStep source target .implements] else []
        | none => [])
      ↔ ∃ target, names.lookup parent = some target ∧ target ≠ source
        ∧ s = linkStep source target .implements := by
    intro source parent
    cases names.lookup parent with
    | none => exact iff_of_false List.not_mem_nil fun ⟨_, h, _⟩ => nomatch h
    | some target =>
        dsimp only
        constructor
        · intro h
          split at h
          · next hne => exact ⟨target, rfl, bne_iff_ne.1 hne, List.mem_singleton.1 h⟩
          · cases h
        · rintro ⟨target', heq, hne, rfl⟩
          obtain rfl := Option.some.inj heq
          rw [if_pos (bne_iff_ne.2 hne)]
          exact List.mem_singleton_self _
  rw [parentSteps]
  cases names.lookup m.name with
  | none => exact iff_of_false List.not_mem_nil fun ⟨_, _, h, _⟩ => nomatch h
  | some source =>
      dsimp only
      rw [List.mem_flatMap]
      constructor
      · rintro ⟨parent, hparent, hs⟩
        obtain ⟨target, h, hne, rfl⟩ := (htarget source parent).1 hs
        exact ⟨source, target, rfl, ⟨parent, hparent, h⟩, hne, rfl⟩
      · rintro ⟨source', target, hsource, ⟨parent, hparent, h⟩, hne, rfl⟩
        obtain rfl := Option.some.inj hsource
        exact ⟨parent, hparent, (htarget source parent).2 ⟨target, h, hne, rfl⟩⟩

/-- The steps for models. -/
def modelSteps (serviceId : String) (models : List (Model × String)) : List Step :=
  schemaSteps serviceId models ++ models.flatMap fun (m, _) => parentSteps (firstIds models) m

/-- The steps for an endpoint. -/
def endpointSteps (apiId : String) (names : SchemaNames) (e : CodeAtlas.Endpoint) (id : String) :
    List Step :=
  let entity := entityOfEndpoint epoch apiId id names e
  [.renew entity, linkStep apiId id .contains]
    ++ match entity.detail with
      | .endpoint { responseSchema := some schema, .. } => [linkStep id schema .references]
      | _ => []

/-- The steps for an interface with its endpoints. -/
def apiSteps (serviceId slug : String) (names : SchemaNames) (endpoints : List CodeAtlas.Endpoint) :
    List Step :=
  if endpoints.isEmpty then []
  else
    let apiId := "api:" ++ slug
    let ids := endpointIds slug [] endpoints
    let api : Api :=
      { serviceId := some serviceId, apiType := apiTypeOf endpoints, endpoints := ids.map (·.2) }
    [.renew (Entity.new epoch apiId (slug ++ " API") (.api api)), linkStep serviceId apiId .exposes]
      ++ ids.flatMap fun (e, id) => endpointSteps apiId names e id

/-- The steps for side effects. -/
def effectSteps (serviceId : String) (effects : List SideEffect) : List Step :=
  let rest := untargeted effects
  ((groupedEffects effects).flatMap fun ((category, target), operations) =>
    let id := entityId .integration (category ++ "-" ++ target)
    [.extend id serviceId category target operations, linkStep serviceId id .uses])
    ++ if rest.isEmpty then [] else
      [.mark serviceId "untargeted_side_effects" (.obj (rest.map fun (k, n) => (k, .nat n)))]

/-- The steps for some resources, which an owner may have. -/
def placeSteps (owner? : Option String) (resources : List Infra.Resource) : List Step :=
  resources.flatMap fun r => .renew (schemaOfResource epoch owner? r)
    :: (owner?.map fun owner => linkStep owner ("infra:" ++ r.address) .owns).toList

/-- The steps for the resources of a diagram. -/
def resourceSteps (serviceId : String) (d : Infra.Diagram) : List Step :=
  d.resources.flatMap fun r =>
    [.renew (schemaOfResource epoch (some serviceId) r),
      linkStep serviceId ("infra:" ++ r.address) .owns]

/-- The steps for what the resources of a diagram depend on. -/
def dependencySteps (d : Infra.Diagram) : List Step :=
  d.resources.flatMap fun r => r.dependencies.map fun dependency =>
    .relate { source := "infra:" ++ r.address, target := "infra:" ++ dependency, type := .dependsOn
              metadata := [("source", "terraform")] }

/-- The steps of lifting up to the last entity. -/
def mainSteps (name : String) (url? : Option String) (a : Analysis) : List Step :=
  let serviceId := entityId .service name
  let slug := slugify name
  let models := schemaIds slug [] a.models
  serviceSteps name url? a ++ (modelSteps serviceId models
    ++ (apiSteps serviceId slug (firstIds models) a.endpoints
      ++ (effectSteps serviceId a.sideEffects
        ++ (a.infrastructure.map (resourceSteps serviceId)).getD [])))

/-- The steps of lifting behind the last entity. -/
def lastSteps (a : Analysis) : List Step := (a.infrastructure.map dependencySteps).getD []

/-! ## Lifting is the script -/

/-- Lifting models is a script. -/
theorem liftModels_eq (g : Graph) (now : Instant) (serviceId : String)
    (models : List (Model × String)) :
    g.liftModels now serviceId models = runAll now g (modelSteps serviceId models) := by
  have hparents : ∀ (g : Graph) (names : SchemaNames) (m : Model),
      runAll now g (parentSteps names m) = match names.lookup m.name with
        | none => g
        | some source => (m.parent.toList ++ m.interfaces).foldl (fun g parent =>
            match names.lookup parent with
            | some target => if target != source then g.link source target .implements else g
            | none => g) g := by
    intro g names m
    rw [parentSteps]
    cases names.lookup m.name with
    | none => rfl
    | some source =>
        dsimp only
        rw [runAll_flatMap]
        congr
        funext g parent
        cases names.lookup parent with
        | none => rfl
        | some target =>
            dsimp only
            split
            · rfl
            · rfl
  rw [modelSteps, runAll_append, schemaSteps, runAll_flatMap, runAll_flatMap]
  simp only [hparents]
  rfl

/-- The entity of an endpoint made at another time, and what it responds with. -/
theorem entityOfEndpoint_eq (now : Instant) (apiId id : String) (names : SchemaNames)
    (e : CodeAtlas.Endpoint) :
    (entityOfEndpoint epoch apiId id names e).id = id
      ∧ (entityOfEndpoint epoch apiId id names e).stamped now now
        = entityOfEndpoint now apiId id names e
      ∧ ∃ d : Endpoint, (entityOfEndpoint now apiId id names e).detail = .endpoint d
        ∧ (entityOfEndpoint epoch apiId id names e).detail = .endpoint d
        ∧ ∀ schema, d.responseSchema = some schema → ∃ name, names.lookup name = some schema := by
  have hsome : ∀ schema, (e.responseType >>= fun t => names.lookup
      (String.ofList (Text.trimEndWord ['[', ']'] t.toList))) = some schema →
      ∃ name, names.lookup name = some schema := by
    intro schema h
    obtain ⟨type, -, hlookup⟩ := Option.bind_eq_some_iff.1 h
    exact ⟨_, hlookup⟩
  rw [entityOfEndpoint, entityOfEndpoint]
  cases e.handler
  all_goals
    cases e.parameters.isEmpty
    all_goals
      cases e.decorators.isEmpty
      all_goals exact ⟨rfl, rfl, _, rfl, rfl, hsome⟩

/-- The script of one endpoint adds its entity, contains it in the interface and relates it to
schemas. -/
theorem runAll_endpointSteps (g : Graph) (now : Instant) (apiId : String) (names : SchemaNames)
    (e : CodeAtlas.Endpoint) (id : String) : runAll now g (endpointSteps apiId names e id) = (
      let entity := entityOfEndpoint now apiId id names e
      let g := (g.addEntity now entity).link apiId id .contains
      match entity.detail with
      | .endpoint { responseSchema := some schema, .. } => g.link id schema .references
      | _ => g) := by
  obtain ⟨-, hstamped, ⟨_, _, _, _, response, _, _, _⟩, hnow, hepoch, -⟩ :=
    entityOfEndpoint_eq now apiId id names e
  rw [endpointSteps, runAll_append, hepoch]
  dsimp only
  rw [hnow, ← hstamped]
  cases response with
  | none => rfl
  | some schema => rfl

/-- Lifting endpoints is a script. -/
theorem liftEndpoints_eq (g : Graph) (now : Instant) (serviceId slug : String)
    (names : SchemaNames) (endpoints : List CodeAtlas.Endpoint) :
    (g.liftEndpoints now serviceId slug names endpoints).1
      = runAll now g (apiSteps serviceId slug names endpoints) := by
  rw [liftEndpoints, apiSteps]
  split
  · rfl
  · dsimp only
    rw [runAll_append, runAll_flatMap]
    simp only [runAll_endpointSteps]
    rfl

/-- Lifting side effects is a script. -/
theorem liftEffects_eq (g : Graph) (now : Instant) (serviceId : String)
    (effects : List SideEffect) :
    (g.liftEffects now serviceId effects).1 = runAll now g (effectSteps serviceId effects) := by
  rw [liftEffects, effectSteps]
  dsimp only
  rw [runAll_append, runAll_flatMap]
  split
  · rfl
  · rfl

/-- A relation whose target is not there need not be looked up before it is added. -/
theorem relate_of_lookup (g : Graph) (source target : String) (type : RelationType)
    (metadata : Metadata) :
    (if g.contains target then g.relate ⟨source, target, type, metadata⟩ else g)
      = g.relate ⟨source, target, type, metadata⟩ := by
  split
  · rfl
  · next h => exact (Coherent.relate_of_not g fun hends => h hends.2).symm

/-- Lifting resources is a script that places them and then relates them. -/
theorem liftInfrastructure_fst (g : Graph) (now : Instant) (owner? : Option String)
    (d : Infra.Diagram) : (g.liftInfrastructure now owner? d).1
      = runAll now g (placeSteps owner? d.resources ++ dependencySteps d) := by
  rw [liftInfrastructure, runAll_append, placeSteps, dependencySteps, runAll_flatMap,
    runAll_flatMap]
  simp only [runAll, List.foldl_map, relate_of_lookup]
  cases owner? with
  | none => rfl
  | some owner => rfl

/-- Lifting resources of a service is a script that places each with its owner and then relates
them. -/
theorem liftInfrastructure_eq (g : Graph) (now : Instant) (serviceId : String)
    (d : Infra.Diagram) :
    (g.liftInfrastructure now (some serviceId) d).1
      = runAll now g (resourceSteps serviceId d ++ dependencySteps d) :=
  liftInfrastructure_fst g now (some serviceId) d

/-- Lifting an analysis is a script. -/
theorem lift_eq (g : Graph) (now : Instant) (name : String) (url? : Option String) (a : Analysis) :
    (g.lift now name url? a).1 = runAll now g (mainSteps name url? a ++ lastSteps a) := by
  have hstart : runAll now g (serviceSteps name url? a)
      = ((g.addEntity now (serviceOf now name url? a)).addEntity now
          (Entity.newNamed now name (.repository {
            url := url?
            languages := (Text.splitChar '+' a.language.toList).map String.ofList
            services := [entityId .service name] }))).link
          (entityId .repository name) (entityId .service name) .contains := rfl
  rw [mainSteps, lastSteps, lift]
  dsimp only
  rw [runAll_append, runAll_append, runAll_append, runAll_append, runAll_append, hstart,
    ← liftModels_eq, ← liftEndpoints_eq, ← liftEffects_eq]
  cases a.infrastructure with
  | none => rfl
  | some d =>
      dsimp only [Option.map_some, Option.getD_some]
      rw [← runAll_append, ← liftInfrastructure_eq]

/-- What is counted depends on neither the graph nor the time. -/
theorem summary_eq (g g' : Graph) (now now' : Instant) (name : String) (url? : Option String)
    (a : Analysis) : (g.lift now name url? a).2 = (g'.lift now' name url? a).2 := by
  have hendpoints : ∀ (g g' : Graph) (serviceId slug : String) (names : SchemaNames),
      (g.liftEndpoints now serviceId slug names a.endpoints).2
        = (g'.liftEndpoints now' serviceId slug names a.endpoints).2 := by
    intro g g' serviceId slug names
    rw [liftEndpoints, liftEndpoints]
    split
    · rfl
    · rfl
  rw [lift, lift]
  cases a.infrastructure with
  | none => exact congrArg (fun n => LiftSummary.mk _ _ n _ _) (hendpoints ..)
  | some d => exact congrArg (fun n => LiftSummary.mk _ _ n _ _) (hendpoints ..)

/-! ## Its relations -/

/-- A relation between ids that are known is grounded. -/
theorem grounded_linkStep {known : List String} {source target : String} (hs : source ∈ known)
    (ht : target ∈ known) (type : RelationType) : Grounded known [linkStep source target type] :=
  grounded_singleton (List.forall_mem_singleton.2 ⟨hs, ht⟩)

/-- The id that is found for the name of a model is one of the ids of models. -/
theorem mem_of_lookup_firstIds {models : List (Model × String)} {name id : String}
    (h : (firstIds models).lookup name = some id) : id ∈ models.map Prod.snd := by
  obtain ⟨front, rest, heq, -⟩ := List.lookup_eq_some_iff.1 h
  have hmem : (name, id) ∈ firstIds models :=
    heq ▸ List.mem_append_right _ List.mem_cons_self
  obtain ⟨m, hm, hid⟩ := List.mem_map.1 hmem
  exact List.mem_map.2 ⟨m, hm, congrArg Prod.snd hid⟩

/-- The steps for schemas make the ids of the models. -/
theorem made_schemaSteps (serviceId : String) (models : List (Model × String)) :
    (schemaSteps serviceId models).flatMap made = models.map Prod.snd := by
  induction models with
  | nil => rfl
  | cons m rest ih => exact congrArg (m.2 :: ·) ih

/-- The relations of models are between the service and their schemas, and among these. -/
theorem grounded_modelSteps {known : List String} {serviceId : String} (hs : serviceId ∈ known)
    (models : List (Model × String)) : Grounded known (modelSteps serviceId models) := by
  have hschemas : Grounded known (schemaSteps serviceId models) := by
    refine grounded_flatMap fun m _ => ⟨nofun, grounded_linkStep ?_ ?_ _⟩
    · exact List.mem_append_right _ hs
    · exact List.mem_append_left _ (List.mem_singleton_self _)
  refine hschemas.append (grounded_flatMap fun m hm => ?_)
  rw [made_schemaSteps]
  have hknown : ∀ {name id : String}, (firstIds models).lookup name = some id →
      id ∈ models.map Prod.snd ++ known :=
    fun h => List.mem_append_left _ (mem_of_lookup_firstIds h)
  refine grounded_of_forall fun s hs q hq => ?_
  obtain ⟨source, target, hsource, ⟨_, -, htarget⟩, -, rfl⟩ := mem_parentSteps.1 hs
  obtain rfl := List.mem_singleton.1 hq
  exact ⟨hknown hsource, hknown htarget⟩

/-- The steps for models make the ids of the models. -/
theorem subset_made_modelSteps (serviceId : String) (models : List (Model × String)) {id : String}
    (h : id ∈ models.map Prod.snd) : id ∈ (modelSteps serviceId models).flatMap made := by
  rw [modelSteps, List.flatMap_append, made_schemaSteps]
  exact List.mem_append_left _ h

/-- The steps for an endpoint are grounded if the interface and the schemas are known. -/
theorem grounded_endpointSteps {known : List String} {apiId : String} (ha : apiId ∈ known)
    {names : SchemaNames} (hnames : ∀ {name id}, names.lookup name = some id → id ∈ known)
    (e : CodeAtlas.Endpoint) (id : String) : Grounded known (endpointSteps apiId names e id) := by
  obtain ⟨hid, -, ⟨_, _, _, _, response, _, _, _⟩, -, hepoch, hschema⟩ :=
    entityOfEndpoint_eq epoch apiId id names e
  have hmade : id ∈ made (.renew (entityOfEndpoint epoch apiId id names e)) :=
    List.mem_singleton.2 hid.symm
  rw [endpointSteps, hepoch]
  refine Grounded.append ⟨nofun, grounded_linkStep ?_ ?_ _⟩ ?_
  · exact List.mem_append_right _ ha
  · exact List.mem_append_left _ hmade
  · cases response with
    | none => trivial
    | some schema =>
        obtain ⟨name, hname⟩ := hschema schema rfl
        exact grounded_linkStep (List.mem_append_left _ (List.mem_append_left _ hmade))
          (List.mem_append_right _ (hnames hname)) _

/-- The relations of endpoints are between the service, its interface, the endpoints, and
schemas. -/
theorem grounded_apiSteps {known : List String} {serviceId : String} (hs : serviceId ∈ known)
    (slug : String) {names : SchemaNames}
    (hnames : ∀ {name id}, names.lookup name = some id → id ∈ known)
    (endpoints : List CodeAtlas.Endpoint) :
    Grounded known (apiSteps serviceId slug names endpoints) := by
  rw [apiSteps]
  split
  · trivial
  · refine Grounded.append ⟨nofun, grounded_linkStep ?_ ?_ _⟩ (grounded_flatMap fun e _ => ?_)
    · exact List.mem_append_right _ hs
    · exact List.mem_append_left _ (List.mem_singleton_self _)
    · refine grounded_endpointSteps ?_ (fun h => List.mem_append_right _ (hnames h)) _ _
      exact List.mem_append_left _ List.mem_cons_self

/-- The steps for side effects are grounded if the service is known. -/
theorem grounded_effectSteps {known : List String} {serviceId : String} (hs : serviceId ∈ known)
    (effects : List SideEffect) : Grounded known (effectSteps serviceId effects) := by
  rw [effectSteps]
  refine Grounded.append (grounded_flatMap fun effect _ => ⟨nofun, grounded_linkStep ?_ ?_ _⟩) ?_
  · exact List.mem_append_right _ hs
  · exact List.mem_append_left _ (List.mem_singleton_self _)
  · split
    · trivial
    · exact grounded_singleton nofun

/-- The steps for resources are grounded if the service is known. -/
theorem grounded_resourceSteps {known : List String} {serviceId : String} (hs : serviceId ∈ known)
    (d : Infra.Diagram) : Grounded known (resourceSteps serviceId d) := by
  refine grounded_flatMap fun r _ => ⟨nofun, grounded_linkStep ?_ ?_ _⟩
  · exact List.mem_append_right _ hs
  · exact List.mem_append_left _ (List.mem_singleton_self _)

/-- The relations of lifting up to the last entity are between entities made before. -/
theorem grounded_mainSteps (name : String) (url? : Option String) (a : Analysis) :
    Grounded [] (mainSteps name url? a) := by
  have hservice : entityId .service name ∈ (serviceSteps name url? a).flatMap made :=
    List.mem_cons_self
  have hrepository : entityId .repository name ∈ (serviceSteps name url? a).flatMap made :=
    List.mem_cons_of_mem _ List.mem_cons_self
  have hstart : Grounded [] (serviceSteps name url? a) := by
    refine ⟨nofun, nofun, grounded_linkStep ?_ ?_ _⟩
    · exact List.mem_cons_self
    · exact List.mem_cons_of_mem _ List.mem_cons_self
  rw [mainSteps]
  refine hstart.append ?_
  rw [List.append_nil]
  refine (grounded_modelSteps hservice _).append ?_
  have hservice' := fun l : List String => List.mem_append_right l hservice
  refine (grounded_apiSteps (hservice' _) _ (fun h => ?_) _).append ?_
  · exact List.mem_append_left _ (subset_made_modelSteps _ _ (mem_of_lookup_firstIds h))
  refine (grounded_effectSteps (List.mem_append_right _ (hservice' _)) _).append ?_
  cases a.infrastructure with
  | none => trivial
  | some d =>
      exact grounded_resourceSteps
        (List.mem_append_right _ (List.mem_append_right _ (hservice' _))) d

/-! ## Its steps, by what they are for -/

/-- What the entities are for that an analysis becomes. -/
inductive Part where
  | service
  | repository
  | schema
  | api
  | endpoint
  | integration
  | resource
  deriving DecidableEq

/-- The steps that change the entity under an id when an analysis is lifted. -/
inductive Occurs (name : String) (url? : Option String) (a : Analysis) : Part → String → Step → Prop
  | service : Occurs name url? a .service (entityId .service name)
    (.renew (serviceOf epoch name url? a))
  | count : Occurs name url? a .service (entityId .service name)
      (.mark (entityId .service name) "untargeted_side_effects"
        (.obj ((untargeted a.sideEffects).map fun m => (m.1, .nat m.2))))
  | repository {d : Repository} (hd : d.services = [entityId .service name]) :
      Occurs name url? a .repository (entityId .repository name)
        (.renew (Entity.newNamed epoch name (.repository d)))
  | model {m : Model} {id : String} (hm : (m, id) ∈ schemaIds (slugify name) [] a.models) :
      Occurs name url? a .schema id (.renew (schemaOfModel epoch (entityId .service name) id m))
  | api {d : Api} {label : String} (hne : a.endpoints ≠ [])
      (hd : d.endpoints = (endpointIds (slugify name) [] a.endpoints).map (·.2)) :
      Occurs name url? a .api ("api:" ++ slugify name)
        (.renew (Entity.new epoch ("api:" ++ slugify name) label (.api d)))
  | endpoint {e : CodeAtlas.Endpoint} {id : String} {names : SchemaNames}
      (he : (e, id) ∈ endpointIds (slugify name) [] a.endpoints) :
      Occurs name url? a .endpoint id
        (.renew (entityOfEndpoint epoch ("api:" ++ slugify name) id names e))
  | integration {category target : String} {operations : List String}
      (h : ((category, target), operations) ∈ groupedEffects a.sideEffects) :
      Occurs name url? a .integration (entityId .integration (category ++ "-" ++ target))
        (.extend (entityId .integration (category ++ "-" ++ target))
          (entityId .service name) category
          target operations)
  | resource {d : Infra.Diagram} (hd : a.infrastructure = some d) {r : Infra.Resource}
      (hr : r ∈ d.resources) :
      Occurs name url? a .resource ("infra:" ++ r.address)
        (.renew (schemaOfResource epoch (some (entityId .service name)) r))

/-- The relations that are added when an analysis is lifted, but for what resources depend on. -/
inductive Relates (name : String) (a : Analysis) : Relation → Prop
  | service : Relates name a
      { source := entityId .repository name, target := entityId .service name, type := .contains }
  | model {m : Model} {id : String} (hm : (m, id) ∈ schemaIds (slugify name) [] a.models) :
      Relates name a { source := entityId .service name, target := id, type := .owns }
  | parent (source target : String) : Relates name a { source, target, type := .implements }
  | api (hne : a.endpoints ≠ []) : Relates name a
      { source := entityId .service name, target := "api:" ++ slugify name, type := .exposes }
  | endpoint {e : CodeAtlas.Endpoint} {id : String}
      (he : (e, id) ∈ endpointIds (slugify name) [] a.endpoints) :
      Relates name a { source := "api:" ++ slugify name, target := id, type := .contains }
  | response (source target : String) : Relates name a { source, target, type := .references }
  | integration {category target : String} {operations : List String}
      (h : ((category, target), operations) ∈ groupedEffects a.sideEffects) : Relates name a
      { source := entityId .service name
        target := entityId .integration (category ++ "-" ++ target)
        type := .uses }
  | resource {d : Infra.Diagram} (hd : a.infrastructure = some d) {r : Infra.Resource}
      (hr : r ∈ d.resources) : Relates name a
      { source := entityId .service name, target := "infra:" ++ r.address, type := .owns }

/-- The steps of lifting up to the last entity: they change an entity or add a relation. -/
inductive Known (name : String) (url? : Option String) (a : Analysis) : Step → Prop
  | change {part : Part} {id : String} {s : Step} (h : Occurs name url? a part id s) :
      Known name url? a s
  | relation {r : Relation} (h : Relates name a r) : Known name url? a (.relate r)

/-- What holds of all items of all lists holds of those of the lists together. -/
theorem forall_mem_flatMap {α β : Type} {p : β → Prop} {l : List α} {f : α → List β}
    (h : ∀ a ∈ l, ∀ b ∈ f a, p b) : ∀ b ∈ l.flatMap f, p b := by
  intro b hb
  obtain ⟨a, ha, hb⟩ := List.mem_flatMap.1 hb
  exact h a ha b hb

section
variable (name : String) (url? : Option String) (a : Analysis)

/-- A step that changes an entity changes the one under its id. -/
theorem Occurs.id?_eq {name : String} {url? : Option String} {a : Analysis} {part : Part}
    {id : String} {s : Step} (h : Occurs name url? a part id s) : s.id? = some id := by
  cases h with
  | endpoint he => exact congrArg some (entityOfEndpoint_eq epoch ..).1
  | _ => rfl

/-- A step that makes an entity is known together with the relation behind it. -/
theorem known_pair {part : Part} {id : String} {s : Step} {r : Relation}
    (hs : Occurs name url? a part id s) (hr : Relates name a r) :
    ∀ s' ∈ [s, .relate r], Known name url? a s' :=
  List.forall_mem_cons.2 ⟨.change hs, List.forall_mem_singleton.2 (.relation hr)⟩

/-- The steps for the service are known. -/
theorem known_serviceSteps : ∀ s ∈ serviceSteps name url? a, Known name url? a s :=
  List.forall_mem_cons.2 ⟨.change .service, known_pair name url? a (.repository rfl) .service⟩

/-- The steps for models are known. -/
theorem known_modelSteps : ∀ s ∈ modelSteps (entityId .service name)
    (schemaIds (slugify name) [] a.models), Known name url? a s := by
  refine List.forall_mem_append.2
    ⟨forall_mem_flatMap fun m hm => ?_, forall_mem_flatMap fun m _ s hs => ?_⟩
  · exact known_pair name url? a (.model hm) (.model hm)
  · obtain ⟨source, target, -, -, -, rfl⟩ := mem_parentSteps.1 hs
    exact .relation (.parent source target)

/-- The steps for endpoints are known. -/
theorem known_apiSteps (names : SchemaNames) : ∀ s ∈ apiSteps (entityId .service name)
    (slugify name) names a.endpoints, Known name url? a s := by
  rw [apiSteps]
  split
  · exact List.forall_mem_nil _
  · next hne =>
    have hne : a.endpoints ≠ [] := fun h => hne (List.isEmpty_iff.2 h)
    refine List.forall_mem_append.2 ⟨?_, forall_mem_flatMap fun e he => ?_⟩
    · exact known_pair name url? a (.api hne rfl) (.api hne)
    · refine List.forall_mem_append.2 ⟨?_, ?_⟩
      · exact known_pair name url? a (.endpoint he) (.endpoint he)
      · split
        · exact List.forall_mem_singleton.2 (.relation (.response ..))
        · exact List.forall_mem_nil _

/-- The steps for side effects are known. -/
theorem known_effectSteps :
    ∀ s ∈ effectSteps (entityId .service name) a.sideEffects, Known name url? a s := by
  refine List.forall_mem_append.2 ⟨forall_mem_flatMap fun effect h => ?_, ?_⟩
  · exact known_pair name url? a (.integration h) (.integration h)
  · split
    · exact List.forall_mem_nil _
    · exact List.forall_mem_singleton.2 (.change .count)

variable {a} in
/-- The steps for resources are known. -/
theorem known_resourceSteps {d : Infra.Diagram} (hd : a.infrastructure = some d) :
    ∀ s ∈ resourceSteps (entityId .service name) d, Known name url? a s :=
  forall_mem_flatMap fun _ hr => known_pair name url? a (.resource hd hr) (.resource hd hr)

/-- There are no other steps up to the last entity. -/
theorem known_mainSteps : ∀ s ∈ mainSteps name url? a, Known name url? a s := by
  have hservice := known_serviceSteps name url? a
  have hmodels := known_modelSteps name url? a
  have hapi := known_apiSteps name url? a (firstIds (schemaIds (slugify name) [] a.models))
  have heffects := known_effectSteps name url? a
  rw [mainSteps]
  simp only [List.forall_mem_append]
  refine ⟨hservice, hmodels, hapi, heffects, ?_⟩
  cases hd : a.infrastructure with
  | none => exact List.forall_mem_nil _
  | some d => exact known_resourceSteps name url? hd

/-- The steps that place resources renew each of them and give it its owner. -/
theorem mem_placeSteps {owner? : Option String} {resources : List Infra.Resource} {s : Step} :
    s ∈ placeSteps owner? resources ↔ ∃ r ∈ resources, s = .renew (schemaOfResource epoch owner? r)
      ∨ ∃ owner, owner? = some owner ∧ s = linkStep owner ("infra:" ++ r.address) .owns := by
  rw [placeSteps, List.mem_flatMap]
  refine exists_congr fun r => and_congr_right fun _ => ?_
  rw [List.mem_cons, Option.mem_toList, Option.map_eq_some_iff]
  exact or_congr_right (exists_congr fun _ => and_congr_right fun _ => eq_comm)

/-- The steps for dependencies relate each resource to each address that it depends on. -/
theorem mem_dependencySteps {d : Infra.Diagram} {s : Step} : s ∈ dependencySteps d
    ↔ ∃ r ∈ d.resources, ∃ dependency ∈ r.dependencies, s = .relate
      ⟨"infra:" ++ r.address, "infra:" ++ dependency, .dependsOn, [("source", "terraform")]⟩ := by
  rw [dependencySteps, List.mem_flatMap]
  refine exists_congr fun r => and_congr_right fun _ => ?_
  rw [List.mem_map]
  exact exists_congr fun _ => and_congr_right fun _ => eq_comm

/-- Dependencies change no entity. -/
theorem id?_of_mem_dependencySteps {d : Infra.Diagram} {s : Step} (hs : s ∈ dependencySteps d) :
    s.id? = none := by
  obtain ⟨r, -, dependency, -, rfl⟩ := mem_dependencySteps.1 hs
  rfl

/-- The steps for dependencies make no entity. -/
theorem made_of_mem_dependencySteps {d : Infra.Diagram} {s : Step} (hs : s ∈ dependencySteps d) :
    s.made = [] := by
  obtain ⟨r, -, dependency, -, rfl⟩ := mem_dependencySteps.1 hs
  rfl

variable {a} in
/-- Behind the last entity resources are related to what they depend on. -/
theorem exists_of_mem_lastSteps {s : Step} (hs : s ∈ lastSteps a) :
    ∃ d, a.infrastructure = some d ∧ ∃ r ∈ d.resources, ∃ dependency ∈ r.dependencies,
      s = .relate { source := "infra:" ++ r.address, target := "infra:" ++ dependency
                    type := .dependsOn, metadata := [("source", "terraform")] } := by
  rw [lastSteps] at hs
  cases hd : a.infrastructure with
  | none =>
      rw [hd] at hs
      exact nomatch hs
  | some d =>
      rw [hd] at hs
      exact ⟨d, rfl, mem_dependencySteps.1 hs⟩

end

/-- Under every id lifting renews the entity, or its service extends an integration. -/
theorem settling_steps (name : String) (url? : Option String) (a : Analysis) (id : String) :
    Settling (entityId .service name)
      ((mainSteps name url? a ++ lastSteps a).filter fun s => s.id? = some id) := by
  by_cases hrenew : ∃ d, .renew d ∈
      (mainSteps name url? a ++ lastSteps a).filter fun s => s.id? = some id
  · obtain ⟨d, hd⟩ := hrenew
    exact .renew hd
  · refine .extend fun s hs => ?_
    obtain ⟨hmem, hid⟩ := List.mem_filter.1 hs
    rcases List.mem_append.1 hmem with hmain | hlast
    · cases known_mainSteps name url? a s hmain with
      | relation => exact nomatch of_decide_eq_true hid
      | change hoccurs =>
          cases hoccurs with
          | integration => exact ⟨_, _, _, _, rfl⟩
          | count =>
              -- the service is renewed before it is marked
              refine absurd ⟨serviceOf epoch name url? a, List.mem_filter.2 ⟨?_, hid⟩⟩ hrenew
              rw [mainSteps, serviceSteps]
              exact List.mem_cons_self
          | service | repository | model | api | endpoint | resource => exact absurd ⟨_, hs⟩ hrenew
    · obtain ⟨_, -, _, -, _, -, rfl⟩ := exists_of_mem_lastSteps hlast
      exact nomatch of_decide_eq_true hid

/-- The last steps make no entity. -/
theorem made_lastSteps (a : Analysis) : ∀ s ∈ lastSteps a, s.made = [] := by
  intro s hs
  obtain ⟨_, -, _, -, _, -, rfl⟩ := exists_of_mem_lastSteps hs
  rfl

/-- Lifting an analysis again, at whatever time, changes the times of the last changes of entities
and nothing else, and counts the same. -/
theorem lift_twice {g : Graph} (hg : Reachable g) (now now' t : Instant) (name : String)
    (url? : Option String) (a : Analysis) :
    let once := g.lift now name url? a
    let twice := once.1.lift now' name url? a
    twice.1.entities.map (Entity.changedAt t) = once.1.entities.map (Entity.changedAt t)
      ∧ twice.1.relations = once.1.relations ∧ twice.2 = once.2 := by
  intro once twice
  obtain ⟨hentities, hrelations⟩ := runAll_twice now now' t hg.coherent
    (grounded_mainSteps name url? a) (made_lastSteps a) (settling_steps name url? a)
  rw [← lift_eq, ← lift_eq] at hentities hrelations
  exact ⟨hentities, hrelations, summary_eq ..⟩

/-- Models with one name, targets with one slug and resources with one address. -/
theorem lift_twice_shared :
    let m : Model := { name := "Order", kind := .class_, file := "a.py", line := 1 }
    let effect : SideEffect :=
      { category := .http, operation := "get", target := some "Pay API", file := "a.py", line := 2 }
    let r : Infra.Resource := {
      address := "aws_s3_bucket.b", resourceType := "aws_s3_bucket", name := "b", kind := "resource"
      file := "main.tf", line := 1, dependencies := ["aws_s3_bucket.b", "aws_s3_bucket.c"] }
    let a : Analysis := {
      language := "python", models := [m, { m with line := 7 }]
      sideEffects := [effect, { effect with target := some "pay-api" }]
      infrastructure := some { resources := [r, { r with line := 5 }] } }
    let g := empty.addEntity ⟨0, 0⟩ (Entity.new ⟨0, 0⟩ "infra:aws_s3_bucket.c" "c" (.domain {}))
    let once := g.lift ⟨1, 0⟩ "Shop" none a
    let twice := once.1.lift ⟨2, 0⟩ "Shop" none a
    Reachable g
      ∧ twice.1.entities.map (Entity.changedAt epoch) = once.1.entities.map (Entity.changedAt epoch)
      ∧ twice.1.relations = once.1.relations ∧ twice.2 = once.2 := by
  intro m effect r a g
  have hg : Reachable g := .addEntity _ _ .empty
  exact ⟨hg, lift_twice hg ⟨1, 0⟩ ⟨2, 0⟩ epoch "Shop" none a⟩

end CodeAtlas.Graph
