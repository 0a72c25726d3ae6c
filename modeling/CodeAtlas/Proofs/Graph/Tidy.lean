import CodeAtlas.Proofs.Graph.Lifting
import CodeAtlas.Proofs.Graph.Reading
import CodeAtlas.Proofs.Graph.Merge

/-!
# Tidy graphs

A graph is tidy if its entities and its relations are as they are read. Whatever is done to tidy
graphs with tidy entities and relations gives tidy graphs, and so does lifting any analysis. So
every graph that was built from such parts is coherent and tidy.
-/

namespace CodeAtlas.Graph

open Json

/-- A relation whose notes are as they are read. -/
structure Relation.Tidy (r : Relation) : Prop where
  ascending : Ascending r.metadata
  sorted : ∀ m ∈ r.metadata, Sorted m.2

/-- A graph whose parts are as they are read. -/
structure Tidy (g : Graph) : Prop where
  entities : ∀ e ∈ g.entities, e.Tidy
  relations : ∀ r ∈ g.relations, r.Tidy

/-! ## Parts -/

namespace Entity

variable {e : Entity}

/-- A tidy entity with valid times is tidy. -/
theorem Tidy.stamped (h : e.Tidy) {created updated : Instant} (hc : created.Valid)
    (hu : updated.Valid) : (e.stamped created updated).Tidy where
  ascending := h.ascending
  sorted := h.sorted
  createdAt := hc
  updatedAt := hu
  detail := h.detail

/-- A tidy entity with a sorted note is tidy. -/
theorem Tidy.note (h : e.Tidy) (key : String) {value : Json} (hvalue : Sorted value) :
    (e.note key value).Tidy where
  ascending := h.ascending.insertMember key value
  sorted := by
    refine List.forall_mem_append.2 ⟨List.forall_mem_map.2 fun m hm => ?_, ?_⟩
    · rcases mem_insertMember hm with rfl | hm
      · exact hvalue
      · exact h.sorted m.2 (List.mem_append_left _ (List.mem_map_of_mem hm))
    · exact fun j hj => h.sorted j (List.mem_append_right _ hj)
  createdAt := h.createdAt
  updatedAt := h.updatedAt
  detail := h.detail

end Entity

/-- A list of strings is sorted. -/
theorem sorted_strings (l : List String) : Sorted (.strings l) :=
  .arr (List.forall_mem_map.2 fun s _ => .str s)

/-- An object made of sorted members is sorted. -/
theorem sorted_ofMembers {members : List (String × Json)} (h : ∀ m ∈ members, Sorted m.2) :
    Sorted (.ofMembers members) :=
  .obj (ascending_sortMembers members) fun m hm => h m (mem_of_mem_sortMembers hm)

/-- An optional string is sorted. -/
theorem sorted_ofString? (s? : Option String) : Sorted (.ofString? s?) := by
  cases s? with
  | none => exact .null
  | some s => exact .str s

/-- A relation without metadata is tidy. -/
theorem tidy_link (source target : String) (type : RelationType) :
    Relation.Tidy { source, target, type } := ⟨ascending_nil, List.forall_mem_nil _⟩

/-- A dependency of the infrastructure is tidy. -/
theorem tidy_dependency (source target : String) : Relation.Tidy
    { source, target, type := .dependsOn, metadata := [("source", "terraform")] } :=
  ⟨List.pairwise_singleton _ _, List.forall_mem_singleton.2 (.str _)⟩

/-! ## Operations -/

variable {g other : Graph}

/-- Of two entities one is picked, the newer. -/
theorem picks_newer : Keyed.Picks newer := by
  intro a b
  rw [newer, Keyed.pick]
  split
  · exact .inr rfl
  · exact .inl rfl

/-- Of two relations one is picked, the earlier. -/
theorem picks_earlier : Keyed.Picks earlier := fun _ _ => .inl rfl

/-- The empty graph is tidy. -/
theorem tidy_empty : Tidy empty := ⟨List.forall_mem_nil _, List.forall_mem_nil _⟩

namespace Tidy

/-- Putting a tidy entity in keeps a graph tidy. -/
theorem put (h : g.Tidy) (hg : g.Coherent) {e : Entity} (he : e.Tidy) : (g.put e).Tidy where
  entities := by
    intro a ha
    rw [hg.entities_put] at ha
    rcases Keyed.mem_upsert Keyed.picks_last ha with rfl | ha
    · exact he
    · exact h.entities a ha
  relations := by
    rw [hg.relations_put]
    exact h.relations

/-- Adding a tidy relation keeps a graph tidy. -/
theorem relate (h : g.Tidy) (hg : g.Coherent) {r : Relation} (hr : r.Tidy) : (g.relate r).Tidy where
  entities := by
    rw [Coherent.entities_relate]
    exact h.entities
  relations := by
    intro q hq
    rw [hg.relations_relate] at hq
    split at hq
    · rcases Keyed.mem_upsert Keyed.picks_last hq with rfl | hq
      · exact hr
      · exact h.relations q hq
    · exact h.relations q hq

/-- Adding a tidy entity at a valid time keeps a graph tidy. -/
theorem addEntity (h : g.Tidy) (hg : g.Coherent) {now : Instant} (hnow : now.Valid) {e : Entity}
    (he : e.Tidy) : (g.addEntity now e).Tidy := by
  cases hold : g.get? e.id with
  | none =>
      rw [addEntity_of_none hold]
      exact h.put hg he
  | some old =>
      rw [addEntity_of_some hold]
      have htidy := h.entities old (hg.get?_eq_some_iff_mem.1 hold).1
      exact h.put hg (he.stamped htidy.createdAt hnow)

/-- Merging tidy graphs gives a tidy one. -/
theorem merge (h : g.Tidy) (hg : g.Coherent) (h' : other.Tidy) (ho : other.Coherent) :
    (g.merge other).Tidy where
  entities := by
    intro e he
    rw [(hg.lists_merge ho).1] at he
    exact (Keyed.mem_union picks_newer he).elim (h.entities e) (h'.entities e)
  relations := by
    intro r hr
    rw [(hg.lists_merge ho).2] at hr
    exact (Keyed.mem_union picks_earlier hr).elim (h.relations r) (h'.relations r)

end Tidy

/-- A graph of tidy entities and relations is tidy. -/
theorem tidy_ofLists {es : List Entity} {rs : List Relation} (hes : ∀ e ∈ es, e.Tidy)
    (hrs : ∀ r ∈ rs, r.Tidy) : (ofLists es rs).Tidy where
  entities := fun e he => hes e (mem_of_mem_entities_ofLists he)
  relations := fun r hr => hrs r (mem_of_mem_relations_ofLists hr)

/-- A part of a tidy graph is tidy. -/
theorem Tidy.subgraph (h : g.Tidy) (hg : g.Coherent) (ids : List String) :
    (g.subgraph ids).Tidy := by
  have hfound : ∀ e ∈ ids.filterMap g.get?, e.Tidy := by
    intro e he
    obtain ⟨id, -, hid⟩ := List.mem_filterMap.1 he
    exact h.entities e (hg.get?_eq_some_iff_mem.1 hid).1
  exact tidy_ofLists hfound h.relations

/-! ## Lifting -/

/-- A step whose parts are as they are read. -/
def Step.Tidy : Step → Prop
  | .renew e => e.Tidy
  | .extend .. => True
  | .mark _ _ value => Sorted value
  | .relate r => r.Tidy

/-- A service may join a tidy integration. -/
theorem Entity.tidy_joined {base : EntityBase} {d : Integration}
    (h : Entity.Tidy ⟨base, .integration d⟩) (service target : String) (operations : List String) :
    (Entity.joined service target operations base d).Tidy := by
  refine Entity.Tidy.note ?_ "operations" (sorted_strings operations)
  exact ⟨h.ascending, h.sorted, h.createdAt, h.updatedAt, trivial⟩

/-- The integration that a service uses is tidy. -/
theorem tidy_integrationFor (h : g.Tidy) (hg : g.Coherent) {now : Instant} (hnow : now.Valid)
    (service id category target : String) (operations : List String) :
    (g.integrationFor now service id category target operations).Tidy := by
  have hfresh : (Entity.joined service target operations
      { id, name := target, createdAt := now, updatedAt := now }
        { integrationType := category }).Tidy :=
    Entity.tidy_joined (Entity.tidy_new hnow id target rfl trivial) service target operations
  rw [integrationFor]
  cases hold : g.get? id with
  | none => exact hfresh
  | some old =>
      have htidy := h.entities old (hg.get?_eq_some_iff_mem.1 hold).1
      obtain ⟨base, detail⟩ := old
      cases detail with
      | integration d => exact Entity.tidy_joined htidy service target operations
      | _ => exact hfresh

namespace Tidy

variable {now : Instant}

/-- A tidy step keeps a graph tidy. -/
theorem run (h : g.Tidy) (hg : g.Coherent) (hnow : now.Valid) {s : Step} (hs : s.Tidy) :
    (s.run now g).Tidy := by
  cases s with
  | renew e => exact h.addEntity hg hnow (hs.stamped hnow hnow)
  | extend id service category target operations =>
      exact h.addEntity hg hnow
        (tidy_integrationFor h hg hnow service id category target operations)
  | mark id key value =>
      rw [Step.run]
      cases hold : g.get? id with
      | none => exact h
      | some old =>
          have htidy := h.entities old (hg.get?_eq_some_iff_mem.1 hold).1
          dsimp only
          split
          · exact h.addEntity hg hnow (htidy.note key hs)
          · exact h
  | relate r => exact h.relate hg hs

/-- A tidy script keeps a graph tidy. -/
theorem runAll (h : g.Tidy) (hg : g.Coherent) (hnow : now.Valid) {steps : List Step}
    (hsteps : ∀ s ∈ steps, s.Tidy) : (Step.runAll now g steps).Tidy := by
  induction steps generalizing g with
  | nil => exact h
  | cons s rest ih =>
      obtain ⟨hs, hrest⟩ := List.forall_mem_cons.1 hsteps
      exact ih (h.run hg hnow hs) (Step.coherent_run hg now s) hrest

end Tidy

theorem valid_epoch : epoch.Valid := ⟨by decide, by decide, by decide⟩

/-- An entity with a description and references is tidy if its details are. -/
theorem Entity.tidy_described {now : Instant} (hnow : now.Valid) (id name : String)
    (description : Option String) (sourceRefs : List String) {d : Detail}
    (hsorted : ∀ j ∈ d.freeForm, Sorted j) (hd : d.Tidy) :
    Entity.Tidy ⟨{ id, name, description, sourceRefs, createdAt := now, updatedAt := now }, d⟩ :=
  ⟨ascending_nil, hsorted, hnow, hnow, hd⟩

/-- The schema of a resource is tidy. -/
theorem tidy_schemaOfResource {now : Instant} (hnow : now.Valid) (owner? : Option String)
    (r : Infra.Resource) : (schemaOfResource now owner? r).Tidy := by
  have hattributes : Sorted (.ofMembers (r.attributes.map fun m => (m.1, .str m.2))) :=
    sorted_ofMembers (List.forall_mem_map.2 fun m _ => .str m.2)
  refine Entity.tidy_described hnow _ _ _ _
    (List.forall_mem_singleton.2 (sorted_ofMembers ?_)) nofun
  simp [Sorted.str, Sorted.num, Json.nat, hattributes]

namespace Occurs

variable {name : String} {url? : Option String} {a : Analysis}

/-- The entity of an endpoint is tidy. -/
theorem tidy_endpoint (apiId id : String) (names : SchemaNames) (e : CodeAtlas.Endpoint) :
    (entityOfEndpoint epoch apiId id names e).Tidy := by
  have hplain : ∀ d : Endpoint, d.examples = [] → Entity.Tidy
      ⟨{ id, name := e.method ++ " " ++ e.path, description := e.description
         sourceRefs := [sourceRef e.sourceLink e.file e.line], createdAt := epoch
         updatedAt := epoch }, .endpoint d⟩ := by
    intro d hd
    refine Entity.tidy_described valid_epoch _ _ _ _ (fun j hj => ?_) trivial
    rw [Detail.freeForm, hd] at hj
    exact absurd hj List.not_mem_nil
  rw [entityOfEndpoint]
  dsimp only
  have hhandler := hplain
    { path := e.path, method := e.method, apiId := some apiId
      responseSchema := e.responseType >>= fun t =>
        names.lookup (String.ofList (Text.trimEndWord ['[', ']'] t.toList)) } rfl
  cases e.handler
  all_goals
    cases e.parameters.isEmpty
    all_goals
      cases e.decorators.isEmpty
      all_goals
        simp only [if_true, if_false, Bool.false_eq_true]
        repeat refine Entity.Tidy.note ?_ _ (by first | exact sorted_strings _ | exact .str _)
        exact hhandler

/-- A step of lifting that changes an entity is tidy. -/
theorem tidy {part : Part} {id : String} {s : Step} (h : Occurs name url? a part id s) :
    s.Tidy := by
  cases h with
  | service =>
      have hnew := fun d : Service => Entity.tidy_new (d := .service d) valid_epoch
        (entityId .service name) name rfl trivial
      exact (hnew _).note "config_keys" (sorted_strings _)
  | repository => exact Entity.tidy_new valid_epoch _ _ rfl trivial
  | model =>
      refine Entity.tidy_described valid_epoch _ _ _ _
        (List.forall_mem_singleton.2 (sorted_ofMembers ?_)) nofun
      simp [sorted_strings, sorted_ofString?, Sorted.str, Sorted.num, Json.nat]
  | api => exact Entity.tidy_new valid_epoch _ _ rfl trivial
  | endpoint => exact tidy_endpoint ..
  | resource => exact tidy_schemaOfResource valid_epoch _ _
  | integration => trivial
  | count =>
      refine Sorted.obj ?_ (List.forall_mem_map.2 fun m _ => .num _)
      have hkeys : Ascending (untargeted a.sideEffects) := ascending_sortMembers _
      rw [Ascending, List.map_map]
      exact hkeys

end Occurs

/-- Every step of lifting is tidy. -/
theorem tidy_steps (name : String) (url? : Option String) (a : Analysis) :
    ∀ s ∈ mainSteps name url? a ++ lastSteps a, s.Tidy := by
  intro s hs
  rcases List.mem_append.1 hs with hs | hs
  · cases known_mainSteps name url? a s hs with
    | change h => exact h.tidy
    | relation h => cases h <;> exact tidy_link ..
  · obtain ⟨_, -, _, -, _, -, rfl⟩ := exists_of_mem_lastSteps hs
    exact tidy_dependency ..

namespace Tidy

variable {now : Instant}

/-- Lifting an analysis keeps a graph tidy. -/
theorem lift (h : g.Tidy) (hg : g.Coherent) (hnow : now.Valid) (name : String)
    (url? : Option String) (a : Analysis) : (g.lift now name url? a).1.Tidy := by
  rw [lift_eq]
  exact h.runAll hg hnow (tidy_steps name url? a)

/-- Lifting a diagram keeps a graph coherent and tidy, whoever owns the resources. -/
theorem liftInfrastructure (h : g.Tidy) (hg : g.Coherent) (hnow : now.Valid)
    (owner? : Option String) (d : Infra.Diagram) :
    (g.liftInfrastructure now owner? d).1.Coherent
      ∧ (g.liftInfrastructure now owner? d).1.Tidy := by
  refine List.foldlRecOn (motive := fun g : Graph => g.Coherent ∧ g.Tidy) d.resources _ ?_
    fun g hg r _ => ?_
  · refine List.foldlRecOn (motive := fun g : Graph => g.Coherent ∧ g.Tidy) d.resources _ ⟨hg, h⟩
      fun g hg r _ => ?_
    have hcoherent := hg.1.addEntity now (schemaOfResource now owner? r)
    have htidy := hg.2.addEntity hg.1 hnow (tidy_schemaOfResource hnow owner? r)
    cases owner? with
    | none => exact ⟨hcoherent, htidy⟩
    | some owner => exact ⟨hcoherent.relate _, htidy.relate hcoherent (tidy_link ..)⟩
  · refine List.foldlRecOn (motive := fun g : Graph => g.Coherent ∧ g.Tidy) r.dependencies _ hg
      fun g hg dependency _ => ?_
    rw [relate_of_lookup]
    exact ⟨hg.1.relate _, hg.2.relate hg.1 (tidy_dependency ..)⟩

end Tidy

/-! ## Built graphs -/

/-- What the operations on graphs and the lifting of analyses make of the empty graph, when every
entity and relation that they are given is as it is read. -/
inductive Built : Graph → Prop
  | empty : Built empty
  | addEntity {g : Graph} (h : Built g) {now : Instant} (hnow : now.Valid) {e : Entity}
      (he : e.Tidy) : Built (g.addEntity now e)
  | addRelation {g : Graph} (h : Built g) {r : Relation} (hr : r.Tidy) : Built (g.addRelation r).2
  | merge {g other : Graph} (h : Built g) (h' : Built other) : Built (g.merge other)
  | subgraph {g : Graph} (h : Built g) (ids : List String) : Built (g.subgraph ids)
  | ofLists {es : List Entity} {rs : List Relation} (hes : ∀ e ∈ es, e.Tidy)
      (hrs : ∀ r ∈ rs, r.Tidy) : Built (ofLists es rs)
  | lift {g : Graph} (h : Built g) {now : Instant} (hnow : now.Valid) (name : String)
      (url? : Option String) (a : Analysis) : Built (g.lift now name url? a).1
  | liftInfrastructure {g : Graph} (h : Built g) {now : Instant} (hnow : now.Valid)
      (owner? : Option String) (d : Infra.Diagram) : Built (g.liftInfrastructure now owner? d).1

/-- Every graph that was built is coherent and tidy. -/
theorem Built.kept (h : Built g) : g.Coherent ∧ g.Tidy := by
  induction h with
  | empty => exact ⟨coherent_empty, tidy_empty⟩
  | addEntity h hnow he ih => exact ⟨ih.1.addEntity _ _, ih.2.addEntity ih.1 hnow he⟩
  | addRelation h hr ih => exact ⟨ih.1.relate _, ih.2.relate ih.1 hr⟩
  | merge h h' ih ih' => exact ⟨ih.1.merge _, ih.2.merge ih.1 ih'.2 ih'.1⟩
  | subgraph h ids ih => exact ⟨coherent_subgraph _ ids, ih.2.subgraph ih.1 ids⟩
  | ofLists hes hrs => exact ⟨coherent_ofLists _ _, tidy_ofLists hes hrs⟩
  | lift h hnow name url? a ih =>
      refine ⟨?_, ih.2.lift ih.1 hnow name url? a⟩
      rw [lift_eq]
      exact Step.coherent_runAll ih.1 _ _
  | liftInfrastructure h hnow owner? d ih => exact ih.2.liftInfrastructure ih.1 hnow owner? d

/-! ## Documents

A graph that was built is read back from its document, and what is read from any document is a graph
that was built.
-/

namespace Relation

/-- A type of relation is read back. -/
theorem reads_relationType (t : RelationType) :
    Reads (fun j => j.label? >>= RelationType.ofLabel?) (.str t.label) t := by
  cases t <;> exact ⟨rfl, rfl⟩

/-- A tidy relation is read back from its document. -/
theorem reads_toJson {r : Relation} (h : r.Tidy) : Reads Relation.ofJson? r.toJson r := by
  have hkeys : fieldNames.Nodup := by decide
  refine reads_record hkeys fun members hshows => ?_
  have htype : field? (fun j => j.label? >>= RelationType.ofLabel?) members "relation_type"
      = some r.type :=
    (hshows ("relation_type", .str r.type.label) (by simp)).field? (reads_relationType r.type)
  have hmetadata : defaultField? metadataOfJson? [] members "metadata" = some r.metadata :=
    (hshows ("metadata", .obj r.metadata) (by simp)).defaultField?
      (reads_metadata h.ascending (List.forall_mem_map.2 h.sorted)) []
  rw [strField?_of_shows hshows "source_id" r.source (by simp),
    strField?_of_shows hshows "target_id" r.target (by simp), htype, hmetadata]
  rfl

/-- A relation that was read is tidy. -/
theorem tidy_of_ofJson? {j : Json} {r : Relation} (h : Relation.ofJson? j = some r) : r.Tidy := by
  simp only [Relation.ofJson?, Option.bind_eq_bind, Option.bind_eq_some_iff, Option.pure_def,
    Option.some.injEq] at h
  obtain ⟨_, -, _, -, _, -, _, -, m, hm, rfl⟩ := h
  rcases exists_of_defaultField? hm with ⟨j, hj⟩ | rfl
  · obtain ⟨hascending, hsorted⟩ := sorted_of_metadataOfJson? hj
    exact ⟨hascending, List.forall_mem_map.1 hsorted⟩
  · exact ⟨ascending_nil, List.forall_mem_nil _⟩

end Relation

/-- A tidy entity is read back. -/
theorem Entity.reads_toJson {e : Entity} (h : e.Tidy) : Reads Entity.ofJson? e.toJson e where
  plain := ofJson?_toJson h
  sorted := ofJson?_of_shows h (shows_sorted e.nodup_names)
    (ascending_sortMembers _).nodup_keys

/-- A coherent graph is read back from its document if it is tidy. -/
theorem Coherent.reads_toJson (hg : g.Coherent) (h : g.Tidy) : Reads Graph.ofJson? g.toJson g := by
  have hkeys : ["entities", "relations"].Nodup := by decide
  refine reads_record hkeys fun members hshows => ?_
  have hentities : defaultField? (list? Entity.ofJson?) [] members "entities" = some g.entities :=
    (hshows ("entities", .arr (g.entities.map Entity.toJson)) (by simp)).defaultField?
      (reads_list fun e he => Entity.reads_toJson (h.entities e he)) []
  have hrelations : defaultField? (list? Relation.ofJson?) [] members "relations"
      = some g.relations :=
    (hshows ("relations", .arr (g.relations.map Relation.toJson)) (by simp)).defaultField?
      (reads_list fun r hr => Relation.reads_toJson (h.relations r hr)) []
  rw [hentities, hrelations]
  exact congrArg some hg.ofLists_lists

/-- A graph that was built is read back from its document. -/
theorem Built.ofJson?_toJson (h : Built g) : Graph.ofJson? g.toJson = some g :=
  (h.kept.1.reads_toJson h.kept.2).plain

/-- A graph that was read was built. -/
theorem built_of_ofJson? {j : Json} (h : Graph.ofJson? j = some g) : Built g := by
  simp only [Graph.ofJson?, Option.bind_eq_bind, Option.bind_eq_some_iff, Option.pure_def,
    Option.some.injEq] at h
  obtain ⟨_, -, es, hes, rs, hrs, rfl⟩ := h
  refine .ofLists (fun e he => ?_) fun r hr => ?_
  · rcases exists_of_defaultField? hes with ⟨j, hj⟩ | rfl
    · obtain ⟨_, hread⟩ := exists_of_list? hj e he
      exact Entity.tidy_of_ofJson? hread
    · exact absurd he List.not_mem_nil
  · rcases exists_of_defaultField? hrs with ⟨j, hj⟩ | rfl
    · obtain ⟨_, hread⟩ := exists_of_list? hj r hr
      exact Relation.tidy_of_ofJson? hread
    · exact absurd hr List.not_mem_nil

/-! ## Numbers -/

/-- A graph in whose parts of any form no number is one with a fraction. -/
structure Integral (g : Graph) : Prop where
  entities : ∀ e ∈ g.entities, ∀ j ∈ e.freeForm, Plain j
  relations : ∀ r ∈ g.relations, ∀ m ∈ r.metadata, Plain m.2

/-- A graph of lists without fractions in their notes is free of them. -/
theorem integral_ofLists {es : List Entity} {rs : List Relation}
    (hes : ∀ e ∈ es, ∀ j ∈ e.freeForm, Plain j) (hrs : ∀ r ∈ rs, ∀ m ∈ r.metadata, Plain m.2) :
    (ofLists es rs).Integral where
  entities := fun e he => hes e (mem_of_mem_entities_ofLists he)
  relations := fun r hr => hrs r (mem_of_mem_relations_ofLists hr)

/-- A graph without fractions in its notes is a plain document. -/
theorem Integral.plain_toJson (h : g.Integral) : Plain g.toJson := by
  have hentities : ∀ e ∈ g.entities, Plain e.toJson := fun e he =>
    .obj (Entity.plain_members (h.entities e he))
  have hrelations : ∀ r ∈ g.relations, Plain r.toJson := by
    intro r hr
    have hmetadata : Plain (.obj r.metadata) := .obj (h.relations r hr)
    refine .obj ?_
    simp [hmetadata, Plain.str]
  refine .obj (List.forall_mem_cons.2 ⟨?_, List.forall_mem_singleton.2 ?_⟩)
  · exact .arr (List.forall_mem_map.2 hentities)
  · exact .arr (List.forall_mem_map.2 hrelations)

end CodeAtlas.Graph
