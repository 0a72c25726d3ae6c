import CodeAtlas.Graph.Codec
import CodeAtlas.Proofs.Json.Fields
import CodeAtlas.Proofs.Time.Instant

/-!
# Reading entities

An entity is read back from any object that shows its members. It is tidy if its parts of any form
are as they are read: objects sorted, no definition null, and every instant one that can be written.
What the constructors make is tidy, and so is what is read.
-/

namespace CodeAtlas.Graph

open Json

/-! ## Tidy entities -/

/-- The documents of any form in the details of an entity. -/
def Detail.freeForm : Detail → List Json
  | endpoint d => d.examples
  | schema d => d.definition.toList
  | _ => []

/-- The documents of any form in an entity. -/
def Entity.freeForm (e : Entity) : List Json :=
  e.base.metadata.map Prod.snd ++ e.detail.freeForm

/-- The members of an entity. -/
def Entity.members (e : Entity) : List (String × Json) :=
  ("entity_type", .str e.type.label) :: (e.base.members ++ e.detail.members)

/-- Whether the details of an entity are as they are read: no definition is null, and an instant can
be written. -/
def Detail.Tidy : Detail → Prop
  | schema d => d.definition ≠ some .null
  | document d => ∀ t, d.lastModified = some t → t.Valid
  | _ => True

/-- An entity whose parts are as they are read. -/
structure Entity.Tidy (e : Entity) : Prop where
  ascending : Ascending e.base.metadata
  sorted : ∀ j ∈ e.freeForm, Sorted j
  createdAt : e.base.createdAt.Valid
  updatedAt : e.base.updatedAt.Valid
  detail : e.detail.Tidy

/-! ## Values -/

/-- A valid instant is read back. -/
theorem reads_instant {t : Instant} (h : t.Valid) : Reads instantOfJson? (instantToJson t) t := by
  have hread : instantOfJson? (.str t.text) = some t := by
    rw [instantOfJson?, str?, Option.bind_eq_bind, Option.bind_some, Instant.ofText?_text h]
  refine ⟨hread, ?_⟩
  have hsorted : (Json.str t.text).sorted = .str t.text := by simp [Json.sorted]
  rw [instantToJson, hsorted]
  exact hread

/-- Metadata with ascending keys and sorted values are read back. -/
theorem reads_metadata {m : Metadata} (hkeys : Ascending m) (h : ∀ j ∈ m.map Prod.snd, Sorted j) :
    Reads metadataOfJson? (.obj m) m := by
  have hsorted : (Json.obj m).sorted = .obj m :=
    (Sorted.obj hkeys fun x hx => h x.2 (List.mem_map_of_mem hx)).sorted_eq
  have hplain : metadataOfJson? (.obj m) = some m := congrArg some (Json.obj.inj hsorted)
  refine ⟨hplain, ?_⟩
  rw [hsorted, hplain]

/-- A status is read back. -/
theorem reads_status (s : ServiceStatus) : Reads ServiceStatus.ofJson? (.str s.label) s := by
  cases s <;> exact ⟨rfl, rfl⟩

/-- A type of interface is read back. -/
theorem reads_apiType (t : ApiType) : Reads ApiType.ofJson? (.str t.label) t := by
  cases t <;> exact ⟨rfl, rfl⟩

/-- The source of a document is read back. -/
theorem reads_source (s : DocumentSource) : Reads DocumentSource.ofJson? (.str s.label) s := by
  cases s <;> exact ⟨rfl, rfl⟩

/-- A level of trust is read back. -/
theorem reads_trust (l : TrustLevel) : Reads TrustLevel.ofJson? (.str l.label) l := by
  cases l <;> exact ⟨rfl, rfl⟩

/-- A type of entity is read back. -/
theorem reads_type (t : EntityType) :
    Reads (fun j => j.str? >>= EntityType.ofLabel?) (.str t.label) t := by
  cases t <;> exact ⟨rfl, rfl⟩

section
variable {r members : List (String × Json)}

/-- An optional text is read from a record that shows it. -/
theorem textField?_of_shows (h : Shows r members) (name : String) (s? : Option String)
    (hm : (name, ofString? s?) ∈ members) : textField? r name = some s? :=
  optionalStr?_of_shows h name s? hm

/-- A list of texts is read from a record that shows it. -/
theorem listField?_of_shows (h : Shows r members) (name : String) (l : List String)
    (hm : (name, .strings l) ∈ members) : listField? r name = some l :=
  (h _ hm).defaultField? (reads_strings l) []

/-- A truth value is read from a record that shows it, whatever the default. -/
theorem boolField?_of_shows (h : Shows r members) (name : String) (b value : Bool)
    (hm : (name, .bool b) ∈ members) : defaultField? bool? value r name = some b :=
  (h _ hm).defaultField? (reads_bool b) value

end

/-- The traits of a service are read back. -/
theorem reads_traits (t : ServiceTraits) : Reads ServiceTraits.ofJson? t.toJson t := by
  have hkeys : ["service_type", "is_api_gateway"].Nodup := by decide
  refine reads_record hkeys fun r h => ?_
  have htype : optionalField? str? r "service_type" = some t.serviceType :=
    textField?_of_shows h _ _ (by simp)
  have hgateway := boolField?_of_shows h "is_api_gateway" t.isApiGateway false (by simp)
  rw [htype, hgateway]
  rfl

/-- A field of a schema is read back. -/
theorem reads_schemaField (f : SchemaField) : Reads SchemaField.ofJson? f.toJson f := by
  have hkeys : ["name", "type", "description", "required"].Nodup := by decide
  refine reads_record hkeys fun r h => ?_
  have hdescription : optionalField? str? r "description" = some f.description :=
    textField?_of_shows h _ _ (by simp)
  rw [strField?_of_shows h "name" f.name (by simp),
    strField?_of_shows h "type" f.type (by simp), hdescription,
    boolField?_of_shows h "required" f.required true (by simp)]
  rfl

/-! ## Entities -/

variable {r : List (String × Json)}

/-- The base of an entity is read from all members that show its own. -/
theorem EntityBase.ofMembers?_of_shows {b : EntityBase} (h : Shows r b.members)
    (hkeys : Ascending b.metadata) (hsorted : ∀ j ∈ b.metadata.map Prod.snd, Sorted j)
    (hcreated : b.createdAt.Valid) (hupdated : b.updatedAt.Valid) :
    EntityBase.ofMembers? r = some b := by
  have hdescription : optionalField? str? r "description" = some b.description :=
    textField?_of_shows h _ _ (by simp [members])
  have hrefs : defaultField? strings? [] r "source_refs" = some b.sourceRefs :=
    listField?_of_shows h _ _ (by simp [members])
  have hmetadata : defaultField? metadataOfJson? [] r "metadata" = some b.metadata :=
    (h ("metadata", .obj b.metadata) (by simp [members])).defaultField?
      (reads_metadata hkeys hsorted) []
  have hcreatedAt : field? instantOfJson? r "created_at" = some b.createdAt :=
    (h ("created_at", instantToJson b.createdAt) (by simp [members])).field?
      (reads_instant hcreated)
  have hupdatedAt : field? instantOfJson? r "updated_at" = some b.updatedAt :=
    (h ("updated_at", instantToJson b.updatedAt) (by simp [members])).field?
      (reads_instant hupdated)
  rw [ofMembers?, strField?_of_shows h "id" b.id (by simp [members]),
    strField?_of_shows h "name" b.name (by simp [members]), hdescription, hmetadata,
    hrefs, hcreatedAt, hupdatedAt]
  rfl

/-- A service is read from a record that shows its members. -/
theorem serviceOf?_of_shows {d : Service} (h : Shows r (Detail.service d).members) :
    Detail.serviceOf? r = some d := by
  have hstatus : defaultField? ServiceStatus.ofJson? .active r "status" = some d.status :=
    (h ("status", .str d.status.label) (by simp [Detail.members])).defaultField?
      (reads_status d.status) .active
  have htraits : defaultField? ServiceTraits.ofJson? {} r "traits" = some d.traits :=
    (h ("traits", d.traits.toJson) (by simp [Detail.members])).defaultField?
      (reads_traits d.traits) {}
  rw [Detail.serviceOf?, textField?_of_shows h "repository" d.repository (by simp [Detail.members]),
    textField?_of_shows h "language" d.language (by simp [Detail.members]),
    textField?_of_shows h "framework" d.framework (by simp [Detail.members]), hstatus,
    textField?_of_shows h "team" d.team (by simp [Detail.members]),
    listField?_of_shows h "dependencies" d.dependencies (by simp [Detail.members]),
    listField?_of_shows h "apis" d.apis (by simp [Detail.members]),
    listField?_of_shows h "databases" d.databases (by simp [Detail.members]),
    listField?_of_shows h "config_files" d.configFiles (by simp [Detail.members]),
    textField?_of_shows h "documentation_status" d.documentationStatus (by simp [Detail.members]),
      htraits]
  rfl

/-- An interface is read from a record that shows its members. -/
theorem apiOf?_of_shows {d : Api} (h : Shows r (Detail.api d).members) :
    Detail.apiOf? r = some d := by
  have htype : defaultField? ApiType.ofJson? .rest r "api_type" = some d.apiType :=
    (h ("api_type", .str d.apiType.label) (by simp [Detail.members])).defaultField?
      (reads_apiType d.apiType) .rest
  rw [Detail.apiOf?, textField?_of_shows h "service_id" d.serviceId (by simp [Detail.members]),
    htype, textField?_of_shows h "version" d.version (by simp [Detail.members]),
    textField?_of_shows h "base_url" d.baseUrl (by simp [Detail.members]),
    textField?_of_shows h "auth_type" d.authType (by simp [Detail.members]),
    textField?_of_shows h "spec_file" d.specFile (by simp [Detail.members]),
    listField?_of_shows h "endpoints" d.endpoints (by simp [Detail.members])]
  rfl

/-- An endpoint is read from a record that shows its members. -/
theorem endpointOf?_of_shows {d : Endpoint} (h : Shows r (Detail.endpoint d).members)
    (hsorted : ∀ j ∈ d.examples, Sorted j) : Detail.endpointOf? r = some d := by
  have hexamples : defaultField? (list? fun j => some j.sorted) [] r "examples"
      = some d.examples := by
    have hreads : Reads (list? fun j => some j.sorted) (.arr (d.examples.map id)) d.examples :=
      reads_list fun j hj => reads_sorted (hsorted j hj)
    rw [List.map_id] at hreads
    exact (h ("examples", .arr d.examples) (by simp [Detail.members])).defaultField? hreads []
  rw [Detail.endpointOf?, textField?_of_shows h "api_id" d.apiId (by simp [Detail.members]),
    strField?_of_shows h "path" d.path (by simp [Detail.members]),
    strField?_of_shows h "method" d.method (by simp [Detail.members]),
    textField?_of_shows h "request_schema" d.requestSchema (by simp [Detail.members]),
    textField?_of_shows h "response_schema" d.responseSchema (by simp [Detail.members]),
    boolField?_of_shows h "auth_required" d.authRequired false (by simp [Detail.members]),
    boolField?_of_shows h "deprecated" d.deprecated false (by simp [Detail.members]),
    hexamples]
  rfl

/-- A schema is read from a record that shows its members. -/
theorem schemaOf?_of_shows {d : Schema} (h : Shows r (Detail.schema d).members)
    (hsorted : ∀ j ∈ d.definition.toList, Sorted j) (hnull : d.definition ≠ some .null) :
    Detail.schemaOf? r = some d := by
  have hdefinition : optionalField? (fun j => some j.sorted) r "definition"
      = some d.definition := by
    have hwrite : d.definition.getD .null = ofOption id d.definition := by
      cases d.definition <;> rfl
    have hreads : Reads (optional? fun j => some j.sorted) (ofOption id d.definition)
        d.definition := by
      refine reads_optional fun j hj => ⟨?_, reads_sorted (hsorted j (by simp [hj]))⟩
      rintro rfl
      exact hnull hj
    exact (h ("definition", d.definition.getD .null) (by simp [Detail.members])).optionalField?
      (hwrite ▸ hreads)
  have hfields : defaultField? (list? SchemaField.ofJson?) [] r "fields" = some d.fields :=
    (h ("fields", .arr (d.fields.map SchemaField.toJson)) (by simp [Detail.members])).defaultField?
      (reads_list fun f _ => reads_schemaField f) []
  rw [Detail.schemaOf?,
    strField?_of_shows h "schema_type" d.schemaType (by simp [Detail.members]),
    textField?_of_shows h "service_id" d.serviceId (by simp [Detail.members]), hdefinition, hfields,
    listField?_of_shows h "relationships" d.relationships (by simp [Detail.members]),
    textField?_of_shows h "graphql_kind" d.graphqlKind (by simp [Detail.members])]
  rfl

/-- A document is read from a record that shows its members. -/
theorem documentOf?_of_shows {d : Document} (h : Shows r (Detail.document d).members)
    (hmodified : ∀ t, d.lastModified = some t → t.Valid) : Detail.documentOf? r = some d := by
  have hsource : field? DocumentSource.ofJson? r "source_type" = some d.sourceType :=
    (h ("source_type", .str d.sourceType.label) (by simp [Detail.members])).field?
      (reads_source d.sourceType)
  have hhash : defaultField? str? "" r "content_hash" = some d.contentHash :=
    (h ("content_hash", .str d.contentHash) (by simp [Detail.members])).defaultField?
      (reads_str d.contentHash) ""
  have hlast : optionalField? instantOfJson? r "last_modified" = some d.lastModified :=
    (h ("last_modified", ofOption instantToJson d.lastModified)
      (by simp [Detail.members])).optionalField?
      (reads_optional fun t ht => ⟨nofun, reads_instant (hmodified t ht)⟩)
  have htrust : defaultField? TrustLevel.ofJson? .medium r "trust_level" = some d.trustLevel :=
    (h ("trust_level", .str d.trustLevel.label) (by simp [Detail.members])).defaultField?
      (reads_trust d.trustLevel) .medium
  rw [Detail.documentOf?, hsource,
    strField?_of_shows h "url" d.url (by simp [Detail.members]),
    textField?_of_shows h "content" d.content (by simp [Detail.members]), hhash,
    listField?_of_shows h "labels" d.labels (by simp [Detail.members]),
    listField?_of_shows h "linked_services" d.linkedServices (by simp [Detail.members]),
      hlast, htrust,
    textField?_of_shows h "disclaimer" d.disclaimer (by simp [Detail.members])]
  rfl

/-- The details of an entity are read from all members that show their own. -/
theorem Detail.ofMembers?_of_shows {d : Detail} (h : Shows r d.members)
    (hsorted : ∀ j ∈ d.freeForm, Sorted j) (hd : d.Tidy) : ofMembers? d.type r = some d := by
  cases d with
  | service d => rw [type, ofMembers?, serviceOf?_of_shows h, Option.map_some]
  | domain d =>
      rw [type, ofMembers?, listField?_of_shows h "services" d.services (by simp [members]),
        textField?_of_shows h "parent_domain" d.parentDomain (by simp [members]),
        listField?_of_shows h "sub_domains" d.subDomains (by simp [members])]
      rfl
  | api d => rw [type, ofMembers?, apiOf?_of_shows h, Option.map_some]
  | endpoint d => rw [type, ofMembers?, endpointOf?_of_shows h hsorted, Option.map_some]
  | schema d => rw [type, ofMembers?, schemaOf?_of_shows h hsorted hd, Option.map_some]
  | document d => rw [type, ofMembers?, documentOf?_of_shows h hd, Option.map_some]
  | person d =>
      rw [type, ofMembers?, textField?_of_shows h "email" d.email (by simp [members]),
        textField?_of_shows h "team" d.team (by simp [members]),
        textField?_of_shows h "role" d.role (by simp [members]),
        listField?_of_shows h "owned_services" d.ownedServices (by simp [members])]
      rfl
  | repository d =>
      have hbranch : defaultField? str? CodeAtlas.defaultBranch r "default_branch"
          = some d.defaultBranch :=
        (h ("default_branch", .str d.defaultBranch) (by simp [members])).defaultField?
          (reads_str d.defaultBranch) _
      rw [type, ofMembers?, textField?_of_shows h "url" d.url (by simp [members]), hbranch,
        listField?_of_shows h "languages" d.languages (by simp [members]),
        listField?_of_shows h "services" d.services (by simp [members])]
      rfl
  | integration d =>
      rw [type, ofMembers?,
        strField?_of_shows h "integration_type" d.integrationType (by simp [members]),
        textField?_of_shows h "provider" d.provider (by simp [members]),
        listField?_of_shows h "services" d.services (by simp [members]),
        listField?_of_shows h "config_keys" d.configKeys (by simp [members])]
      rfl

/-- No member of an entity has the name of another. -/
theorem Entity.nodup_names (e : Entity) : (e.members.map Prod.fst).Nodup := by
  obtain ⟨base, detail⟩ := e
  cases detail with
  | _ d => simp [members, EntityBase.members, Detail.members]

/-- A tidy entity is read from any object that shows its members and repeats no name. -/
theorem Entity.ofJson?_of_shows {e : Entity} (he : e.Tidy) (h : Shows r e.members)
    (hr : (r.map Prod.fst).Nodup) : Entity.ofJson? (.obj r) = some e := by
  obtain ⟨base, detail⟩ := e
  obtain ⟨htype, hparts⟩ := List.forall_mem_cons.1 h
  obtain ⟨hbase, hdetail⟩ := List.forall_mem_append.1 hparts
  obtain ⟨hmetadata, hfree⟩ := List.forall_mem_append.1 he.sorted
  have hread := EntityBase.ofMembers?_of_shows hbase he.ascending hmetadata he.createdAt
    he.updatedAt
  have hread' := Detail.ofMembers?_of_shows hdetail hfree he.detail
  have hlabel : field? (fun j => j.str? >>= EntityType.ofLabel?) r "entity_type"
      = some detail.type := htype.field? (reads_type detail.type)
  rw [ofJson?, obj?, Option.bind_eq_bind, Option.bind_some]
  dsimp only
  rw [hlabel, Option.bind_eq_bind, Option.bind_some, hread, Option.bind_eq_bind, Option.bind_some,
    hread', Option.bind_eq_bind, Option.bind_some, unrepeated_of_nodup hr, if_pos rfl]

/-- A tidy entity is read back from its document. -/
theorem Entity.ofJson?_toJson {e : Entity} (he : e.Tidy) : Entity.ofJson? e.toJson = some e :=
  Entity.ofJson?_of_shows he (shows_self e.nodup_names) e.nodup_names

/-! ## Numbers -/

@[simp] theorem plain_ofString? (s? : Option String) : Plain (ofString? s?) := by
  cases s? with
  | none => exact .null
  | some s => exact .str s

@[simp] theorem plain_strings (l : List String) : Plain (.strings l) :=
  .arr (List.forall_mem_map.2 fun s _ => .str s)

@[simp] theorem plain_instant (t : Instant) : Plain (instantToJson t) := .str t.text

@[simp] theorem plain_traits (t : ServiceTraits) : Plain t.toJson := by
  refine .obj (List.forall_mem_cons.2 ⟨plain_ofString? t.serviceType, ?_⟩)
  exact List.forall_mem_singleton.2 (.bool t.isApiGateway)

@[simp] theorem plain_schemaField (f : SchemaField) : Plain f.toJson := by
  refine .obj (List.forall_mem_cons.2 ⟨.str f.name, List.forall_mem_cons.2 ⟨.str f.type, ?_⟩⟩)
  exact List.forall_mem_cons.2
    ⟨plain_ofString? f.description, List.forall_mem_singleton.2 (.bool f.required)⟩

/-- The members of details hold integers only if their parts of any form do. -/
theorem plain_detail {d : Detail} (h : ∀ j ∈ d.freeForm, Plain j) : ∀ m ∈ d.members, Plain m.2 := by
  cases d with
  | endpoint d =>
      have hexamples : Plain (.arr d.examples) := .arr h
      simp [Detail.members, hexamples, Plain.str, Plain.bool]
  | schema d =>
      have hdefinition : Plain (d.definition.getD .null) := by
        cases hd : d.definition with
        | none => exact .null
        | some j => exact h j (Option.mem_toList.2 hd)
      have hfields : Plain (.arr (d.fields.map SchemaField.toJson)) :=
        .arr (List.forall_mem_map.2 fun f _ => plain_schemaField f)
      simp [Detail.members, hdefinition, hfields, Plain.str]
  | document d =>
      have hmodified : Plain (ofOption instantToJson d.lastModified) := by
        cases d.lastModified with
        | none => exact .null
        | some t => exact plain_instant t
      simp [Detail.members, hmodified, Plain.str]
  | _ d => simp [Detail.members, Plain.str]

/-- The members of an entity hold integers only if its parts of any form do. -/
theorem Entity.plain_members {e : Entity} (h : ∀ j ∈ e.freeForm, Plain j) :
    ∀ m ∈ e.members, Plain m.2 := by
  obtain ⟨hmetadata, hfree⟩ := List.forall_mem_append.1 h
  have hobj : Plain (.obj e.base.metadata) := .obj (List.forall_mem_map.1 hmetadata)
  refine List.forall_mem_cons.2 ⟨.str _, List.forall_mem_append.2 ⟨?_, plain_detail hfree⟩⟩
  simp [EntityBase.members, hobj, Plain.str]

/-! ## What is tidy -/

/-- What is made of details without documents of any form is tidy. -/
theorem Entity.tidy_new {now : Instant} (hnow : now.Valid) (id name : String) {d : Detail}
    (hfree : d.freeForm = []) (hd : d.Tidy) : (Entity.new now id name d).Tidy where
  ascending := ascending_nil
  sorted := by
    intro j hj
    have hnil : (Entity.new now id name d).freeForm = [] := hfree
    rw [hnil] at hj
    exact absurd hj List.not_mem_nil
  createdAt := hnow
  updatedAt := hnow
  detail := hd

/-- An instant that is read is valid. -/
theorem valid_of_instantOfJson? {j : Json} {t : Instant} (h : instantOfJson? j = some t) :
    t.Valid := by
  obtain ⟨s, -, hs⟩ := Option.bind_eq_some_iff.1 h
  exact Instant.valid_of_ofText? hs

/-- Metadata that are read have ascending keys and sorted values. -/
theorem sorted_of_metadataOfJson? {j : Json} {m : Metadata} (h : metadataOfJson? j = some m) :
    Ascending m ∧ ∀ j ∈ m.map Prod.snd, Sorted j := by
  unfold metadataOfJson? at h
  split at h
  · next members =>
    cases h
    refine ⟨ascending_sortMembers _, List.forall_mem_map.2 fun x hx => ?_⟩
    exact sorted_sortedMembers members x (mem_of_mem_sortMembers hx)
  · exact nomatch h

/-- The base of an entity that is read is tidy. -/
theorem tidy_of_baseOfMembers? {b : EntityBase} (h : EntityBase.ofMembers? r = some b) :
    Ascending b.metadata ∧ (∀ j ∈ b.metadata.map Prod.snd, Sorted j)
      ∧ b.createdAt.Valid ∧ b.updatedAt.Valid := by
  simp only [EntityBase.ofMembers?, Option.bind_eq_bind, Option.bind_eq_some_iff, Option.pure_def,
    Option.some.injEq] at h
  obtain ⟨_, -, _, -, _, -, m, hm, _, -, created, hc, updated, hu, rfl⟩ := h
  have hmetadata : Ascending m ∧ ∀ j ∈ m.map Prod.snd, Sorted j := by
    rcases exists_of_defaultField? hm with ⟨j, hj⟩ | rfl
    · exact sorted_of_metadataOfJson? hj
    · exact ⟨ascending_nil, nofun⟩
  obtain ⟨j, hj⟩ := exists_of_field? hc
  obtain ⟨j', hj'⟩ := exists_of_field? hu
  exact ⟨hmetadata.1, hmetadata.2, valid_of_instantOfJson? hj, valid_of_instantOfJson? hj'⟩

/-- The examples of an endpoint that is read are sorted. -/
theorem tidy_of_endpointOf? {d : Endpoint} (h : Detail.endpointOf? r = some d) :
    ∀ j ∈ d.examples, Sorted j := by
  simp only [Detail.endpointOf?, Option.bind_eq_bind, Option.bind_eq_some_iff, Option.pure_def,
    Option.some.injEq] at h
  obtain ⟨_, -, _, -, _, -, _, -, _, -, _, -, _, -, examples, hexamples, rfl⟩ := h
  rcases exists_of_defaultField? hexamples with ⟨j, hj⟩ | rfl
  · intro j hmem
    obtain ⟨j', hj'⟩ := exists_of_list? hj j hmem
    exact Option.some.inj hj' ▸ sorted_sorted j'
  · exact nofun

/-- The definition of a schema that is read is sorted and not null. -/
theorem tidy_of_schemaOf? {d : Schema} (h : Detail.schemaOf? r = some d) :
    (∀ j ∈ d.definition.toList, Sorted j) ∧ d.definition ≠ some .null := by
  simp only [Detail.schemaOf?, Option.bind_eq_bind, Option.bind_eq_some_iff, Option.pure_def,
    Option.some.injEq] at h
  obtain ⟨_, -, _, -, definition, hdefinition, _, -, _, -, _, -, rfl⟩ := h
  cases definition with
  | none => exact ⟨nofun, nofun⟩
  | some j =>
      obtain ⟨j', hne, hj'⟩ := exists_of_optionalField? hdefinition
      obtain rfl := Option.some.inj hj'
      exact ⟨List.forall_mem_singleton.2 (sorted_sorted j'),
        fun hnull => sorted_ne_null hne (Option.some.inj hnull)⟩

/-- The time of a document that is read is valid. -/
theorem tidy_of_documentOf? {d : Document} (h : Detail.documentOf? r = some d) :
    ∀ t, d.lastModified = some t → t.Valid := by
  simp only [Detail.documentOf?, Option.bind_eq_bind, Option.bind_eq_some_iff, Option.pure_def,
    Option.some.injEq] at h
  obtain ⟨_, -, _, -, _, -, _, -, _, -, _, -, modified, hmodified, _, -, _, -, rfl⟩ := h
  rintro t rfl
  obtain ⟨j, -, hj⟩ := exists_of_optionalField? hmodified
  exact valid_of_instantOfJson? hj

/-- The details of an entity that is read are tidy. -/
theorem tidy_of_detailOfMembers? {type : EntityType} {d : Detail}
    (h : Detail.ofMembers? type r = some d) : (∀ j ∈ d.freeForm, Sorted j) ∧ d.Tidy := by
  have hnone : ∀ j ∈ ([] : List Json), Sorted j := List.forall_mem_nil _
  unfold Detail.ofMembers? at h
  split at h
  case h_4 =>
    obtain ⟨d, hd, rfl⟩ := Option.map_eq_some_iff.1 h
    exact ⟨tidy_of_endpointOf? hd, trivial⟩
  case h_5 =>
    obtain ⟨d, hd, rfl⟩ := Option.map_eq_some_iff.1 h
    exact tidy_of_schemaOf? hd
  case h_6 =>
    obtain ⟨d, hd, rfl⟩ := Option.map_eq_some_iff.1 h
    exact ⟨hnone, tidy_of_documentOf? hd⟩
  all_goals
    simp only [Option.bind_eq_bind, Option.bind_eq_some_iff, Option.pure_def, Option.some.injEq,
      Option.map_eq_some_iff] at h
  case h_1 | h_3 =>
    obtain ⟨_, -, rfl⟩ := h
    exact ⟨hnone, trivial⟩
  case h_2 =>
    obtain ⟨_, -, _, -, _, -, rfl⟩ := h
    exact ⟨hnone, trivial⟩
  all_goals
    obtain ⟨_, -, _, -, _, -, _, -, rfl⟩ := h
    exact ⟨hnone, trivial⟩

/-- What is read is tidy. -/
theorem Entity.tidy_of_ofJson? {j : Json} {e : Entity} (h : Entity.ofJson? j = some e) :
    e.Tidy := by
  simp only [Entity.ofJson?, Option.bind_eq_bind, Option.bind_eq_some_iff] at h
  obtain ⟨r, -, type, -, base, hbase, detail, hdetail, hif⟩ := h
  split at hif
  · cases hif
    obtain ⟨hascending, hmetadata, hcreated, hupdated⟩ := tidy_of_baseOfMembers? hbase
    obtain ⟨hfree, htidy⟩ := tidy_of_detailOfMembers? hdetail
    exact
      { ascending := hascending
        sorted := List.forall_mem_append.2 ⟨hmetadata, hfree⟩
        createdAt := hcreated
        updatedAt := hupdated
        detail := htidy }
  · exact nomatch hif

end CodeAtlas.Graph
