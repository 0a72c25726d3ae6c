import CodeAtlas.Proofs.Graph.Naming

/-!
# Reports

A report is an analysis of the service with a name. What a graph has under an id when it has
received a report depends on what it had there and on the steps at that id: they renew the entity
whatever was there, or they add the service to the users of an integration. The relations of a graph
are joined with those of the report.
-/

namespace CodeAtlas.Graph

open Step

/-! ## Steps at one id -/

namespace Entity

/-- The entity without its times. -/
def undated (e : Entity) : Entity := e.stamped epoch epoch

/-- An integration without what every use of it replaces: its name, its times, its provider, its
operations and the list of those who use it. -/
def unused (base : EntityBase) (d : Integration) : Entity :=
  ⟨{ base with
      name := "", metadata := base.metadata.filter fun m => m.1 != "operations"
      createdAt := epoch, updatedAt := epoch },
    .integration { d with provider := none, services := [] }⟩

end Entity

namespace Step

variable {now now' : Instant}

/-- What steps make of an entity does not depend on the time, but for its times. -/
theorem undated_foldl_onto {e e' : Entity} (h : e.undated = e'.undated) (steps : List Step) :
    (steps.foldl (onto now) e).undated = (steps.foldl (onto now') e').undated := by
  induction steps generalizing e e' with
  | nil => exact h
  | cons s rest ih => exact ih (onto_stamped h s)

/-- Times do not matter to steps. -/
theorem undated_foldl_apply (now now' : Instant) (old : Option Entity) (steps : List Step) :
    (steps.foldl (apply now) old).map Entity.undated
      = (steps.foldl (apply now') old).map Entity.undated := by
  induction steps generalizing old with
  | nil => rfl
  | cons s rest ih =>
      cases old with
      | some e =>
          rw [foldl_apply_some, foldl_apply_some]
          exact congrArg some (undated_foldl_onto rfl (s :: rest))
      | none =>
          rw [List.foldl_cons, List.foldl_cons]
          cases s with
          | mark | relate => exact ih none
          | renew | extend =>
              show (rest.foldl (apply now) (some _)).map _
                = (rest.foldl (apply now') (some _)).map _
              rw [foldl_apply_some, foldl_apply_some]
              refine congrArg some (undated_foldl_onto ?_ rest)
              rfl

/-- What was there before an entity is renewed does not matter. -/
theorem undated_of_renew (now now' : Instant) (old old' : Option Entity) {steps : List Step}
    {d : Entity} (hd : .renew d ∈ steps) :
    (steps.foldl (apply now) old).map Entity.undated
      = (steps.foldl (apply now') old').map Entity.undated := by
  obtain ⟨front, rest, rfl⟩ := List.append_of_mem hd
  obtain ⟨c, hc⟩ := exists_apply_renew now (front.foldl (apply now) old) d
  obtain ⟨c', hc'⟩ := exists_apply_renew now' (front.foldl (apply now') old') d
  rw [List.foldl_append, List.foldl_append, List.foldl_cons, List.foldl_cons, hc, hc',
    foldl_apply_some, foldl_apply_some]
  refine congrArg some (undated_foldl_onto ?_ rest)
  rfl

/-- Steps that renew an entity and mark it make one whose details are those of a renewal. -/
theorem exists_of_renew {P : Detail → Prop} {steps : List Step}
    (hsteps : ∀ s ∈ steps, (∃ e, s = .renew e ∧ P e.detail)
      ∨ ∃ id key value, s = .mark id key value)
    {d : Entity} (hd : .renew d ∈ steps) (now : Instant) (old : Option Entity) :
    ∃ e, steps.foldl (apply now) old = some e ∧ P e.detail := by
  -- another writing of the entity has the property too, and a mark keeps the detail
  have hkeep : ∀ {rest : List Step} {e : Entity}, (∀ s ∈ rest, (∃ e, s = .renew e ∧ P e.detail)
      ∨ ∃ id key value, s = .mark id key value) → P e.detail →
      P (rest.foldl (onto now) e).detail := by
    intro rest
    induction rest with
    | nil => exact fun _ he => he
    | cons s rest ih =>
        intro e hrest he
        obtain ⟨hs, hrest⟩ := List.forall_mem_cons.1 hrest
        refine ih hrest ?_
        rcases hs with ⟨x, rfl, hx⟩ | ⟨id, key, value, rfl⟩
        · exact hx
        · rw [onto]
          split
          · exact he
          · exact he
  obtain ⟨front, rest, rfl⟩ := List.append_of_mem hd
  obtain ⟨c, hc⟩ := exists_apply_renew now (front.foldl (apply now) old) d
  obtain ⟨hrenew, hrest⟩ := List.forall_mem_cons.1 (List.forall_mem_append.1 hsteps).2
  have hd : P d.detail := by
    rcases hrenew with ⟨e, he, hP⟩ | ⟨_, _, _, he⟩
    · cases he
      exact hP
    · cases he
  refine ⟨rest.foldl (onto now) (d.stamped c now), ?_, hkeep hrest hd⟩
  rw [List.foldl_append, List.foldl_cons, hc, foldl_apply_some]

/-! ## Users of an integration -/

/-- The users with one more. -/
def withUser (service : String) (users : List String) : List String :=
  if users.contains service then users else users ++ [service]

/-- The users behind a service that joins are the service and those that were there. -/
theorem mem_withUser {service s : String} {users : List String} :
    s ∈ withUser service users ↔ s = service ∨ s ∈ users := by
  rw [withUser]
  split
  · next h =>
    have hmem : service ∈ users := List.contains_iff_mem.1 h
    exact ⟨.inr, fun h => h.elim (fun h => h ▸ hmem) id⟩
  · rw [List.mem_append, List.mem_singleton]
    exact or_comm

/-- A service that joins twice is listed once. -/
theorem withUser_withUser (service : String) (users : List String) :
    withUser service (withUser service users) = withUser service users := by
  have hmem : (withUser service users).contains service = true :=
    List.contains_iff_mem.2 (mem_withUser.2 (.inl rfl))
  exact if_pos hmem

/-- The order in which users come does not matter. -/
theorem withUser_perm (a b : String) (users : List String) :
    (withUser a (withUser b users)).Perm (withUser b (withUser a users)) := by
  have hof : ∀ {s : String} {l : List String}, s ∈ l → withUser s l = l :=
    fun h => if_pos (List.contains_iff_mem.2 h)
  have hnot : ∀ {s : String} {l : List String}, s ∉ l → withUser s l = l ++ [s] :=
    fun h => if_neg fun h' => h (List.contains_iff_mem.1 h')
  by_cases ha : a ∈ users
  · rw [hof ha, hof (mem_withUser.2 (.inr ha))]
  · by_cases hb : b ∈ users
    · rw [hof hb, hof (mem_withUser.2 (.inr hb))]
    · by_cases hab : a = b
      · rw [hab]
      · have ha' : a ∉ users ++ [b] := by
          rw [List.mem_append, List.mem_singleton]
          exact fun h => h.elim ha hab
        have hb' : b ∉ users ++ [a] := by
          rw [List.mem_append, List.mem_singleton]
          exact fun h => h.elim hb fun h => hab h.symm
        have hswap : ([b] ++ [a]).Perm ([a] ++ [b]) := List.perm_append_comm
        rw [hnot ha, hnot hb, hnot ha', hnot hb', List.append_assoc, List.append_assoc]
        exact hswap.append_left users

/-- The users of what is under an id. -/
def users : Option Entity → List String
  | some ⟨_, .integration d⟩ => d.services
  | _ => []

/-- What is under the id of an integration apart from its use; a new one where there is none. -/
def frame (id category : String) : Option Entity → Entity
  | some ⟨base, .integration d⟩ => Entity.unused base d
  | _ => Entity.unused { id, name := "", createdAt := epoch, updatedAt := epoch }
      { integrationType := category }

/-- Whether a step is a use of the integration with an id by a service. -/
def UsedIn (id service category : String) (s : Step) : Prop :=
  ∃ target operations, s = .extend id service category target operations

/-- A service that joins an integration changes its users, and nothing else that is not used. -/
theorem exists_joined (service target : String) (operations : List String) (base : EntityBase)
    (d : Integration) (c u : Instant) :
    ∃ base' d', some ((Entity.joined service target operations base d).stamped c u)
        = some ⟨base', .integration d'⟩
      ∧ Entity.unused base' d' = Entity.unused base d
      ∧ d'.services = withUser service d.services := by
  have hnotes := Json.filter_insertMember "operations" (.strings operations) base.metadata
  refine ⟨_, _, rfl, ?_, rfl⟩
  exact congrArg (fun metadata : Metadata => (⟨{ base with
    name := "", metadata, createdAt := epoch, updatedAt := epoch },
    .integration { d with provider := none, services := [] }⟩ : Entity)) hnotes

/-- A use of an integration adds the service to its users and leaves the rest. -/
theorem apply_of_usedIn (now : Instant) {id service category : String} {s : Step}
    (h : UsedIn id service category s) (old : Option Entity) :
    ∃ base d, apply now old s = some ⟨base, .integration d⟩
      ∧ Entity.unused base d = frame id category old
        ∧ d.services = withUser service (users old) := by
  obtain ⟨target, operations, rfl⟩ := h
  cases old with
  | none =>
      exact exists_joined service target operations
        { id, name := target, createdAt := now, updatedAt := now }
          { integrationType := category } now now
  | some old =>
      obtain ⟨base, detail⟩ := old
      cases detail with
      | integration d => exact exists_joined ..
      | _ => exact exists_joined ..

/-- Uses of an integration by a service add it to the users and leave the rest. -/
theorem foldl_apply_usedIn (now : Instant) {id service category : String} {steps : List Step}
    (hne : steps ≠ []) (h : ∀ s ∈ steps, UsedIn id service category s) (old : Option Entity) :
    ∃ base d, steps.foldl (apply now) old = some ⟨base, .integration d⟩
      ∧ Entity.unused base d = frame id category old
        ∧ d.services = withUser service (users old) := by
  induction steps generalizing old with
  | nil => exact absurd rfl hne
  | cons s rest ih =>
      obtain ⟨hs, hrest⟩ := List.forall_mem_cons.1 h
      obtain ⟨base, d, happly, hframe, husers⟩ := apply_of_usedIn now hs old
      rw [List.foldl_cons, happly]
      by_cases hnil : rest = []
      · subst hnil
        exact ⟨base, d, rfl, hframe, husers⟩
      · obtain ⟨base', d', hfold, hframe', husers'⟩ := ih hnil hrest (some ⟨base, .integration d⟩)
        refine ⟨base', d', hfold, hframe'.trans hframe, husers'.trans ?_⟩
        rw [users, husers, withUser_withUser]

end Step

/-! ## Reports -/

/-- An analysis of the service with a name. -/
structure Report where
  name : String
  url? : Option String := none
  analysis : Analysis

/-- The graph when it has received a report. -/
def receive (g : Graph) (now : Instant) (r : Report) : Graph :=
  (g.lift now r.name r.url? r.analysis).1

namespace Report

/-- The id of the service of a report. -/
def serviceId (r : Report) : String := entityId .service r.name

/-- The id of the repository of a report. -/
def repositoryId (r : Report) : String := entityId .repository r.name

/-- The id of the interface of a report. -/
def apiId (r : Report) : String := "api:" ++ slugify r.name

/-- The ids of the interfaces that the service of a report exposes: one, if it has endpoints. -/
def exposed (r : Report) : List String := if r.analysis.endpoints.isEmpty then [] else [r.apiId]

/-- The ids of the endpoints of a report. -/
def contained (r : Report) : List String :=
  (endpointIds (slugify r.name) [] r.analysis.endpoints).map (·.2)

/-- The ids of the integrations that the service of a report uses. -/
def used (r : Report) : List String :=
  (groupedEffects r.analysis.sideEffects).map fun m => entityId .integration (m.1.1 ++ "-" ++ m.1.2)

/-- The ids of the resources of a report. -/
def resourceIds (r : Report) : List String :=
  ((r.analysis.infrastructure.map (·.resources)).getD []).map fun x => "infra:" ++ x.address

/-- The steps of receiving a report. -/
def script (r : Report) : List Step :=
  mainSteps r.name r.url? r.analysis ++ lastSteps r.analysis

/-- The steps of receiving a report that change the entity under an id. -/
def stepsAt (r : Report) (id : String) : List Step := r.script.filter fun s => s.id? = some id

/-- Whether receiving a report changes the entity under an id. -/
def Writes (r : Report) (id : String) : Prop := r.stepsAt id ≠ []

/-- The relations of a report between its own entities. -/
def links (r : Report) : List Relation :=
  (mainSteps r.name r.url? r.analysis).flatMap Step.relations

/-- The relations of a report from its resources to what they depend on. -/
def dependencies (r : Report) : List Relation := (lastSteps r.analysis).flatMap Step.relations

variable {g : Graph} {now : Instant} {r : Report} {id : String}

/-- Receiving a report is running its script. -/
theorem receive_eq (g : Graph) (now : Instant) (r : Report) :
    g.receive now r = runAll now g r.script := lift_eq ..

/-- Receiving a report keeps a graph coherent. -/
theorem coherent_receive (hg : g.Coherent) (now : Instant) (r : Report) :
    (g.receive now r).Coherent := by
  rw [receive_eq]
  exact coherent_runAll hg now _

/-- What is under an id behind a report. -/
theorem get?_receive (hg : g.Coherent) (now : Instant) (r : Report) (id : String) :
    (g.receive now r).get? id = (r.stepsAt id).foldl (apply now) (g.get? id) := by
  rw [receive_eq]
  exact get?_runAll hg now _ id

/-- A report leaves what it does not write. -/
theorem get?_receive_of_not_writes (hg : g.Coherent) (now : Instant) (h : ¬ r.Writes id) :
    (g.receive now r).get? id = g.get? id := by
  rw [get?_receive hg, not_not.1 h]
  rfl

/-- The relations behind a report. -/
theorem relations_receive (hg : g.Coherent) (now : Instant) (r : Report) :
    (g.receive now r).relations = Keyed.union Relation.key Keyed.last g.relations
      (r.links ++ r.dependencies.filter (hasEnds (g.receive now r))) := by
  rw [receive_eq]
  exact relations_runAll hg now (List.forall_mem_nil _) (grounded_mainSteps ..) (made_lastSteps _)

/-! ## The steps of a report -/

/-- The steps at an id are there for one part of the service. -/
theorem occurs_of_mem {s : Step} (hs : s ∈ r.stepsAt id) :
    ∃ part, Occurs r.name r.url? r.analysis part id s := by
  obtain ⟨hmem, hid⟩ := List.mem_filter.1 hs
  rcases List.mem_append.1 hmem with hmain | hlast
  · cases known_mainSteps r.name r.url? r.analysis s hmain with
    | relation => exact nomatch of_decide_eq_true hid
    | @change part id' _ h =>
        obtain rfl := Option.some.inj (h.id?_eq.symm.trans (of_decide_eq_true hid))
        exact ⟨part, h⟩
  · obtain ⟨_, -, _, -, _, -, rfl⟩ := exists_of_mem_lastSteps hlast
    exact nomatch of_decide_eq_true hid

/-- A main step that makes an id is one of the steps at the id. -/
theorem mem_stepsAt {s : Step} (hs : s ∈ mainSteps r.name r.url? r.analysis)
    (hid : s.id? = some id) : s ∈ r.stepsAt id :=
  List.mem_filter.2 ⟨List.mem_append_left _ hs, decide_eq_true hid⟩

/-- All steps at an id are there for the same part. -/
theorem exists_part (h : r.Writes id) :
    ∃ part, ∀ s ∈ r.stepsAt id, Occurs r.name r.url? r.analysis part id s := by
  obtain ⟨s, hs⟩ := List.exists_mem_of_ne_nil _ h
  obtain ⟨part, hpart⟩ := occurs_of_mem hs
  refine ⟨part, fun s' hs' => ?_⟩
  obtain ⟨part', hpart'⟩ := occurs_of_mem hs'
  rwa [hpart.part_eq hpart']

/-- A report writes the ids that its main steps make. -/
theorem writes_of_mem {s : Step} (hs : s ∈ mainSteps r.name r.url? r.analysis)
    (hid : s.id? = some id) : r.Writes id := List.ne_nil_of_mem (mem_stepsAt hs hid)

/-- Behind a report whose steps at an id all renew the entity, there is one of these entities. -/
theorem exists_renewed (hg : g.Coherent) (now : Instant) (hwrites : r.Writes id) {P : Entity → Prop}
    (h : ∀ s ∈ r.stepsAt id, ∃ e, s = .renew e ∧ ∀ c u, P (e.stamped c u)) :
    ∃ x, (g.receive now r).get? id = some x ∧ P x := by
  obtain ⟨front, s, hsplit⟩ := (List.eq_nil_or_concat (r.stepsAt id)).resolve_left hwrites
  rw [List.concat_eq_append] at hsplit
  obtain ⟨e, rfl, hP⟩ := h s (hsplit ▸ List.mem_append_right _ (List.mem_singleton_self s))
  obtain ⟨c, hc⟩ := exists_apply_renew now (front.foldl (apply now) (g.get? id)) e
  rw [get?_receive hg, hsplit, List.foldl_append, List.foldl_cons, hc]
  exact ⟨_, rfl, hP c now⟩

/-- The service is renewed by a main step. -/
theorem mem_serviceId (r : Report) :
    .renew (serviceOf epoch r.name r.url? r.analysis) ∈ mainSteps r.name r.url? r.analysis :=
  List.mem_append_left _ List.mem_cons_self

/-- A report writes its service. -/
theorem writes_serviceId (r : Report) : r.Writes r.serviceId := writes_of_mem (mem_serviceId r) rfl

/-- A report exposes its interface if it has endpoints. -/
theorem mem_exposed : id ∈ r.exposed ↔ r.analysis.endpoints ≠ [] ∧ id = r.apiId := by
  rw [exposed, Ne, ← List.isEmpty_iff]
  split
  · next h => exact ⟨nofun, fun h' => absurd h h'.1⟩
  · next h => exact ⟨fun h' => ⟨h, List.mem_singleton.1 h'⟩, fun h' => List.mem_singleton.2 h'.2⟩

/-- The schemas that the types in a report name. -/
def schemaNames (r : Report) : SchemaNames :=
  firstIds (schemaIds (slugify r.name) [] r.analysis.models)

/-- The steps for endpoints are main steps. -/
theorem mem_of_mem_apiSteps {s : Step}
    (hs : s ∈ apiSteps r.serviceId (slugify r.name) r.schemaNames r.analysis.endpoints) :
    s ∈ mainSteps r.name r.url? r.analysis :=
  List.mem_append_right _ (List.mem_append_right _ (List.mem_append_left _ hs))

/-- The steps for side effects are main steps. -/
theorem mem_of_mem_effectSteps {s : Step}
    (hs : s ∈ effectSteps r.serviceId r.analysis.sideEffects) :
    s ∈ mainSteps r.name r.url? r.analysis :=
  List.mem_append_right _
    (List.mem_append_right _ (List.mem_append_right _ (List.mem_append_left _ hs)))

/-- If there are endpoints their steps renew the interface, expose it, and add them one by one. -/
theorem apiSteps_eq (hne : r.analysis.endpoints ≠ []) :
    ∃ e : Entity, Occurs r.name r.url? r.analysis .api r.apiId (.renew e)
      ∧ apiSteps r.serviceId (slugify r.name) r.schemaNames r.analysis.endpoints
      = .renew e :: linkStep r.serviceId r.apiId .exposes
        :: (endpointIds (slugify r.name) [] r.analysis.endpoints).flatMap fun m =>
          endpointSteps r.apiId r.schemaNames m.1 m.2 := by
  rw [apiSteps, if_neg fun h => hne (List.isEmpty_iff.1 h)]
  exact ⟨_, .api hne rfl, rfl⟩

/-- The step for the interface. -/
theorem exists_api (h : id ∈ r.exposed) :
    ∃ s ∈ r.stepsAt id, Occurs r.name r.url? r.analysis .api id s := by
  obtain ⟨hne, rfl⟩ := mem_exposed.1 h
  obtain ⟨e, hoccurs, hsteps⟩ := apiSteps_eq hne
  refine ⟨_, mem_stepsAt (mem_of_mem_apiSteps ?_) hoccurs.id?_eq, hoccurs⟩
  rw [hsteps]
  exact List.mem_cons_self

/-- A report writes the interface that it exposes. -/
theorem writes_exposed (h : id ∈ r.exposed) : r.Writes id := by
  obtain ⟨s, hs, -⟩ := exists_api h
  exact List.ne_nil_of_mem hs

/-- Side effects are grouped by their categories and targets. -/
theorem exists_grouped {effects : List SideEffect} {category target : String} :
    (∃ operations, ((category, target), operations) ∈ groupedEffects effects)
      ↔ ∃ e ∈ effects, e.category.label = category ∧ e.target = some target := by
  have hunique : ∀ (keys l : List (String × String)) {k},
      k ∈ keys.foldl (fun l k => if l.contains k then l else l ++ [k]) l ↔ k ∈ l ∨ k ∈ keys := by
    intro keys
    induction keys with
    | nil => exact fun l k => (or_iff_left List.not_mem_nil).symm
    | cons x rest ih =>
        intro l k
        rw [List.foldl_cons, ih, List.mem_cons, ← or_assoc]
        refine or_congr_left ?_
        split
        · next h =>
          have hx : x ∈ l := List.contains_iff_mem.1 h
          exact (or_iff_left_of_imp fun h => h ▸ hx).symm
        · rw [List.mem_append, List.mem_singleton]
  -- the keys of the groups are the pairs, each once
  have hkeys : (∃ operations, ((category, target), operations) ∈ groupedEffects effects)
      ↔ (category, target) ∈ effects.filterMap fun e => e.target.map fun t =>
        (e.category.label, t) := by
    constructor
    · rintro ⟨operations, h⟩
      obtain ⟨k, hk, heq⟩ := List.mem_map.1 h
      obtain rfl : k = (category, target) := congrArg Prod.fst heq
      exact ((hunique _ _).1 (List.mem_mergeSort.1 hk)).resolve_left List.not_mem_nil
    · intro h
      exact ⟨_, List.mem_map.2 ⟨_, List.mem_mergeSort.2 ((hunique _ _).2 (.inr h)), rfl⟩⟩
  rw [hkeys, List.mem_filterMap]
  refine exists_congr fun e => and_congr_right fun _ => ?_
  rw [Option.map_eq_some_iff]
  constructor
  · rintro ⟨t, ht, heq⟩
    obtain ⟨hcategory, rfl⟩ := Prod.mk.injEq .. ▸ heq
    exact ⟨hcategory, ht⟩
  · rintro ⟨rfl, ht⟩
    exact ⟨target, ht, rfl⟩

/-- A service uses an integration for every category and target of its side effects. -/
theorem mem_used : id ∈ r.used ↔ ∃ e ∈ r.analysis.sideEffects, ∃ target, e.target = some target
    ∧ id = entityId .integration (e.category.label ++ "-" ++ target) := by
  constructor
  · intro h
    obtain ⟨⟨⟨category, target⟩, operations⟩, hm, hid⟩ := List.mem_map.1 h
    obtain ⟨e, he, rfl, htarget⟩ := exists_grouped.1 ⟨operations, hm⟩
    exact ⟨e, he, target, htarget, hid.symm⟩
  · rintro ⟨e, he, target, htarget, hid⟩
    obtain ⟨operations, hm⟩ := exists_grouped.2 ⟨e, he, rfl, htarget⟩
    exact List.mem_map.2 ⟨_, hm, hid.symm⟩

/-- The first step at the id of an integration that is used. -/
theorem exists_extend (h : id ∈ r.used) : ∃ (c : EffectCategory) (target : String)
    (operations : List String), id = entityId .integration (c.label ++ "-" ++ target)
      ∧ .extend id r.serviceId c.label target operations ∈ r.stepsAt id
      ∧ Occurs r.name r.url? r.analysis .integration id
        (.extend id r.serviceId c.label target operations) := by
  obtain ⟨⟨⟨category, target⟩, operations⟩, hm, hid⟩ := List.mem_map.1 h
  obtain ⟨e, -, rfl, -⟩ := exists_grouped.1 ⟨operations, hm⟩
  dsimp only at hid
  refine ⟨e.category, target, operations, hid.symm, ?_, ?_⟩
  · rw [← hid]
    refine mem_stepsAt (mem_of_mem_effectSteps (List.mem_append_left _ ?_)) rfl
    exact List.mem_flatMap.2 ⟨_, hm, List.mem_cons_self⟩
  · rw [← hid]
    exact .integration hm

/-- At the id of an integration the service uses it, for one category. -/
theorem exists_category (h : id ∈ r.used) : r.Writes id
    ∧ ∃ (c : EffectCategory) (target : String),
      id = entityId .integration (c.label ++ "-" ++ target)
      ∧ ∀ s ∈ r.stepsAt id, UsedIn id r.serviceId c.label s := by
  obtain ⟨c, target, operations, hid, hstep, hoccurs⟩ := exists_extend h
  have hwrites : r.Writes id := List.ne_nil_of_mem hstep
  obtain ⟨part, hall⟩ := exists_part hwrites
  obtain rfl : part = .integration := (hall _ hstep).part_eq hoccurs
  refine ⟨hwrites, c, target, hid, fun s hs => ?_⟩
  cases hall s hs with
  | @integration category' target' operations' h' =>
      obtain ⟨e, -, hcategory, -⟩ := exists_grouped.1 ⟨operations', h'⟩
      rw [← hcategory] at hid ⊢
      rw [category_eq hid]
      exact ⟨target', operations', rfl⟩

/-- What a report makes of the details of a part. -/
def Shows (r : Report) : Part → Detail → Prop
  | .service, .service d => d.apis = r.exposed
  | .repository, .repository d => d.services = [r.serviceId]
  | .api, .api d => d.endpoints = r.contained
  | .endpoint, .endpoint _ => True
  | .schema, .schema d | .resource, .schema d => d.serviceId = some r.serviceId
  | _, _ => False

/-- A part that is no integration is renewed. -/
theorem exists_renew {part : Part} (hpart : part ≠ .integration) {s : Step} (hs : s ∈ r.stepsAt id)
    (hoccurs : Occurs r.name r.url? r.analysis part id s) : ∃ d, .renew d ∈ r.stepsAt id := by
  cases hoccurs with
  | count => exact ⟨_, mem_stepsAt (mem_serviceId r) rfl⟩
  | integration => exact absurd rfl hpart
  | _ => exact ⟨_, hs⟩

/-- Behind a report every part that is no integration has the details of a renewal. -/
theorem exists_renewal (hg : g.Coherent) (now : Instant) {part : Part} (hpart : part ≠ .integration)
    {s : Step} (hs : s ∈ r.stepsAt id) (hoccurs : Occurs r.name r.url? r.analysis part id s)
    {P : Detail → Prop} (hP : ∀ s, Occurs r.name r.url? r.analysis part id s →
      (∃ e, s = .renew e ∧ P e.detail) ∨ ∃ id key value, s = .mark id key value) :
    ∃ e, (g.receive now r).get? id = some e ∧ P e.detail := by
  rw [get?_receive hg]
  obtain ⟨part', hall⟩ := exists_part (List.ne_nil_of_mem hs)
  obtain rfl : part = part' := hoccurs.part_eq (hall s hs)
  obtain ⟨d, hd⟩ := exists_renew hpart hs hoccurs
  exact exists_of_renew (fun s hs => hP s (hall s hs)) hd now _

/-- Behind a report every part that is no integration is as the report has it. -/
theorem exists_shown (hg : g.Coherent) (now : Instant) {part : Part} (hpart : part ≠ .integration)
    {s : Step} (hs : s ∈ r.stepsAt id) (hoccurs : Occurs r.name r.url? r.analysis part id s) :
    ∃ e, (g.receive now r).get? id = some e ∧ r.Shows part e.detail := by
  refine exists_renewal hg now hpart hs hoccurs fun s h => ?_
  cases h with
  | service => exact .inl ⟨_, rfl, rfl⟩
  | count => exact .inr ⟨_, _, _, rfl⟩
  | repository hd => exact .inl ⟨_, rfl, hd⟩
  | model => exact .inl ⟨_, rfl, rfl⟩
  | api hne hd => exact .inl ⟨_, rfl, hd⟩
  | endpoint he =>
      obtain ⟨-, -, d, -, hd, -⟩ := entityOfEndpoint_eq epoch ("api:" ++ slugify r.name) _ _ _
      refine .inl ⟨_, rfl, ?_⟩
      rw [hd]
      trivial
  | integration => exact absurd rfl hpart
  | resource => exact .inl ⟨_, rfl, rfl⟩

/-- What an integration is for one report is none of the other parts for another. -/
theorem not_used {part : Part} (hpart : part ≠ .integration) {s : Step}
    (h : Occurs r.name r.url? r.analysis part id s) (q : Report) : id ∉ q.used := by
  intro hused
  obtain ⟨_, _, _, -, -, hoccurs⟩ := exists_extend hused
  exact hpart (h.part_eq hoccurs)

/-- A step at an integration belongs to one that the service uses. -/
theorem mem_used_of_occurs {s : Step} (h : Occurs r.name r.url? r.analysis .integration id s) :
    id ∈ r.used := by
  cases h with
  | integration h => exact List.mem_map.2 ⟨_, h, rfl⟩

/-- The ids that a report writes are those of its integrations and of the parts that it shows. -/
theorem used_or_shown (hg : g.Coherent) (now : Instant) (h : r.Writes id) : id ∈ r.used
    ∨ (∀ q : Report, id ∉ q.used) ∧ ∃ part, (∃ s, Occurs r.name r.url? r.analysis part id s)
      ∧ ∃ e, (g.receive now r).get? id = some e ∧ r.Shows part e.detail := by
  obtain ⟨s, hs⟩ := List.exists_mem_of_ne_nil _ h
  obtain ⟨part, hoccurs⟩ := occurs_of_mem hs
  by_cases hpart : part = .integration
  · subst hpart
    exact .inl (mem_used_of_occurs hoccurs)
  · exact .inr ⟨not_used hpart hoccurs, part, ⟨s, hoccurs⟩, exists_shown hg now hpart hs hoccurs⟩

/-- Behind a report there is its service, which lists what the report exposes. -/
theorem exists_service (hg : g.Coherent) (now : Instant) (r : Report) :
    ∃ base d, (g.receive now r).get? r.serviceId = some ⟨base, .service d⟩
      ∧ d.apis = r.exposed := by
  have hpart : Part.service ≠ .integration := nofun
  obtain ⟨⟨base, detail⟩, he, hshows⟩ :=
    exists_shown hg now hpart (mem_stepsAt (mem_serviceId r) rfl) .service
  cases detail with
  | service d => exact ⟨base, d, he, hshows⟩
  | _ => exact hshows.elim

/-- Behind a report there is the interface that it exposes, which lists what it contains. -/
theorem exists_interface (hg : g.Coherent) (now : Instant) (h : id ∈ r.exposed) :
    ∃ base d, (g.receive now r).get? id = some ⟨base, .api d⟩ ∧ d.endpoints = r.contained := by
  have hpart : Part.api ≠ .integration := nofun
  obtain ⟨s, hs, hoccurs⟩ := exists_api h
  obtain ⟨⟨base, detail⟩, he, hshows⟩ := exists_shown hg now hpart hs hoccurs
  cases detail with
  | api d => exact ⟨base, d, he, hshows⟩
  | _ => exact hshows.elim

/-! ## The relations of a report -/

/-- The links of a report relate its parts. -/
theorem relates_of_mem_links {q : Relation} (h : q ∈ r.links) : Relates r.name r.analysis q := by
  obtain ⟨s, hs, hq⟩ := List.mem_flatMap.1 h
  cases s with
  | relate q' =>
      obtain rfl := List.mem_singleton.1 hq
      cases known_mainSteps r.name r.url? r.analysis _ hs with
      | relation h => exact h
      | change h => exact nomatch h.id?_eq
  | _ => exact nomatch hq

/-- Whether a report has a relation with these ends and this type. -/
def Has (r : Report) (source target : String) (type : RelationType) : Prop :=
  ∃ q ∈ r.links, q.key = (source, target, type)

/-- A report has the relations that its main steps add. -/
theorem has_of_mem {source target : String} {type : RelationType}
    (h : linkStep source target type ∈ mainSteps r.name r.url? r.analysis) :
    r.Has source target type :=
  ⟨_, List.mem_flatMap.2 ⟨_, h, List.mem_singleton_self _⟩, rfl⟩

/-- A service exposes its interface. -/
theorem has_exposes {s t : String} : r.Has s t .exposes ↔ s = r.serviceId ∧ t ∈ r.exposed := by
  constructor
  · rintro ⟨q, hq, hkey⟩
    cases relates_of_mem_links hq with
    | api hne =>
        cases hkey
        exact ⟨rfl, mem_exposed.2 ⟨hne, rfl⟩⟩
    | _ => cases hkey
  · rintro ⟨rfl, ht⟩
    obtain ⟨hne, rfl⟩ := mem_exposed.1 ht
    obtain ⟨e, -, hsteps⟩ := apiSteps_eq hne
    refine has_of_mem (mem_of_mem_apiSteps ?_)
    rw [hsteps]
    exact List.mem_cons_of_mem _ List.mem_cons_self

/-- A repository contains its service, and an interface its endpoints. -/
theorem has_contains {s t : String} : r.Has s t .contains
    ↔ s = r.repositoryId ∧ t = r.serviceId ∨ s = r.apiId ∧ t ∈ r.contained := by
  constructor
  · rintro ⟨q, hq, hkey⟩
    cases relates_of_mem_links hq with
    | service =>
        cases hkey
        exact .inl ⟨rfl, rfl⟩
    | endpoint he =>
        cases hkey
        exact .inr ⟨rfl, List.mem_map.2 ⟨_, he, rfl⟩⟩
    | _ => cases hkey
  · rintro (⟨rfl, rfl⟩ | ⟨rfl, ht⟩)
    · refine has_of_mem (List.mem_append_left _ ?_)
      exact List.mem_cons_of_mem _ (List.mem_cons_of_mem _ List.mem_cons_self)
    · obtain ⟨m, hm, rfl⟩ := List.mem_map.1 ht
      have hne : r.analysis.endpoints ≠ [] := by
        intro hnil
        rw [hnil] at hm
        exact nomatch hm
      obtain ⟨e, -, hsteps⟩ := apiSteps_eq hne
      refine has_of_mem (mem_of_mem_apiSteps ?_)
      rw [hsteps]
      refine List.mem_cons_of_mem _ (List.mem_cons_of_mem _ (List.mem_flatMap.2 ⟨m, hm, ?_⟩))
      exact List.mem_append_left _ (List.mem_cons_of_mem _ List.mem_cons_self)

/-- The id of an interface is not that of a repository. -/
theorem apiId_ne_repositoryId (r q : Report) : r.apiId ≠ q.repositoryId := by
  intro h
  exact nomatch Part.label_inj (append_colon_inj Part.api.colon_not_mem_label
    Part.repository.colon_not_mem_label h).1

/-- A service uses its integrations. -/
theorem has_uses {s t : String} : r.Has s t .uses ↔ s = r.serviceId ∧ t ∈ r.used := by
  constructor
  · rintro ⟨q, hq, hkey⟩
    cases relates_of_mem_links hq with
    | integration h =>
        cases hkey
        exact ⟨rfl, List.mem_map.2 ⟨_, h, rfl⟩⟩
    | _ => cases hkey
  · rintro ⟨rfl, ht⟩
    obtain ⟨m, hm, rfl⟩ := List.mem_map.1 ht
    refine has_of_mem (mem_of_mem_effectSteps (List.mem_append_left _
      (List.mem_flatMap.2 ⟨m, hm, ?_⟩)))
    exact List.mem_cons_of_mem _ List.mem_cons_self

/-- A relation from a resource to what it depends on says where it comes from. -/
theorem exists_of_mem_dependencies {q : Relation} (h : q ∈ r.dependencies) :
    ∃ source dependency, source ∈ r.resourceIds
      ∧ q = ⟨source, "infra:" ++ dependency, .dependsOn, [("source", "terraform")]⟩ := by
  obtain ⟨s, hs, hq⟩ := List.mem_flatMap.1 h
  obtain ⟨d, hd, x, hx, dependency, -, rfl⟩ := exists_of_mem_lastSteps hs
  refine ⟨"infra:" ++ x.address, dependency, ?_, List.mem_singleton.1 hq⟩
  rw [resourceIds, hd]
  exact List.mem_map_of_mem hx

/-- A report adds its relations, whatever it depends on. -/
theorem hasRelation_receive (hg : g.Coherent) (now : Instant) (r : Report) {s t : String}
    {type : RelationType} (htype : type ≠ .dependsOn) :
    (g.receive now r).hasRelation s t type = true
      ↔ g.hasRelation s t type = true ∨ r.Has s t type := by
  rw [hasRelation_of_union hg (coherent_receive hg now r) (relations_receive hg now r)]
  refine or_congr_right ⟨?_, ?_⟩
  · rintro ⟨q, hq, hkey⟩
    rcases List.mem_append.1 hq with hq | hq
    · exact ⟨q, hq, hkey⟩
    · obtain ⟨_, _, -, rfl⟩ := exists_of_mem_dependencies (List.mem_filter.1 hq).1
      cases hkey
      exact absurd rfl htype
  · rintro ⟨q, hq, hkey⟩
    exact ⟨q, List.mem_append_left _ hq, hkey⟩

end Report

end CodeAtlas.Graph
