import CodeAtlas.Proofs.Graph.Rooted
import Mathlib.Data.List.Find

/-!
# Endpoints

The id of an endpoint is the slug of its method and path, so it tells the words of these and nothing
else. Of the endpoints of a report with one id the first gets an entity. So an endpoint is there as
it was found if no other one with the words of its method and path is in front of it.
-/

namespace CodeAtlas.Graph

open Step

variable {slug id : String} {seen : List String} {endpoints : List CodeAtlas.Endpoint}
  {e : CodeAtlas.Endpoint}

/-- Endpoints of one service have one id if their methods and paths have the same words. -/
theorem endpointId_eq_iff (slug : String) (e f : CodeAtlas.Endpoint) :
    endpointId slug e = endpointId slug f
      ↔ slugWords (e.method ++ " " ++ e.path) = slugWords (f.method ++ " " ++ f.path) :=
  (String.append_right_inj _).trans slugify_eq_iff

/-- Of the endpoints with one id the first counts. -/
theorem mem_endpointIds : (e, id) ∈ endpointIds slug seen endpoints
    ↔ id ∉ seen ∧ endpoints.find? (fun f => endpointId slug f = id) = some e := by
  induction endpoints generalizing seen with
  | nil => exact iff_of_false List.not_mem_nil fun h => nomatch h.2
  | cons x rest ih =>
      rw [endpointIds, List.find?_cons]
      by_cases hid : endpointId slug x = id
      · rw [decide_eq_true hid]
        split
        · next hseen =>
          have hseen : id ∈ seen := hid ▸ List.contains_iff_mem.1 hseen
          exact iff_of_false (fun h => (ih.1 h).1 hseen) fun h => h.1 hseen
        · next hseen =>
          have hseen : id ∉ seen := fun h => hseen (List.contains_iff_mem.2 (hid ▸ h))
          rw [List.mem_cons, ih, and_iff_right hseen, Option.some_inj, hid]
          constructor
          · rintro (h | ⟨h, -⟩)
            · exact (congrArg Prod.fst h).symm
            · exact absurd List.mem_cons_self h
          · rintro rfl
            exact .inl rfl
      · rw [decide_eq_false hid]
        split
        · exact ih
        · rw [List.mem_cons, ih, List.mem_cons, not_or, and_iff_right (Ne.symm hid)]
          exact or_iff_right fun h => hid (congrArg Prod.snd h).symm

/-- Every endpoint has an id, and so there is a first one with it. -/
theorem exists_first (slug : String) (he : e ∈ endpoints) :
    ∃ f, endpoints.find? (fun f => endpointId slug f = endpointId slug e) = some f :=
  Option.isSome_iff_exists.1 (List.find?_isSome.2 ⟨e, he, decide_eq_true rfl⟩)

/-! ## The entities of endpoints -/

/-- The entity is that of an endpoint of an interface. -/
structure Serves (apiId : String) (e : CodeAtlas.Endpoint) (x : Entity) : Prop where
  name : x.base.name = e.method ++ " " ++ e.path
  description : x.base.description = e.description
  sourceRefs : x.base.sourceRefs = [sourceRef e.sourceLink e.file e.line]
  handler : x.base.metadata.lookup "handler" = e.handler.map Json.str
  parameters : x.base.metadata.lookup "parameters"
    = if e.parameters.isEmpty then none else some (.strings e.parameters)
  decorators : x.base.metadata.lookup "decorators"
    = if e.decorators.isEmpty then none else some (.strings e.decorators)
  detail : ∃ d : Endpoint, x.detail = .endpoint d ∧ d.method = e.method ∧ d.path = e.path
    ∧ d.apiId = some apiId

theorem serves_entityOfEndpoint (now c u : Instant) (apiId id : String) (names : SchemaNames)
    (e : CodeAtlas.Endpoint) :
    Serves apiId e ((entityOfEndpoint now apiId id names e).stamped c u) := by
  rw [entityOfEndpoint]
  cases hhandler : e.handler
  all_goals
    cases hparameters : e.parameters.isEmpty
    all_goals
      cases hdecorators : e.decorators.isEmpty
      all_goals exact {
        name := rfl, description := rfl, sourceRefs := rfl, detail := ⟨_, rfl, rfl, rfl, rfl⟩
        handler := by rw [hhandler]; rfl
        parameters := by rw [hparameters]; rfl
        decorators := by rw [hdecorators]; rfl }

namespace Report

variable {g : Graph} {now : Instant} {r : Report}

/-- The step for an endpoint. -/
theorem mem_stepsAt_of_endpoint
    (hmem : (e, id) ∈ endpointIds (slugify r.name) [] r.analysis.endpoints) :
    .renew (entityOfEndpoint epoch r.apiId id r.schemaNames e) ∈ r.stepsAt id := by
  have hne : r.analysis.endpoints ≠ [] :=
    List.ne_nil_of_mem (List.mem_of_find?_eq_some (mem_endpointIds.1 hmem).2)
  obtain ⟨_, -, hsteps⟩ := apiSteps_eq hne
  refine mem_stepsAt (mem_of_mem_apiSteps ?_) (congrArg some (entityOfEndpoint_eq epoch ..).1)
  rw [hsteps]
  refine List.mem_cons_of_mem _ (List.mem_cons_of_mem _ (List.mem_flatMap.2 ⟨_, hmem, ?_⟩))
  exact List.mem_append_left _ List.mem_cons_self

/-- The first endpoint with an id has an entity in every report. -/
theorem exists_serves (hg : g.Coherent) (now : Instant)
    (he : r.analysis.endpoints.find? (fun f => endpointId (slugify r.name) f = id) = some e) :
    ∃ x, (g.receive now r).get? id = some x ∧ Serves r.apiId e x := by
  have hmem := mem_endpointIds.2 ⟨List.not_mem_nil, he⟩
  have hstep := mem_stepsAt_of_endpoint hmem
  have hwrites : r.Writes id := List.ne_nil_of_mem hstep
  obtain ⟨part, hall⟩ := exists_part hwrites
  have hoccurs : Occurs r.name r.url? r.analysis .endpoint id
      (.renew (entityOfEndpoint epoch r.apiId id r.schemaNames e)) := .endpoint hmem
  obtain rfl : part = .endpoint := (hall _ hstep).part_eq hoccurs
  refine exists_renewed hg now hwrites fun s hs => ?_
  cases hall s hs with
  | @endpoint f _ names hf =>
      obtain rfl : f = e := Option.some.inj ((mem_endpointIds.1 hf).2.symm.trans he)
      exact ⟨_, rfl, fun c u => serves_entityOfEndpoint ..⟩

theorem mem_contained :
    id ∈ r.contained ↔ ∃ e ∈ r.analysis.endpoints, endpointId (slugify r.name) e = id := by
  constructor
  · intro h
    obtain ⟨⟨e, id'⟩, hmem, rfl⟩ := List.mem_map.1 h
    have hfind := (mem_endpointIds.1 hmem).2
    have hid := List.find?_some hfind
    exact ⟨e, List.mem_of_find?_eq_some hfind, of_decide_eq_true hid⟩
  · rintro ⟨e, he, rfl⟩
    obtain ⟨f, hf⟩ := exists_first (slugify r.name) he
    exact List.mem_map.2 ⟨_, mem_endpointIds.2 ⟨List.not_mem_nil, hf⟩, rfl⟩

/-- An interface contains its endpoints. -/
theorem hasRelation_contained (hg : g.Coherent) (now : Instant) (r : Report) {y : String} :
    (g.receive now r).hasRelation r.apiId y .contains = true
      ↔ g.hasRelation r.apiId y .contains = true ∨ y ∈ r.contained := by
  rw [hasRelation_receive hg now r (by decide), has_contains]
  refine or_congr_right ⟨fun h => ?_, fun h => .inr ⟨rfl, h⟩⟩
  rcases h with ⟨h, -⟩ | ⟨-, h⟩
  · exact absurd h (apiId_ne_repositoryId r r)
  · exact h

end Report

/-- The interface of a report contains an entity for every endpoint, which has the data of the first
endpoint with its id. Two endpoints have one id if their methods and paths have the same words. So
where no others have its id, an endpoint is found with its method and path, as the first one with
these. -/
theorem endpoints_of_report {g : Graph} (h : Reachable g) (now : Instant) (r : Report) :
    let id := endpointId (slugify r.name)
    let endpoints := r.analysis.endpoints
    let g' := g.receive now r
    (∀ e f, id e = id f
        ↔ slugWords (e.method ++ " " ++ e.path) = slugWords (f.method ++ " " ++ f.path))
      ∧ (∀ y, g'.hasRelation r.apiId y .contains = true
          ↔ g.hasRelation r.apiId y .contains = true ∨ ∃ e ∈ endpoints, id e = y)
      ∧ ∀ e ∈ endpoints,
          (∃ base d, g'.get? r.apiId = some ⟨base, .api d⟩ ∧ id e ∈ d.endpoints)
          ∧ (∃ f x, endpoints.find? (fun f => id f = id e) = some f
            ∧ g'.get? (id e) = some x ∧ Serves r.apiId f x)
          ∧ ((∀ f ∈ endpoints, id f = id e → f.method = e.method ∧ f.path = e.path) →
            ∃ f x, endpoints.find? (fun f => f.method = e.method ∧ f.path = e.path) = some f
              ∧ g'.get? (id e) = some x ∧ Serves r.apiId f x) := by
  intro id endpoints g'
  have hg := h.coherent
  refine ⟨endpointId_eq_iff _, fun y => ?_, fun e he => ?_⟩
  · rw [← Report.mem_contained]
    exact Report.hasRelation_contained hg now r
  · obtain ⟨f, hf⟩ := exists_first (slugify r.name) he
    obtain ⟨x, hx, hserves⟩ := Report.exists_serves hg now hf
    have hexposed : r.apiId ∈ r.exposed := Report.mem_exposed.2 ⟨List.ne_nil_of_mem he, rfl⟩
    obtain ⟨base, d, hapi, hd⟩ := Report.exists_interface hg now hexposed
    refine ⟨⟨base, d, hapi, hd ▸ Report.mem_contained.2 ⟨e, he, rfl⟩⟩, ⟨f, x, hf, hx, hserves⟩, ?_⟩
    -- when no other request has the id, the first with the id is the first with this request
    intro honly
    have hsame : ∀ f ∈ endpoints, decide (id f = id e)
        = decide (f.method = e.method ∧ f.path = e.path) := by
      refine fun f hf => decide_eq_decide.2 ⟨honly f hf, fun ⟨hmethod, hpath⟩ => ?_⟩
      show endpointId _ f = endpointId _ e
      rw [endpointId, endpointId, hmethod, hpath]
    exact ⟨f, x, (List.find?_congr hsame).symm.trans hf, hx, hserves⟩

/-- An endpoint that is found twice, and one with another method. -/
theorem endpoints_of_report_repeated :
    let e : CodeAtlas.Endpoint :=
      { method := "GET", path := "/a", file := "a.py", line := 1, handler := some "list" }
    let post := { e with method := "POST" }
    let r : Report := { name := "S", analysis := {
      language := "python", endpoints := [e, { e with line := 5, handler := none }, post] } }
    let id := endpointId (slugify r.name)
    let g := empty.receive epoch r
    id e ≠ id post
      ∧ (∃ x, g.get? (id e) = some x ∧ Serves r.apiId e x)
      ∧ ∃ x, g.get? (id post) = some x ∧ Serves r.apiId post x := by
  intro e post r id g
  obtain ⟨hid, -, hall⟩ := endpoints_of_report .empty epoch r
  -- the ids differ because the slugs of the two requests have different words
  have hne : id e ≠ id post := by
    have hget : slugWords "GET /a" = [['g', 'e', 't'], ['a']] :=
      slugWords_of_printed (by decide) (by decide) (by decide)
    have hpost : slugWords "POST /a" = [['p', 'o', 's', 't'], ['a']] :=
      slugWords_of_printed (by decide) (by decide) (by decide)
    intro h
    have hwords : slugWords "GET /a" = slugWords "POST /a" := (hid e post).1 h
    rw [hget, hpost] at hwords
    exact absurd hwords (by decide)
  have hmem : ∀ {f}, f ∈ r.analysis.endpoints → f = e ∨ f = { e with line := 5, handler := none }
      ∨ f = post := by
    intro f hf
    exact (List.mem_cons.1 hf).imp_right fun hf =>
      (List.mem_cons.1 hf).imp_right List.mem_singleton.1
  refine ⟨hne, ?_, ?_⟩
  · obtain ⟨-, -, honly⟩ := hall e List.mem_cons_self
    -- of the two endpoints with this id the first gives the data
    obtain ⟨f, x, hf, hx, hserves⟩ := honly fun f hf hid => by
      rcases hmem hf with rfl | rfl | rfl
      · exact ⟨rfl, rfl⟩
      · exact ⟨rfl, rfl⟩
      · exact absurd hid.symm hne
    obtain rfl : e = f := Option.some.inj hf
    exact ⟨x, hx, hserves⟩
  · obtain ⟨-, -, honly⟩ := hall post (List.mem_append_right [_, _] List.mem_cons_self)
    obtain ⟨f, x, hf, hx, hserves⟩ := honly fun f hf hid => by
      rcases hmem hf with rfl | rfl | rfl
      · exact absurd hid hne
      · exact absurd hid hne
      · exact ⟨rfl, rfl⟩
    obtain rfl : post = f := Option.some.inj hf
    exact ⟨x, hx, hserves⟩

/-- Of two endpoints whose paths have the same words the interface contains one. -/
theorem endpoints_with_same_words :
    let e : CodeAtlas.Endpoint := { method := "GET", path := "/a/b", file := "a.py", line := 1 }
    let r : Report := { name := "S", analysis := {
      language := "python", endpoints := [e, { e with path := "/a-b", line := 5 }] } }
    let g := empty.receive epoch r
    ¬ ∃ y x d, g.hasRelation r.apiId y .contains = true ∧ g.get? y = some x
      ∧ x.detail = .endpoint d ∧ d.path = "/a-b" := by
  intro e r g
  have hsame : endpointId (slugify r.name) { e with path := "/a-b", line := 5 }
      = endpointId (slugify r.name) e := by
    have hslash : slugWords "GET /a/b" = [['g', 'e', 't'], ['a'], ['b']] :=
      slugWords_of_printed (by decide) (by decide) (by decide)
    have hhyphen : slugWords "GET /a-b" = [['g', 'e', 't'], ['a'], ['b']] :=
      slugWords_of_printed (by decide) (by decide) (by decide)
    exact (endpointId_eq_iff ..).2 (hhyphen.trans hslash.symm)
  rintro ⟨y, x, d, hcontains, hx, hd, hpath⟩
  rcases (Report.hasRelation_contained coherent_empty epoch r).1 hcontains with h | h
  · cases h
  · -- both endpoints have the id, and the other one comes first
    have hid : endpointId (slugify r.name) e = y := by
      obtain ⟨f, hf, rfl⟩ := Report.mem_contained.1 h
      rcases List.mem_cons.1 hf with rfl | hf
      · rfl
      · obtain rfl := List.mem_singleton.1 hf
        exact hsame.symm
    have hfirst : r.analysis.endpoints.find? (fun f => endpointId (slugify r.name) f = y)
        = some e :=
      List.find?_cons_of_pos (decide_eq_true hid)
    obtain ⟨x', hx', hserves⟩ := Report.exists_serves coherent_empty epoch hfirst
    obtain rfl : x' = x := Option.some.inj (hx'.symm.trans hx)
    obtain ⟨d', hd', -, hpath', -⟩ := hserves.detail
    obtain rfl : d' = d := Detail.endpoint.inj (hd'.symm.trans hd)
    exact absurd (hpath'.symm.trans hpath) (by decide)

end CodeAtlas.Graph
