import CodeAtlas.Proofs.Graph.Components
import CodeAtlas.Proofs.Graph.Report

/-!
# What hangs below a repository

Every relation of a report is added to a graph that has both of its ends. So whatever a report
writes is reached from its repository, and a graph that has received nothing else is in one part.
-/

namespace CodeAtlas.Graph

open Step

namespace Step

variable {g : Graph}

/-- The ends of a relation of grounded steps are known or were made before it. -/
theorem Grounded.ends {known : List String} {front rest : List Step} {s : Step}
    (h : Grounded known (front ++ s :: rest)) : ∀ q ∈ s.relations,
      q.source ∈ front.flatMap made ++ known ∧ q.target ∈ front.flatMap made ++ known := by
  induction front generalizing known with
  | nil => exact h.1
  | cons s' front ih =>
      intro q hq
      obtain ⟨hsource, htarget⟩ := ih h.2 q hq
      rw [List.flatMap_cons]
      simp only [List.mem_append] at hsource htarget ⊢
      tauto

/-- A relation of grounded steps is added to a graph that has its ends. -/
theorem Grounded.hasEnds (hg : g.Coherent) (now : Instant) {front rest : List Step} {q : Relation}
    (h : Grounded [] (front ++ .relate q :: rest)) : hasEnds (runAll now g front) q = true := by
  have hmade : ∀ {id : String}, id ∈ front.flatMap made ++ [] →
      (runAll now g front).contains id = true := by
    intro id hid
    rw [List.append_nil] at hid
    obtain ⟨s, hs, hid⟩ := List.mem_flatMap.1 hid
    exact contains_runAll_of_made hg now hs hid
  obtain ⟨hsource, htarget⟩ := h.ends q (List.mem_singleton_self q)
  exact Bool.and_eq_true_iff.2 ⟨hmade hsource, hmade htarget⟩

end Step

namespace Report

variable {g : Graph} {now : Instant} {r : Report} {id : String}

/-- Whether receiving a report adds a relation to a graph on the way. What a resource depends on is
looked up first. -/
def Adds (g : Graph) (now : Instant) (r : Report) (h : Graph) (q : Relation) : Prop :=
  ∃ front rest, r.script = front ++ .relate q :: rest ∧ h = runAll now g front
    ∧ (q.type = .dependsOn → h.contains q.target = true)

/-! ## No relation lacks an end -/

/-- The steps for resources are main steps. -/
theorem mem_of_mem_resourceSteps {d : Infra.Diagram} (hd : r.analysis.infrastructure = some d)
    {s : Step} (hs : s ∈ resourceSteps r.serviceId d) : s ∈ mainSteps r.name r.url? r.analysis := by
  rw [mainSteps, hd]
  exact List.mem_append_right _ (List.mem_append_right _ (List.mem_append_right _
    (List.mem_append_right _ hs)))

/-- What depends on something is there behind the last entity. -/
theorem contains_source_of_last (hg : g.Coherent) (now : Instant) {q : Relation}
    (hq : .relate q ∈ lastSteps r.analysis) (mid : List Step) :
    q.type = .dependsOn
      ∧ (runAll now g (mainSteps r.name r.url? r.analysis ++ mid)).contains q.source = true := by
  obtain ⟨d, hd, x, hx, dependency, -, heq⟩ := exists_of_mem_lastSteps hq
  obtain rfl := Step.relate.inj heq
  have hsource : .renew (schemaOfResource epoch (some r.serviceId) x)
      ∈ mainSteps r.name r.url? r.analysis ++ mid :=
    List.mem_append_left _ (mem_of_mem_resourceSteps hd
      (List.mem_flatMap.2 ⟨x, hx, List.mem_cons_self⟩))
  exact ⟨rfl, contains_runAll_of_made hg now hsource (List.mem_singleton_self _)⟩

/-- Every relation of a report is added to a graph that has both of its ends. -/
theorem Adds.hasEnds (hg : g.Coherent) {h : Graph} {q : Relation} (hadds : r.Adds g now h q) :
    hasEnds h q = true := by
  obtain ⟨front, rest, hscript, rfl, hlookup⟩ := hadds
  rcases List.append_eq_append_iff.1 hscript with ⟨mid, rfl, hlast⟩ | ⟨mid, hmain, hlast⟩
  · have hmem : .relate q ∈ lastSteps r.analysis := by
      rw [hlast]
      exact List.mem_append_right _ List.mem_cons_self
    obtain ⟨htype, hsource⟩ := contains_source_of_last hg now hmem mid
    exact Bool.and_eq_true_iff.2 ⟨hsource, hlookup htype⟩
  · cases mid with
    | nil =>
        have hmem : .relate q ∈ lastSteps r.analysis := by
          rw [← List.nil_append (lastSteps r.analysis), ← hlast]
          exact List.mem_cons_self
        obtain ⟨htype, hsource⟩ := contains_source_of_last hg now hmem []
        rw [hmain, List.append_nil, List.append_nil] at hsource
        exact Bool.and_eq_true_iff.2 ⟨hsource, hlookup htype⟩
    | cons s mid =>
        obtain ⟨rfl, -⟩ := List.cons.inj hlast
        have hgrounded := grounded_mainSteps r.name r.url? r.analysis
        rw [hmain] at hgrounded
        exact hgrounded.hasEnds hg now

/-! ## What a service owns -/

/-- The ids of the schemas of a report that are made of models. -/
def schemas (r : Report) : List String :=
  (schemaIds (slugify r.name) [] r.analysis.models).map (·.2)

/-- The steps for schemas are main steps. -/
theorem mem_of_mem_schemaSteps {s : Step}
    (hs : s ∈ schemaSteps r.serviceId (schemaIds (slugify r.name) [] r.analysis.models)) :
    s ∈ mainSteps r.name r.url? r.analysis :=
  List.mem_append_right _ (List.mem_append_left _ (List.mem_append_left _ hs))

/-- A service owns its schemas and its resources. -/
theorem has_owns {s t : String} :
    r.Has s t .owns ↔ s = r.serviceId ∧ (t ∈ r.schemas ∨ t ∈ r.resourceIds) := by
  constructor
  · rintro ⟨q, hq, hkey⟩
    cases relates_of_mem_links hq with
    | model hm =>
        cases hkey
        exact ⟨rfl, .inl (List.mem_map.2 ⟨_, hm, rfl⟩)⟩
    | @resource d hd x hx =>
        cases hkey
        refine ⟨rfl, .inr ?_⟩
        rw [resourceIds, hd]
        exact List.mem_map_of_mem hx
    | _ => cases hkey
  · rintro ⟨rfl, ht | ht⟩
    · obtain ⟨m, hm, rfl⟩ := List.mem_map.1 ht
      refine has_of_mem (mem_of_mem_schemaSteps (List.mem_flatMap.2 ⟨m, hm, ?_⟩))
      exact List.mem_cons_of_mem _ List.mem_cons_self
    · rw [resourceIds] at ht
      cases hd : r.analysis.infrastructure with
      | none =>
          rw [hd] at ht
          cases ht
      | some d =>
          rw [hd] at ht
          obtain ⟨x, hx, rfl⟩ := List.mem_map.1 ht
          refine has_of_mem (mem_of_mem_resourceSteps hd (List.mem_flatMap.2 ⟨x, hx, ?_⟩))
          exact List.mem_cons_of_mem _ List.mem_cons_self

/-! ## From the repository to every entity -/

/-- What a report relates, but for dependencies, is linked. -/
theorem linked_of_has (hg : g.Coherent) (now : Instant) {s t : String} {type : RelationType}
    (htype : type ≠ .dependsOn) (h : r.Has s t type) : (g.receive now r).Linked s t := by
  have hrelation := (hasRelation_receive hg now r htype).2 (.inr h)
  obtain ⟨q, hq, hkey⟩ := (coherent_receive hg now r).hasRelation_iff.1 hrelation
  simp only [Relation.key, Prod.mk.injEq] at hkey
  exact ⟨q, hq, hkey.1, hkey.2.1⟩

/-- The service is linked to its repository. -/
theorem linked_serviceId (hg : g.Coherent) (now : Instant) (r : Report) :
    (g.receive now r).Linked r.repositoryId r.serviceId :=
  linked_of_has hg now (by decide) (has_contains.2 (.inl ⟨rfl, rfl⟩))

/-- Whatever a report writes is reached from its repository. -/
theorem reached_of_writes (hg : g.Coherent) (now : Instant) (h : r.Writes id) :
    Relation.ReflTransGen (g.receive now r).Linked r.repositoryId id := by
  have hservice := linked_serviceId hg now r
  have hbelow : ∀ {type : RelationType} {t : String}, type ≠ .dependsOn → r.Has r.serviceId t type →
      Relation.ReflTransGen (g.receive now r).Linked r.repositoryId t :=
    fun htype h => (Relation.ReflTransGen.single hservice).tail (linked_of_has hg now htype h)
  obtain ⟨s, hs⟩ := List.exists_mem_of_ne_nil _ h
  obtain ⟨part, hoccurs⟩ := occurs_of_mem hs
  cases hoccurs with
  | service | count => exact .single hservice
  | repository => exact .refl
  | model hm => exact hbelow (by decide) (has_owns.2 ⟨rfl, .inl (List.mem_map.2 ⟨_, hm, rfl⟩)⟩)
  | api hne => exact hbelow (by decide) (has_exposes.2 ⟨rfl, mem_exposed.2 ⟨hne, rfl⟩⟩)
  | endpoint he =>
      have hne : r.analysis.endpoints ≠ [] := by
        intro hnil
        rw [hnil] at he
        cases he
      have hapi := hbelow (by decide) (has_exposes.2 ⟨rfl, mem_exposed.2 ⟨hne, rfl⟩⟩)
      refine hapi.tail (linked_of_has hg now (by decide) (has_contains.2 (.inr ⟨rfl, ?_⟩)))
      exact List.mem_map.2 ⟨_, he, rfl⟩
  | integration hm =>
      exact hbelow (by decide) (has_uses.2 ⟨rfl, List.mem_map.2 ⟨_, hm, rfl⟩⟩)
  | resource hd hx =>
      refine hbelow (by decide) (has_owns.2 ⟨rfl, .inr ?_⟩)
      rw [resourceIds, hd]
      exact List.mem_map_of_mem hx

/-- A report writes its repository. -/
theorem writes_repositoryId (r : Report) : r.Writes r.repositoryId :=
  writes_of_mem (List.mem_append_left _ (List.mem_cons_of_mem _ List.mem_cons_self)) rfl

/-- Whatever a report writes is there. -/
theorem contains_of_writes (hg : g.Coherent) (now : Instant) (h : r.Writes id) :
    (g.receive now r).contains id = true := by
  rcases (reached_of_writes hg now h).cases_tail with rfl | ⟨_, -, q, hq, -, rfl⟩
  · obtain ⟨q, hq, hsource, -⟩ := linked_serviceId hg now r
    rw [← hsource]
    exact ((coherent_receive hg now r).contains_ends hq).1
  · exact ((coherent_receive hg now r).contains_ends hq).2

/-- A graph that has received a report only has what the report writes. -/
theorem writes_of_contains (hg : g.Coherent) (now : Instant) (hempty : g.entities = [])
    (h : (g.receive now r).contains id = true) : r.Writes id := by
  by_contra hwrites
  obtain ⟨e, he⟩ := (coherent_receive hg now r).contains_iff.1 h
  rw [get?_receive_of_not_writes hg now hwrites] at he
  have hmem := (hg.get?_eq_some_iff_mem.1 he).1
  rw [hempty] at hmem
  cases hmem

/-- Receiving a report runs its script, which leaves what the report does not write. Every relation
on the way is added, since both of its ends are there. Whatever the report writes is there and
reached from its repository along relations, and a graph that was empty before is in one part. -/
theorem receive_rooted (hg : g.Coherent) (now : Instant) (r : Report) :
    g.receive now r = runAll now g r.script
      ∧ (∀ id, ¬ r.Writes id → (g.receive now r).get? id = g.get? id)
      ∧ (∀ h q, r.Adds g now h q → (h.addRelation q).1 = true)
      ∧ (∀ id, r.Writes id → (g.receive now r).contains id = true
        ∧ Relation.ReflTransGen (g.receive now r).Linked r.repositoryId id)
      ∧ (g.entities = [] → (g.receive now r).statistics.connectedComponents = 1) := by
  refine ⟨receive_eq g now r, ?_, ?_, ?_, ?_⟩
  · exact fun id h => get?_receive_of_not_writes hg now h
  · intro h q hadds
    rw [Coherent.addRelation_fst]
    exact hadds.hasEnds hg
  · exact fun id h => ⟨contains_of_writes hg now h, reached_of_writes hg now h⟩
  · intro hempty
    have hroot := contains_of_writes hg now (writes_repositoryId r)
    refine (coherent_receive hg now r).length_components hroot fun id hid => ?_
    exact reached_of_writes hg now (writes_of_contains hg now hempty hid)

/-- Models whose names make one slug, an endpoint that answers with one of them, and a resource that
depends on itself and on one that is missing, received by the empty graph. -/
theorem receive_rooted_shared :
    let m : Model :=
      { name := "Order", kind := .class_, file := "a.py", line := 1, parent := some "order" }
    let e : CodeAtlas.Endpoint :=
      { method := "GET", path := "/orders", file := "a.py", line := 9, responseType :=
        some "Order[]" }
    let x : Infra.Resource := {
      address := "aws_sqs_queue.q", resourceType := "aws_sqs_queue", name := "q", kind := "resource"
      file := "main.tf", line := 1, dependencies := ["aws_sqs_queue.q", "aws_sqs_queue.r"] }
    let r : Report := { name := "Shop", analysis := {
      language := "python+terraform", models := [m, { m with name := "order" }], endpoints := [e, e]
      infrastructure := some { resources := [x] } } }
    let g := empty.receive epoch r
    Relation.ReflTransGen g.Linked r.repositoryId "infra:aws_sqs_queue.q"
      ∧ g.statistics.connectedComponents = 1
      ∧ ∃ h q, r.Adds empty epoch h q ∧ (h.addRelation q).1 = true := by
  intro m e x r g
  obtain ⟨-, -, hadds, hreached, hparts⟩ := receive_rooted coherent_empty epoch r
  have hfirst : r.Adds empty epoch _ _ := ⟨[_, _], _, rfl, rfl, nofun⟩
  have hwrites : r.Writes "infra:aws_sqs_queue.q" :=
    writes_of_mem (mem_of_mem_resourceSteps rfl List.mem_cons_self) rfl
  exact ⟨(hreached _ hwrites).2, hparts rfl, _, _, hfirst, hadds _ _ hfirst⟩

end Report

end CodeAtlas.Graph
