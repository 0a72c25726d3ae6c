import CodeAtlas.Proofs.Graph.Report
import Mathlib.Data.List.Induction

/-!
# Lists and relations after many reports

A graph that has received reports one after the other keeps some facts twice: in the lists of its
entities and as relations. Nothing takes a relation back, while a list is made anew by every report
that has the entity. So the lists of services and interfaces follow the latest of the reports, their
relations follow all of them, and the lists of integrations and repositories agree with the
relations.
-/

namespace CodeAtlas.Graph

open Step

/-- The graph that has received some reports at some times, and nothing else. -/
def ofReports (history : List (Instant × Report)) : Graph :=
  history.foldl (fun g h => g.receive h.1 h.2) empty

/-- One report more is received behind the others. -/
theorem ofReports_append (history : List (Instant × Report)) (now : Instant) (r : Report) :
    ofReports (history ++ [(now, r)]) = (ofReports history).receive now r :=
  List.foldl_append

/-- The graph of reports is coherent. -/
theorem coherent_ofReports (history : List (Instant × Report)) : (ofReports history).Coherent :=
  coherent_foldl (fun _ h hg => Report.coherent_receive hg h.1 h.2) history coherent_empty

/-! ## The latest report -/

/-- The last of some reports for which a property holds. -/
def Latest (p : Report → Prop) (reports : List Report) (r : Report) : Prop :=
  ∃ front rest, reports = front ++ r :: rest ∧ p r ∧ ∀ q ∈ rest, ¬ p q

/-- A report with a property is the latest one when it comes last. -/
theorem latest_append_self {p : Report → Prop} {r : Report} (h : p r) (reports : List Report) :
    Latest p (reports ++ [r]) r := ⟨reports, [], rfl, h, nofun⟩

/-- A report that lacks the property leaves the latest one. -/
theorem Latest.append {p : Report → Prop} {reports : List Report} {r q : Report}
    (h : Latest p reports r) (hq : ¬ p q) : Latest p (reports ++ [q]) r := by
  obtain ⟨front, rest, rfl, hr, hrest⟩ := h
  refine ⟨front, rest ++ [q], by simp, hr, ?_⟩
  exact List.forall_mem_append.2 ⟨hrest, List.forall_mem_singleton.2 hq⟩

/-! ## Relations -/

/-- Behind reports two ids are related, but by dependencies, if one of the reports relates them. -/
theorem hasRelation_ofReports (history : List (Instant × Report)) {s t : String}
    {type : RelationType} (htype : type ≠ .dependsOn) :
    (ofReports history).hasRelation s t type = true
      ↔ ∃ r ∈ history.map Prod.snd, r.Has s t type := by
  induction history using List.reverseRecOn with
  | nil => exact ⟨nofun, nofun⟩
  | append_singleton history h ih =>
      rw [ofReports_append, Report.hasRelation_receive (coherent_ofReports _) _ _ htype, ih,
        List.map_append]
      simp only [List.mem_append, or_and_right, exists_or, List.map_singleton, List.mem_singleton,
        exists_eq_left]

/-! ## Users -/

/-- The users of an integration are the services whose reports use it. -/
theorem mem_users_ofReports (history : List (Instant × Report)) (id s : String) :
    s ∈ users ((ofReports history).get? id)
      ↔ ∃ r ∈ history.map Prod.snd, r.serviceId = s ∧ id ∈ r.used := by
  -- by induction on the reports received, the last of them decides
  induction history using List.reverseRecOn with
  | nil => exact ⟨nofun, nofun⟩
  | append_singleton history h ih =>
      obtain ⟨now, r⟩ := h
      have hg := coherent_ofReports history
      have hlast : (∃ q ∈ (history ++ [(now, r)]).map Prod.snd, q.serviceId = s ∧ id ∈ q.used)
          ↔ (∃ q ∈ history.map Prod.snd, q.serviceId = s ∧ id ∈ q.used)
            ∨ r.serviceId = s ∧ id ∈ r.used := by
        simp only [List.map_append, List.mem_append, or_and_right, exists_or, List.map_singleton,
          List.mem_singleton, exists_eq_left]
      rw [ofReports_append, hlast, ← ih]
      -- it uses the id, writes it as something else, or leaves it alone
      by_cases hused : id ∈ r.used
      · obtain ⟨hwrites, c, target, -, hall⟩ := Report.exists_category hused
        obtain ⟨base, d, hget, -, hservices⟩ :=
          foldl_apply_usedIn now hwrites hall ((ofReports history).get? id)
        rw [Report.get?_receive hg, hget]
        show s ∈ d.services ↔ _
        rw [hservices, mem_withUser]
        constructor
        · rintro (rfl | h)
          · exact .inr ⟨rfl, hused⟩
          · exact .inl h
        · rintro (h | ⟨rfl, -⟩)
          · exact .inr h
          · exact .inl rfl
      · rw [or_iff_left fun h => hused h.2]
        by_cases hwrites : r.Writes id
        · -- an id written as another kind was never used before, as the kinds of ids differ
          obtain ⟨hnone, part, -, e, he, hshows⟩ :=
            (Report.used_or_shown hg now hwrites).resolve_left hused
          have hold : s ∉ users ((ofReports history).get? id) := by
            rw [ih]
            rintro ⟨q, -, -, hq⟩
            exact hnone q hq
          refine iff_of_false ?_ hold
          rw [he]
          obtain ⟨base, detail⟩ := e
          cases detail with
          | integration d => cases part <;> exact hshows.elim
          | _ => exact List.not_mem_nil
        · rw [Report.get?_receive_of_not_writes hg now hwrites]

/-! ## Lists -/

/-- The latest report with a property is the latest with a wider one that no later report has. -/
theorem Latest.imp {p p' : Report → Prop} {reports : List Report} {r : Report}
    (h : Latest p reports r) (hr : p' r) (hp : ∀ q, p' q → p q) : Latest p' reports r := by
  obtain ⟨front, rest, rfl, -, hrest⟩ := h
  exact ⟨front, rest, rfl, hr, fun q hq h => hrest q hq (hp q h)⟩

/-- There is one latest report. -/
theorem Latest.unique {p : Report → Prop} {reports : List Report} {r r' : Report}
    (h : Latest p reports r) (h' : Latest p reports r') : r = r' := by
  obtain ⟨front, rest, rfl, hr, hrest⟩ := h
  obtain ⟨front', rest', heq, hr', hrest'⟩ := h'
  -- of two in different places, the one in front has the other one behind it
  rcases List.append_eq_append_iff.1 heq with ⟨mid, rfl, hmid⟩ | ⟨mid, rfl, hmid⟩
  · cases mid with
    | nil => exact (List.cons.inj hmid).1
    | cons q mid =>
        obtain ⟨rfl, rfl⟩ := List.cons.inj hmid
        exact absurd hr' (hrest r' (List.mem_append_right _ List.mem_cons_self))
  · cases mid with
    | nil => exact (List.cons.inj hmid).1.symm
    | cons q mid =>
        obtain ⟨rfl, rfl⟩ := List.cons.inj hmid
        exact absurd hr (hrest' r (List.mem_append_right _ List.mem_cons_self))

/-- The latest report is one of the reports. -/
theorem Latest.mem {p : Report → Prop} {reports : List Report} {r : Report}
    (h : Latest p reports r) : r ∈ reports := by
  obtain ⟨front, rest, rfl, -, -⟩ := h
  exact List.mem_append_right _ List.mem_cons_self

/-- An entity that no report uses as an integration is as the latest report has it that writes
it. -/
theorem exists_latest (history : List (Instant × Report)) {id : String} {e : Entity}
    (he : (ofReports history).get? id = some e) (hused : ∀ q ∈ history.map Prod.snd, id ∉ q.used) :
    ∃ r, Latest (Report.Writes · id) (history.map Prod.snd) r
      ∧ ∃ part, (∃ s, Occurs r.name r.url? r.analysis part id s) ∧ r.Shows part e.detail := by
  induction history using List.reverseRecOn with
  | nil => exact nomatch he
  | append_singleton history h ih =>
      obtain ⟨now, r⟩ := h
      have hg := coherent_ofReports history
      rw [List.map_append] at hused ⊢
      obtain ⟨hfront, hlast⟩ := List.forall_mem_append.1 hused
      rw [ofReports_append] at he
      by_cases hwrites : r.Writes id
      · obtain ⟨-, part, hoccurs, e', he', hshows⟩ :=
          (Report.used_or_shown hg now hwrites).resolve_left (hlast r List.mem_cons_self)
        cases he.symm.trans he'
        exact ⟨r, latest_append_self hwrites _, part, hoccurs, hshows⟩
      · rw [Report.get?_receive_of_not_writes hg now hwrites] at he
        obtain ⟨q, hq, hpart⟩ := ih he hfront
        exact ⟨q, hq.append hwrites, hpart⟩

/-- How the lists of an entity stand to the relations of a graph that has received some reports. -/
structure Listed (g : Graph) (reports : List Report) (e : Entity) : Prop where
  service : ∀ d, e.detail = .service d →
    (∃ r, Latest (fun q => q.serviceId = e.id) reports r ∧ d.apis = r.exposed)
      ∧ ∀ t, g.hasRelation e.id t .exposes = true
        ↔ ∃ r ∈ reports, r.serviceId = e.id ∧ t ∈ r.exposed
  api : ∀ d, e.detail = .api d →
    (∃ r, Latest (fun q => e.id ∈ q.exposed) reports r ∧ d.endpoints = r.contained)
      ∧ ∀ t, g.hasRelation e.id t .contains = true
        ↔ ∃ r ∈ reports, r.apiId = e.id ∧ t ∈ r.contained
  integration : ∀ d, e.detail = .integration d →
    ∀ s, s ∈ d.services ↔ g.hasRelation s e.id .uses = true
  repository : ∀ d, e.detail = .repository d →
    ∀ t, t ∈ d.services ↔ g.hasRelation e.id t .contains = true

section
variable {history : List (Instant × Report)} {e : Entity}

/-- Of an entity that is no integration no report makes use. -/
theorem not_used_ofReports (he : (ofReports history).get? e.id = some e)
    (hdetail : ∀ d, e.detail ≠ .integration d) : ∀ q ∈ history.map Prod.snd, e.id ∉ q.used := by
  intro q hq hused
  have husers := (mem_users_ofReports history e.id q.serviceId).2 ⟨q, hq, rfl, hused⟩
  rw [he] at husers
  obtain ⟨base, detail⟩ := e
  cases detail with
  | integration d => exact hdetail d rfl
  | _ => exact List.not_mem_nil husers

/-- The service in the graph lists what the latest report for it exposes. -/
theorem service_ofReports (he : (ofReports history).get? e.id = some e) {d : Service}
    (hd : e.detail = .service d) :
    ∃ r, Latest (fun q => q.serviceId = e.id) (history.map Prod.snd) r ∧ d.apis = r.exposed := by
  obtain ⟨r, hlatest, part, ⟨s, hoccurs⟩, hshows⟩ :=
    exists_latest history he (not_used_ofReports he (by rw [hd]; exact nofun))
  rw [hd] at hshows
  cases part with
  | service =>
      refine ⟨r, hlatest.imp ?_ fun q hq => hq ▸ Report.writes_serviceId q, hshows⟩
      generalize e.id = id at hoccurs
      cases hoccurs <;> rfl
  | _ => exact hshows.elim

/-- The interface in the graph lists what the latest report that exposes it contains. -/
theorem api_ofReports (he : (ofReports history).get? e.id = some e) {d : Api}
    (hd : e.detail = .api d) :
    ∃ r, Latest (fun q => e.id ∈ q.exposed) (history.map Prod.snd) r
      ∧ d.endpoints = r.contained := by
  obtain ⟨r, hlatest, part, ⟨s, hoccurs⟩, hshows⟩ :=
    exists_latest history he (not_used_ofReports he (by rw [hd]; exact nofun))
  rw [hd] at hshows
  cases part with
  | api =>
      refine ⟨r, hlatest.imp ?_ fun q => Report.writes_exposed, hshows⟩
      generalize e.id = id at hoccurs
      cases hoccurs with
      | api hne => exact Report.mem_exposed.2 ⟨hne, rfl⟩
  | _ => exact hshows.elim

/-- The repository in the graph lists the service of its report. -/
theorem repository_ofReports (he : (ofReports history).get? e.id = some e) {d : Repository}
    (hd : e.detail = .repository d) :
    ∃ r ∈ history.map Prod.snd, r.repositoryId = e.id ∧ d.services = [r.serviceId] := by
  obtain ⟨r, hlatest, part, ⟨s, hoccurs⟩, hshows⟩ :=
    exists_latest history he (not_used_ofReports he (by rw [hd]; exact nofun))
  rw [hd] at hshows
  cases part with
  | repository =>
      refine ⟨r, hlatest.mem, ?_, hshows⟩
      generalize e.id = id at hoccurs
      cases hoccurs
      rfl
  | _ => exact hshows.elim

end

/-- However often a graph that was empty has received reports, and whatever stands in them: the list
of a service and of an interface is that of the latest report that has it, while its relations are
those of all reports, as none is ever taken back; the lists of integrations and of repositories
agree with the relations. -/
theorem lists_of_reports (history : List (Instant × Report)) {e : Entity}
    (he : e ∈ (ofReports history).entities) :
    Listed (ofReports history) (history.map Prod.snd) e := by
  have hget := (coherent_ofReports history).get?_eq_some_iff_mem.2 ⟨he, rfl⟩
  refine ⟨fun d hd => ⟨service_ofReports hget hd, fun t => ?_⟩,
    fun d hd => ⟨api_ofReports hget hd, fun t => ?_⟩, fun d hd s => ?_, fun d hd t => ?_⟩
  · -- for each kind that carries a list: the list against the relations, report by report
    rw [hasRelation_ofReports history (by decide : RelationType.exposes ≠ .dependsOn)]
    refine exists_congr fun r => and_congr_right fun _ => ?_
    rw [Report.has_exposes, eq_comm]
  · obtain ⟨r, hlatest, -⟩ := api_ofReports hget hd
    obtain ⟨-, -, -, hr, -⟩ := hlatest
    obtain ⟨-, hid⟩ := Report.mem_exposed.1 hr
    rw [hasRelation_ofReports history (by decide : RelationType.contains ≠ .dependsOn)]
    refine exists_congr fun q => and_congr_right fun _ => ?_
    rw [Report.has_contains, eq_comm (a := q.apiId)]
    exact or_iff_right fun h => Report.apiId_ne_repositoryId _ _ (hid.symm.trans h.1)
  · have husers := mem_users_ofReports history e.id s
    obtain ⟨base, detail⟩ := e
    subst hd
    rw [hget] at husers
    rw [hasRelation_ofReports history (by decide : RelationType.uses ≠ .dependsOn)]
    refine husers.trans (exists_congr fun r => and_congr_right fun _ => ?_)
    rw [Report.has_uses, eq_comm]
  · obtain ⟨r, hr, hid, hservices⟩ := repository_ofReports hget hd
    rw [hasRelation_ofReports history (by decide : RelationType.contains ≠ .dependsOn), hservices,
      List.mem_singleton]
    constructor
    · rintro rfl
      exact ⟨r, hr, Report.has_contains.2 (.inl ⟨hid.symm, rfl⟩)⟩
    · rintro ⟨q, -, hq⟩
      -- the id of a repository is not that of an interface, so only the first kind is left
      rcases Report.has_contains.1 hq with ⟨hrepository, rfl⟩ | ⟨hapi, -⟩
      · have hslug := (append_colon_inj (by decide) (by decide) (hid.trans hrepository)).2
        exact congrArg ("service:" ++ ·) hslug.symm
      · exact absurd (hapi.symm.trans hid.symm) (Report.apiId_ne_repositoryId _ _)

/-- An interface whose only endpoint has moved lists the new one and contains both. -/
theorem lists_of_reports_moved :
    let shop := fun path : String => ({
      name := "Shop"
      analysis := { endpoints := [{ method := "GET", path, file := "a.py", line := 1 }] } } :
        Report)
    let g := ofReports [(⟨1, 0⟩, shop "/old"), (⟨2, 0⟩, shop "/new")]
    ∃ e ∈ g.entities, ∃ d, e.detail = .api d ∧ d.endpoints = (shop "/new").contained
      ∧ ∀ t, g.hasRelation e.id t .contains = true
        ↔ t ∈ (shop "/old").contained ∨ t ∈ (shop "/new").contained := by
  intro shop g
  have hold := coherent_ofReports [(⟨1, 0⟩, shop "/old")]
  have hg := coherent_ofReports [(⟨1, 0⟩, shop "/old"), (⟨2, 0⟩, shop "/new")]
  have hexposed : (shop "/new").apiId ∈ (shop "/new").exposed := List.mem_cons_self
  obtain ⟨base, d, hget, hd⟩ := Report.exists_interface hold ⟨2, 0⟩ hexposed
  obtain ⟨hmem, hid⟩ := hg.get?_eq_some_iff_mem.1 hget
  obtain ⟨-, hcontains⟩ := (lists_of_reports _ hmem).api d rfl
  refine ⟨_, hmem, d, rfl, hd, fun t => (hcontains t).trans ?_⟩
  rw [hid]
  constructor
  · rintro ⟨r, hr, -, ht⟩
    rcases List.mem_cons.1 hr with rfl | hr
    · exact .inl ht
    · rcases List.mem_cons.1 hr with rfl | hr
      · exact .inr ht
      · exact nomatch hr
  · rintro (ht | ht)
    · exact ⟨shop "/old", List.mem_cons_self, rfl, ht⟩
    · exact ⟨shop "/new", List.mem_cons_of_mem _ List.mem_cons_self, rfl, ht⟩

/-- A service that has lost its endpoints still has the relation to its interface, which it does not
list any more. -/
theorem lists_disagree :
    let shop := fun endpoints : List CodeAtlas.Endpoint =>
      ({ name := "shop", analysis := { endpoints } } : Report)
    let g :=
      ofReports [(⟨1, 0⟩, shop [{ method := "GET", path := "/a", file := "a.py", line := 1 }]),
        (⟨2, 0⟩, shop [])]
    ∃ e ∈ g.entities, ∃ d, e.detail = .service d ∧ d.apis = []
      ∧ g.hasRelation e.id "api:shop" .exposes = true := by
  intro shop g
  let old := shop [{ method := "GET", path := "/a", file := "a.py", line := 1 }]
  have hold := coherent_ofReports [(⟨1, 0⟩, old)]
  have hg := coherent_ofReports [(⟨1, 0⟩, old), (⟨2, 0⟩, shop [])]
  obtain ⟨base, d, hget, hd⟩ := Report.exists_service hold ⟨2, 0⟩ (shop [])
  obtain ⟨hmem, hid⟩ := hg.get?_eq_some_iff_mem.1 hget
  have hslug : slugify "shop" = "shop" := by
    rw [slugify_of_printed (by decide)]
    decide
  have hexposed : "api:shop" ∈ old.exposed := by
    refine Report.mem_exposed.2 ⟨nofun, ?_⟩
    rw [Report.apiId, hslug]
    rfl
  refine ⟨_, hmem, d, rfl, hd, ?_⟩
  rw [hid, hasRelation_ofReports _ (by decide : RelationType.exposes ≠ .dependsOn)]
  exact ⟨old, List.mem_cons_self, Report.has_exposes.2 ⟨rfl, hexposed⟩⟩

end CodeAtlas.Graph
