import CodeAtlas.Proofs.Graph.Report

/-!
# The order of reports

Two services with different slugs share few ids. Under all others it does not matter whose report
comes first. An integration that both use is used by both in the end; the resource under an address
that both have is that of the later report. The relations are the same but for those from a resource
of one service to one that only the other service has: they are added only if that one is there
already.
-/

namespace CodeAtlas.Graph

open Step

variable {g : Graph} {a b : Report} {id : String}

/-! ## The ids that two services share -/

/-- Whether the reports of two services may both write an id. -/
inductive Shared (a b : Report) (id : String) : Prop
  | integration (ha : id ∈ a.used) (hb : id ∈ b.used)
  | resource (ha : id ∈ a.resourceIds) (hb : id ∈ b.resourceIds)
  | schema {x y : String} (ha : id = "schema:" ++ (slugify a.name ++ "." ++ x))
      (hb : id = "schema:" ++ (slugify b.name ++ "." ++ y))

namespace Report

/-- A step at a resource belongs to one of the report. -/
theorem mem_resourceIds_of_occurs {r : Report} {s : Step}
    (h : Occurs r.name r.url? r.analysis .resource id s) : id ∈ r.resourceIds := by
  cases h with
  | resource hd hr =>
      rw [resourceIds, hd]
      exact List.mem_map_of_mem hr

/-- Services with different slugs share integrations, resources and schemas only. -/
theorem shared_of_writes (hslug : slugify a.name ≠ slugify b.name) (ha : a.Writes id)
    (hb : b.Writes id) : Shared a b id := by
  obtain ⟨s, hs⟩ := List.exists_mem_of_ne_nil _ ha
  obtain ⟨s', hs'⟩ := List.exists_mem_of_ne_nil _ hb
  obtain ⟨part, h⟩ := occurs_of_mem hs
  obtain ⟨part', h'⟩ := occurs_of_mem hs'
  obtain rfl : part = part' := h.part_eq h'
  rcases h.shared h' hslug with rfl | rfl | ⟨rfl, x, y, hx, hy⟩
  · exact .integration (mem_used_of_occurs h) (mem_used_of_occurs h')
  · exact .resource (mem_resourceIds_of_occurs h) (mem_resourceIds_of_occurs h')
  · exact .schema hx hy

/-- What only one of two services writes does not depend on their order. -/
theorem undated_of_not_writes (hg : g.Coherent) (t t' u u' : Instant) (hb : ¬ b.Writes id) :
    (((g.receive t a).receive t' b).get? id).map Entity.undated
      = (((g.receive u b).receive u' a).get? id).map Entity.undated := by
  rw [get?_receive_of_not_writes (coherent_receive hg t a) t' hb, get?_receive hg,
    get?_receive (coherent_receive hg u b), get?_receive_of_not_writes hg u hb]
  exact undated_foldl_apply t u' _ _

/-- An integration that two services use is used by both, whoever comes first. -/
theorem exists_integration (hg : g.Coherent) (t t' : Instant) (ha : id ∈ a.used)
    (hb : id ∈ b.used) :
    ∃ base d, ((g.receive t a).receive t' b).get? id = some ⟨base, .integration d⟩
      ∧ (∃ c : EffectCategory, (∃ target, id = entityId .integration (c.label ++ "-" ++ target))
        ∧ Entity.unused base d = frame id c.label (g.get? id))
      ∧ d.services = withUser b.serviceId (withUser a.serviceId (users (g.get? id))) := by
  obtain ⟨hawrites, c, target, hid, hausers⟩ := exists_category ha
  obtain ⟨hbwrites, c', -, -, hbusers⟩ := exists_category hb
  obtain ⟨base, d, hget, hframe, hservices⟩ := foldl_apply_usedIn t hawrites hausers (g.get? id)
  obtain ⟨base', d', hget', hframe', hservices'⟩ :=
    foldl_apply_usedIn t' hbwrites hbusers (some ⟨base, .integration d⟩)
  rw [← get?_receive hg] at hget
  rw [← hget, ← get?_receive (coherent_receive hg t a)] at hget'
  refine ⟨base', d', hget', ⟨c, ⟨target, hid⟩, hframe'.trans hframe⟩, hservices'.trans ?_⟩
  rw [users, hservices]

/-- A resource of the report is renewed by a step at its id. -/
theorem exists_renew_resource {r : Report} (h : id ∈ r.resourceIds) :
    ∃ d, .renew d ∈ r.stepsAt id ∧ Occurs r.name r.url? r.analysis .resource id (.renew d) := by
  rw [resourceIds] at h
  cases hd : r.analysis.infrastructure with
  | none =>
      rw [hd] at h
      cases h
  | some d =>
      rw [hd] at h
      obtain ⟨x, hx, rfl⟩ := List.mem_map.1 h
      refine ⟨_, mem_stepsAt ?_ rfl, .resource hd hx⟩
      rw [mainSteps, hd]
      refine List.mem_append_right _ (List.mem_append_right _ (List.mem_append_right _
        (List.mem_append_right _ (List.mem_flatMap.2 ⟨x, hx, ?_⟩))))
      exact List.mem_cons_self

/-- A resource is that of the last report that has it. -/
theorem undated_resource (hg : g.Coherent) (t t' u : Instant) (hb : id ∈ b.resourceIds) :
    (((g.receive t a).receive t' b).get? id).map Entity.undated
      = ((g.receive u b).get? id).map Entity.undated := by
  obtain ⟨d, hd, -⟩ := exists_renew_resource hb
  rw [get?_receive (coherent_receive hg t a), get?_receive hg u]
  exact undated_of_renew t' u _ _ hd

/-- A resource belongs to the service of the last report that has it. -/
theorem owner_of_resource (hg : g.Coherent) (t : Instant) {r : Report} (h : id ∈ r.resourceIds) :
    ((g.receive t r).get? id).bind Entity.schema? >>= (·.serviceId) = some r.serviceId := by
  have hpart : Part.resource ≠ .integration := nofun
  obtain ⟨d, hd, hoccurs⟩ := exists_renew_resource h
  obtain ⟨⟨base, detail⟩, he, hshows⟩ := exists_shown hg t hpart hd hoccurs
  rw [he]
  cases detail with
  | schema d => exact hshows
  | _ => exact hshows.elim

/-- Behind a report a resource is there if it was there before or the report has it. -/
theorem contains_receive (hg : g.Coherent) (t : Instant) (r : Report) (x : String) :
    (g.receive t r).contains ("infra:" ++ x) = true
      ↔ g.contains ("infra:" ++ x) = true ∨ "infra:" ++ x ∈ r.resourceIds := by
  constructor
  · intro h
    by_cases hwrites : r.Writes ("infra:" ++ x)
    · obtain ⟨s, hs⟩ := List.exists_mem_of_ne_nil _ hwrites
      obtain ⟨part, hoccurs⟩ := occurs_of_mem hs
      obtain ⟨rest, hid, -⟩ := hoccurs.exists_id_eq
      obtain rfl : .resource = part := Part.label_inj (append_colon_inj
        Part.resource.colon_not_mem_label part.colon_not_mem_label hid).1
      exact .inr (mem_resourceIds_of_occurs hoccurs)
    · rw [(coherent_receive hg t r).contains_iff, get?_receive_of_not_writes hg t hwrites] at h
      exact .inl (hg.contains_iff.2 h)
  · rintro (h | h)
    · rw [receive_eq]
      exact contains_runAll hg t r.script h
    · have hpart : Part.resource ≠ .integration := nofun
      obtain ⟨d, hd, hoccurs⟩ := exists_renew_resource h
      obtain ⟨e, he, -⟩ := exists_shown hg t hpart hd hoccurs
      exact (coherent_receive hg t r).contains_iff.2 ⟨e, he⟩

/-! ## Relations -/

/-- The notes of the relations of a type. -/
def notesOf : RelationType → Metadata
  | .dependsOn => [("source", "terraform")]
  | _ => []

/-- The metadata of a link are told by its type. -/
theorem metadata_of_mem_links {r : Report} {q : Relation} (h : q ∈ r.links) :
    q.metadata = notesOf q.type := by
  cases relates_of_mem_links h <;> rfl

/-- The metadata of a dependency are told by its type. -/
theorem metadata_of_mem_dependencies {r : Report} {q : Relation} (h : q ∈ r.dependencies) :
    q.metadata = notesOf q.type := by
  obtain ⟨_, _, -, rfl⟩ := exists_of_mem_dependencies h
  rfl

/-- A relation to what a resource depends on is none of the others. -/
theorem not_mem_links {r r' : Report} {q : Relation} (h : q ∈ r.dependencies) : q ∉ r'.links := by
  have htype : ∀ {q : Relation}, q ∈ r'.links → q.type ≠ .dependsOn := by
    intro q hq
    cases relates_of_mem_links hq <;> exact nofun
  obtain ⟨_, _, -, rfl⟩ := exists_of_mem_dependencies h
  exact fun hlink => htype hlink rfl

/-- The relations of reports are determined by their keys. -/
theorem eq_of_key {q q' : Relation} (h : q.metadata = notesOf q.type)
    (h' : q'.metadata = notesOf q'.type) (hkey : q.key = q'.key) : q = q' := by
  obtain ⟨source, target, type, metadata⟩ := q
  obtain ⟨source', target', type', metadata'⟩ := q'
  obtain ⟨rfl, hkey⟩ := Prod.mk.injEq .. ▸ hkey
  obtain ⟨rfl, rfl⟩ := Prod.mk.injEq .. ▸ hkey
  obtain rfl : metadata = metadata' := h.trans h'.symm
  rfl

/-- What a resource depends on is related to it if it is there in the end. -/
theorem hasEnds_receive (hg : g.Coherent) (t : Instant) {r : Report} {q : Relation}
    (h : q ∈ r.dependencies) :
    hasEnds (g.receive t r) q = true ↔ g.contains q.target = true ∨ q.target ∈ r.resourceIds := by
  obtain ⟨source, x, hsource, rfl⟩ := exists_of_mem_dependencies h
  obtain ⟨y, -, rfl⟩ := List.mem_map.1 hsource
  have hends := (contains_receive hg t r y.address).2 (.inr hsource)
  rw [hasEnds, hends, Bool.true_and, contains_receive hg]

/-- The relations that are added when a graph receives the first report and then the second. -/
def Added (g : Graph) (a b : Report) (q : Relation) : Prop :=
  (q ∈ a.links ∨ q ∈ b.links)
    ∨ (q ∈ a.dependencies ∧ (g.contains q.target = true ∨ q.target ∈ a.resourceIds))
    ∨ (q ∈ b.dependencies ∧ ((g.contains q.target = true ∨ q.target ∈ a.resourceIds)
      ∨ q.target ∈ b.resourceIds))

/-- The relations behind two reports are those added by one of them, and the others that were
there. -/
theorem mem_relations_receive (hg : g.Coherent) (t t' : Instant) (a b : Report) {q : Relation} :
    q ∈ ((g.receive t a).receive t' b).relations
      ↔ Added g a b q ∨ q ∈ g.relations ∧ ∀ x, Added g a b x → x.key ≠ q.key := by
  have ha := coherent_receive hg t a
  -- the relations of both reports that are added, in order, kept last by key
  let added := (a.links ++ a.dependencies.filter (hasEnds (g.receive t a)))
    ++ (b.links ++ b.dependencies.filter (hasEnds ((g.receive t a).receive t' b)))
  have hrelations : ((g.receive t a).receive t' b).relations
      = Keyed.union Relation.key Keyed.last g.relations added := by
    rw [relations_receive ha, relations_receive hg, Keyed.union, Keyed.union, Keyed.union,
      ← List.foldl_append]
  -- the first report sees its own resources only, the second those of both
  have hadded : ∀ x, x ∈ added ↔ Added g a b x := by
    intro x
    have hfirst : x ∈ a.dependencies.filter (hasEnds (g.receive t a)) ↔ x ∈ a.dependencies
        ∧ (g.contains x.target = true ∨ x.target ∈ a.resourceIds) := by
      rw [List.mem_filter]
      exact and_congr_right fun hx => hasEnds_receive hg t hx
    have hsecond : x ∈ b.dependencies.filter (hasEnds ((g.receive t a).receive t' b))
        ↔ x ∈ b.dependencies ∧ ((g.contains x.target = true ∨ x.target ∈ a.resourceIds)
          ∨ x.target ∈ b.resourceIds) := by
      rw [List.mem_filter]
      refine and_congr_right fun hx => ?_
      rw [hasEnds_receive ha t' hx]
      obtain ⟨_, y, -, rfl⟩ := exists_of_mem_dependencies hx
      rw [contains_receive hg]
    rw [List.mem_append, List.mem_append, List.mem_append, hfirst, hsecond]
    exact or_or_or_comm
  -- two relations of one key carry the same notes, so it does not matter which is kept
  have hnotes : ∀ x ∈ added, x.metadata = notesOf x.type := by
    intro x hx
    rcases (hadded x).1 hx with (hx | hx) | ⟨hx, -⟩ | ⟨hx, -⟩
    · exact metadata_of_mem_links hx
    · exact metadata_of_mem_links hx
    · exact metadata_of_mem_dependencies hx
    · exact metadata_of_mem_dependencies hx
  rw [hrelations, Keyed.mem_union_last_iff hg.relation_keys_nodup
    fun x hx y hy => eq_of_key (hnotes x hx) (hnotes y hy), hadded, List.mem_map]
  refine or_congr_right (and_congr_right fun _ => ?_)
  simp only [hadded, not_exists, not_and]

/-- A relation from a resource of one report to one that is only there once the other report is. -/
structure Crosses (g : Graph) (a b : Report) (q : Relation) : Prop where
  mem : q ∈ a.dependencies
  not_mem : q ∉ b.dependencies
  absent : ¬ g.contains q.target = true
  not_own : q.target ∉ a.resourceIds
  other : q.target ∈ b.resourceIds

/-- A relation that does not cross is added in the other order too. -/
theorem Added.comm {q : Relation} (h : ¬ Crosses g b a q) (hq : Added g a b q) : Added g b a q := by
  rcases hq with hq | ⟨hq, hpresent⟩ | ⟨hq, (hthere | ha) | hb⟩
  · exact .inl hq.symm
  · refine .inr (.inr ⟨hq, ?_⟩)
    exact hpresent.imp_left .inl
  · exact .inr (.inl ⟨hq, .inl hthere⟩)
  · -- its target is there only because of the first report
    by_cases hother : q ∈ a.dependencies
    · exact .inr (.inr ⟨hother, .inr ha⟩)
    · by_cases hpresent : g.contains q.target = true ∨ q.target ∈ b.resourceIds
      · exact .inr (.inl ⟨hq, hpresent⟩)
      · obtain ⟨habsent, hown⟩ := not_or.1 hpresent
        exact absurd ⟨hq, hother, habsent, hown, ha⟩ h
  · exact .inr (.inl ⟨hq, .inr hb⟩)

/-- A relation that does not cross is there in the other order too. -/
theorem mem_relations_comm (hg : g.Coherent) (t t' u u' : Instant) {q : Relation}
    (h : ¬ Crosses g b a q) (hq : q ∈ ((g.receive t a).receive t' b).relations) :
    q ∈ ((g.receive u b).receive u' a).relations := by
  rw [mem_relations_receive hg] at hq ⊢
  rcases hq with hq | ⟨hq, hnone⟩
  · exact .inl (hq.comm h)
  · refine .inr ⟨hq, fun x hx hkey => ?_⟩
    -- a relation with the key of one of the graph does not cross
    have hthere : g.contains x.target = true := by
      obtain ⟨-, htarget⟩ := hg.contains_ends hq
      have htargets : x.target = q.target := congrArg (·.2.1) hkey
      rwa [htargets]
    exact hnone x (hx.comm fun hcross => hcross.absent hthere) hkey

/-- Relations that cross are there if the report that has the target came first. -/
theorem mem_relations_of_crosses (hg : g.Coherent) (t t' u u' : Instant) {q : Relation}
    (h : Crosses g a b q) : q ∉ ((g.receive t a).receive t' b).relations
      ∧ q ∈ ((g.receive u b).receive u' a).relations := by
  rw [mem_relations_receive hg, mem_relations_receive hg]
  constructor
  · rintro (((hq | hq) | ⟨-, hpresent⟩ | ⟨hq, -⟩) | ⟨hq, -⟩)
    · exact not_mem_links h.mem hq
    · exact not_mem_links h.mem hq
    · exact hpresent.elim h.absent h.not_own
    · exact h.not_mem hq
    · exact h.absent (hg.contains_ends hq).2
  · exact .inl (.inr (.inr ⟨h.mem, .inl (.inr h.other)⟩))

end Report

open Report

/-! ## Two services -/

/-- For the reports of two services with different slugs. What the later report does not write is as
the earlier one left it, and what not both of them write is the same in both orders but for times.
Both write only integrations that both use, resources that both have, and schemas of models whose
ids start with both slugs. A shared integration has the same users in both orders, those of before
and both services; it differs in its name, its times, its provider and its operations only. A shared
resource is that of the later report. A relation is there in both orders or in none, but for the one
from a resource to one that only the other report has: it is there only if that report came
first. -/
theorem receive_comm (hg : Reachable g) (hslug : slugify a.name ≠ slugify b.name)
    (t t' u u' : Instant) :
    let ab := (g.receive t a).receive t' b
    let ba := (g.receive u b).receive u' a
    (∀ id, ¬ b.Writes id → ab.get? id = (g.receive t a).get? id)
    ∧ (∀ id, ¬ (a.Writes id ∧ b.Writes id) →
        (ab.get? id).map Entity.undated = (ba.get? id).map Entity.undated)
    ∧ (∀ id, a.Writes id → b.Writes id → Shared a b id)
    ∧ (∀ id ∈ a.used, id ∈ b.used → ∃ base d base' d', ab.get? id = some ⟨base, .integration d⟩
        ∧ ba.get? id = some ⟨base', .integration d'⟩
        ∧ Entity.unused base d = Entity.unused base' d' ∧ d.services.Perm d'.services
        ∧ ∀ s, s ∈ d.services ↔ s = a.serviceId ∨ s = b.serviceId ∨ s ∈ users (g.get? id))
    ∧ (∀ id ∈ b.resourceIds,
        (ab.get? id).map Entity.undated = ((g.receive u b).get? id).map Entity.undated)
    ∧ (∀ q, ¬ Crosses g a b q → ¬ Crosses g b a q → (q ∈ ab.relations ↔ q ∈ ba.relations))
    ∧ ∀ q, Crosses g a b q → q ∉ ab.relations ∧ q ∈ ba.relations := by
  have hg := hg.coherent
  intro ab ba
  refine ⟨?_, ?_, fun id => shared_of_writes hslug, ?_, ?_, ?_, ?_⟩
  · intro id hb
    exact get?_receive_of_not_writes (coherent_receive hg t a) t' hb
  · intro id hnot
    by_cases ha : a.Writes id
    · exact undated_of_not_writes hg t t' u u' fun hb => hnot ⟨ha, hb⟩
    · exact (undated_of_not_writes hg u u' t t' ha).symm
  · -- an integration both use: the frame is that of the category, the services come in either order
    intro id ha hb
    obtain ⟨base, d, hget, ⟨c, ⟨target, hid⟩, hframe⟩, hservices⟩ :=
      exists_integration hg t t' ha hb
    obtain ⟨base', d', hget', ⟨c', ⟨target', hid'⟩, hframe'⟩, hservices'⟩ :=
      exists_integration hg u u' hb ha
    refine ⟨base, d, base', d', hget, hget', ?_, ?_, fun s => ?_⟩
    · rw [hframe, hframe', category_eq (hid.symm.trans hid')]
    · rw [hservices, hservices']
      exact withUser_perm ..
    · rw [hservices, mem_withUser, mem_withUser, or_left_comm]
  · exact fun id hb => undated_resource hg t t' u hb
  · exact fun q h h' => ⟨mem_relations_comm hg t t' u u' h', mem_relations_comm hg u u' t t' h⟩
  · exact fun q h => mem_relations_of_crosses hg t t' u u' h

/-- Two services that query and fill one database; a bucket of the one depends on a key of the
other. -/
theorem receive_comm_shared :
    let resource := fun (address : String) (dependencies : List String) => ({
      address, resourceType := "", name := "", kind := "resource", file := "main.tf", line := 1
      dependencies } : Infra.Resource)
    let report := fun (name operation : String) (resources : List Infra.Resource) => ({
      name
      analysis := {
        sideEffects := [{
          category := .database, operation, target := some "users", file := "a.py", line := 1 }]
        infrastructure := some { resources } } } : Report)
    let shop := report "shop" "query" [resource "bucket" ["key"]]
    let cart := report "cart" "insert" [resource "key" []]
    let ab := (empty.receive ⟨1, 0⟩ shop).receive ⟨2, 0⟩ cart
    let ba := (empty.receive ⟨1, 0⟩ cart).receive ⟨2, 0⟩ shop
    let id := entityId .integration "database-users"
    let q : Relation := ⟨"infra:bucket", "infra:key", .dependsOn, [("source", "terraform")]⟩
    (∃ base d base' d', ab.get? id = some ⟨base, .integration d⟩
        ∧ ba.get? id = some ⟨base', .integration d'⟩ ∧ d.services.Perm d'.services
        ∧ shop.serviceId ∈ d.services ∧ cart.serviceId ∈ d.services)
      ∧ q ∉ ab.relations ∧ q ∈ ba.relations := by
  intro resource report shop cart ab ba id q
  have hslug : slugify "shop" ≠ slugify "cart" := by
    rw [slugify_of_printed (by decide), slugify_of_printed (by decide)]
    decide
  have hused : ∀ name operation resources, id ∈ (report name operation resources).used :=
    fun _ _ _ => mem_used.2 ⟨_, List.mem_cons_self, "users", rfl, rfl⟩
  have hcross : Crosses empty shop cart q :=
    ⟨List.mem_cons_self, List.not_mem_nil, Bool.false_ne_true, by decide, List.mem_cons_self⟩
  obtain ⟨-, -, -, hintegration, -, -, hrelations⟩ :=
    receive_comm (a := shop) (b := cart) .empty hslug ⟨1, 0⟩ ⟨2, 0⟩ ⟨1, 0⟩ ⟨2, 0⟩
  obtain ⟨base, d, base', d', hab, hba, -, hperm, hmem⟩ :=
    hintegration id (hused _ _ _) (hused _ _ _)
  exact ⟨⟨base, d, base', d', hab, hba, hperm, (hmem _).2 (.inl rfl), (hmem _).2 (.inr (.inl rfl))⟩,
    hrelations q hcross⟩

/-- Under an address that two services have there is the resource of the one that came last. -/
theorem owner_of_resource_twice :
    let report := fun name : String => ({
      name
      analysis := {
        infrastructure := some { resources := [{
          address := "bucket", resourceType := "", name := "", kind := "resource", file := "main.tf"
          line := 1 }] } } } : Report)
    let ab := (empty.receive ⟨1, 0⟩ (report "shop")).receive ⟨2, 0⟩ (report "cart")
    let ba := (empty.receive ⟨1, 0⟩ (report "cart")).receive ⟨2, 0⟩ (report "shop")
    slugify "shop" ≠ slugify "cart"
      ∧ ((ab.get? "infra:bucket").bind Entity.schema? >>= (·.serviceId)) = some "service:cart"
      ∧ ((ba.get? "infra:bucket").bind Entity.schema? >>= (·.serviceId)) = some "service:shop" := by
  intro report ab ba
  have hshop : slugify "shop" = "shop" := by
    rw [slugify_of_printed (by decide)]
    decide
  have hcart : slugify "cart" = "cart" := by
    rw [slugify_of_printed (by decide)]
    decide
  have hmem : ∀ name, "infra:bucket" ∈ (report name).resourceIds := fun _ => List.mem_cons_self
  refine ⟨by rw [hshop, hcart]; decide, ?_, ?_⟩
  · rw [owner_of_resource (coherent_receive coherent_empty _ _) _ (hmem "cart"),
      serviceId, entityId, hcart]
    rfl
  · rw [owner_of_resource (coherent_receive coherent_empty _ _) _ (hmem "shop"),
      serviceId, entityId, hshop]
    rfl

end CodeAtlas.Graph
