import CodeAtlas.Proofs.Graph.Endpoints
import CodeAtlas.Proofs.Graph.Integrations
import CodeAtlas.Proofs.Graph.Schemas
import Mathlib.Data.Set.Card

/-!
# What a summary counts

A summary takes its numbers from what a report is made of: the names of its models, its endpoints
without repetitions, the groups of its side effects and its resources. Every written entity belongs
to one part of the service, so the entities of a part are counted by the ids that the report has for
it. Where these ids repeat, or where names do though the ids differ, the two numbers are not the
same.
-/

namespace CodeAtlas.Graph

open Step

/-! ## Numbers of different members -/

section
variable {α : Type} [DecidableEq α] (l : List α)

/-- The items of a list are as many as those of its finite set. -/
theorem encard_setOf_mem : {a | a ∈ l}.encard = l.toFinset.card := by
  rw [← Set.encard_coe_eq_coe_finsetCard, List.coe_toFinset]

/-- The items of a list are at most as many as its length. -/
theorem encard_setOf_mem_le : {a | a ∈ l}.encard ≤ l.length := by
  rw [encard_setOf_mem, Nat.cast_le]
  exact l.toFinset_card_le

/-- A list has as many different members as it is long if none comes twice. -/
theorem encard_setOf_mem_eq_length_iff : {a | a ∈ l}.encard = l.length ↔ l.Nodup := by
  rw [encard_setOf_mem, Nat.cast_inj]
  exact Multiset.toFinset_card_eq_card_iff_nodup

end

/-- Members that are new are put in front. -/
theorem nodup_foldl_new {α : Type} [DecidableEq α] (l found : List α) (h : found.Nodup) :
    (l.foldl (fun l a => if l.contains a then l else a :: l) found).Nodup
      ∧ ∀ a, a ∈ l.foldl (fun l a => if l.contains a then l else a :: l) found
        ↔ a ∈ found ∨ a ∈ l := by
  induction l generalizing found with
  | nil => exact ⟨h, fun a => (or_iff_left List.not_mem_nil).symm⟩
  | cons b rest ih =>
      rw [List.foldl_cons]
      split
      · next hb =>
        have hb : b ∈ found := List.contains_iff_mem.1 hb
        obtain ⟨hnodup, hmem⟩ := ih found h
        refine ⟨hnodup, fun a => (hmem a).trans ?_⟩
        rw [List.mem_cons, ← or_assoc]
        exact or_congr_left (or_iff_left_of_imp fun ha => ha ▸ hb).symm
      · next hb =>
        have hb : b ∉ found := fun h => hb (List.contains_iff_mem.2 h)
        obtain ⟨hnodup, hmem⟩ := ih (b :: found) (List.nodup_cons.2 ⟨hb, h⟩)
        refine ⟨hnodup, fun a => (hmem a).trans ?_⟩
        rw [List.mem_cons, List.mem_cons, ← or_assoc, or_comm (a := a = b)]

/-- No two endpoints that are kept have one id. -/
theorem nodup_map_snd_endpointIds (slug : String) (seen : List String)
    (endpoints : List CodeAtlas.Endpoint) :
    ((endpointIds slug seen endpoints).map Prod.snd).Nodup := by
  induction endpoints generalizing seen with
  | nil => exact List.nodup_nil
  | cons e rest ih =>
      rw [endpointIds]
      split
      · exact ih seen
      · rw [List.map_cons, List.nodup_cons]
        refine ⟨fun hmem => ?_, ih _⟩
        obtain ⟨⟨f, id⟩, hf, rfl⟩ := List.mem_map.1 hmem
        exact (mem_endpointIds.1 hf).1 List.mem_cons_self

/-- The categories and targets of groups are different. -/
theorem nodup_map_fst_groupedEffects (effects : List SideEffect) :
    ((groupedEffects effects).map Prod.fst).Nodup := by
  have hunique : ∀ (keys l : List (String × String)), l.Nodup →
      (keys.foldl (fun l k => if l.contains k then l else l ++ [k]) l).Nodup := by
    intro keys
    induction keys with
    | nil => exact fun _ hl => hl
    | cons k rest ih =>
        intro l hl
        rw [List.foldl_cons]
        refine ih _ ?_
        split
        · exact hl
        · next hk => exact List.concat_eq_append ▸ hl.concat fun h => hk (List.contains_iff_mem.2 h)
  have hkeys : ∀ {f : String × String → List String} (l : List (String × String)),
      (l.map fun k => (k, f k)).map Prod.fst = l := by
    intro f l
    rw [List.map_map]
    exact List.map_id l
  rw [groupedEffects, hkeys]
  exact (List.mergeSort_perm _ _).nodup_iff.2 (hunique _ [] List.nodup_nil)

/-! ## Entities of the parts -/

/-- The part of a service that an entity with these details is. A schema says by its type whether it
was made of a model or of a resource. -/
def Detail.part? : Detail → Option Part
  | .service _ => some .service
  | .repository _ => some .repository
  | .api _ => some .api
  | .endpoint _ => some .endpoint
  | .integration _ => some .integration
  | .schema d =>
      if d.schemaType = "model" then some .schema
      else if d.schemaType = "infrastructure" then some .resource else none
  | _ => none

namespace Step

variable {now : Instant}

/-- What steps make of an entity that was changed now was changed now. -/
theorem updatedAt_foldl_onto {e : Entity} (h : e.base.updatedAt = now) (steps : List Step) :
    (steps.foldl (onto now) e).base.updatedAt = now := by
  induction steps generalizing e with
  | nil => exact h
  | cons s rest ih =>
      refine ih ?_
      rw [onto]
      split
      · rfl
      · exact h

/-- A step that makes an entity where there is none changes the one that is there. -/
theorem exists_apply_made (now : Instant) (old : Option Entity) {s : Step} (h : s.made ≠ []) :
    ∃ e, apply now old s = some e ∧ e.base.updatedAt = now := by
  cases s with
  | renew d =>
      obtain ⟨c, hc⟩ := exists_apply_renew now old d
      exact ⟨_, hc, rfl⟩
  | extend id service category target operations =>
      cases old with
      | none => exact ⟨_, rfl, rfl⟩
      | some e => exact ⟨_, rfl, rfl⟩
  | mark => exact absurd rfl h
  | relate => exact absurd rfl h

/-- What is made on the way is changed last at the time of the steps. -/
theorem updatedAt_of_made {old : Option Entity} {steps : List Step} {s : Step} {e : Entity}
    (hs : s ∈ steps) (hmade : s.made ≠ []) (he : steps.foldl (apply now) old = some e) :
    e.base.updatedAt = now := by
  obtain ⟨front, rest, rfl⟩ := List.append_of_mem hs
  obtain ⟨e', he', hupdated⟩ := exists_apply_made now (front.foldl (apply now) old) hmade
  rw [List.foldl_append, List.foldl_cons, he', foldl_apply_some] at he
  rw [← Option.some.inj he]
  exact updatedAt_foldl_onto hupdated rest

end Step

namespace Report

variable {g : Graph} {now : Instant} {r : Report} {id : String} {part : Part} {s : Step}

/-- Behind a report there is the entity of a part under the id that is for it. -/
theorem exists_part?_eq (hg : g.Coherent) (now : Instant) (hs : s ∈ r.stepsAt id)
    (hoccurs : Occurs r.name r.url? r.analysis part id s) :
    ∃ e, (g.receive now r).get? id = some e ∧ e.detail.part? = some part := by
  -- an integration alone is extended with what uses it, all else is renewed
  by_cases hpart : part = .integration
  · subst hpart
    obtain ⟨hwrites, c, -, -, huses⟩ := exists_category (mem_used_of_occurs hoccurs)
    obtain ⟨base, d, hfold, -⟩ := foldl_apply_usedIn now hwrites huses (g.get? id)
    exact ⟨_, (get?_receive hg now r id).trans hfold, rfl⟩
  · refine exists_renewal hg now hpart hs hoccurs (P := fun d => d.part? = some part) fun s h => ?_
    cases h with
    | count => exact .inr ⟨_, _, _, rfl⟩
    | endpoint he =>
        obtain ⟨-, -, d, -, hd, -⟩ := entityOfEndpoint_eq epoch ("api:" ++ slugify r.name) _ _ _
        exact .inl ⟨_, rfl, congrArg Detail.part? hd⟩
    | integration => exact absurd rfl hpart
    | _ => exact .inl ⟨_, rfl, rfl⟩

/-- A step at an id belongs to some step that makes it. -/
theorem exists_mem_made (hs : s ∈ r.stepsAt id)
    (hoccurs : Occurs r.name r.url? r.analysis part id s) : ∃ s ∈ r.stepsAt id, s.made ≠ [] := by
  by_cases hpart : part = .integration
  · subst hpart
    cases hoccurs with
    | integration h => exact ⟨_, hs, List.cons_ne_nil _ _⟩
  · obtain ⟨d, hd⟩ := exists_renew hpart hs hoccurs
    exact ⟨_, hd, List.cons_ne_nil _ _⟩

/-- What a report writes was changed last when the report came. -/
theorem exists_updated (hg : g.Coherent) (now : Instant) (h : r.Writes id) :
    ∃ e, (g.receive now r).get? id = some e ∧ e.base.updatedAt = now := by
  obtain ⟨s, hs⟩ := List.exists_mem_of_ne_nil _ h
  obtain ⟨part, hoccurs⟩ := occurs_of_mem hs
  obtain ⟨e, he, -⟩ := exists_part?_eq hg now hs hoccurs
  obtain ⟨d, hd, hmade⟩ := exists_mem_made hs hoccurs
  exact ⟨e, he, updatedAt_of_made hd hmade ((get?_receive hg now r id).symm.trans he)⟩

/-- The ids under which a graph has an entity of a part when it has received a report that writes
it. -/
def written (g : Graph) (now : Instant) (r : Report) (part : Part) : Set String :=
  {id | r.Writes id ∧ ∃ e, (g.receive now r).get? id = some e ∧ e.detail.part? = some part}

/-- A part of a report writes the ids at which one of its steps occurs. -/
theorem mem_written (hg : g.Coherent) : id ∈ r.written g now part ↔
    ∃ s ∈ r.stepsAt id, Occurs r.name r.url? r.analysis part id s := by
  constructor
  · rintro ⟨hwrites, e, he, hpart⟩
    obtain ⟨s, hs⟩ := List.exists_mem_of_ne_nil _ hwrites
    obtain ⟨part', hoccurs⟩ := occurs_of_mem hs
    obtain ⟨e', he', hpart'⟩ := exists_part?_eq hg now hs hoccurs
    obtain rfl : e = e' := Option.some.inj (he.symm.trans he')
    obtain rfl : part = part' := Option.some.inj (hpart.symm.trans hpart')
    exact ⟨s, hs, hoccurs⟩
  · rintro ⟨s, hs, hoccurs⟩
    exact ⟨List.ne_nil_of_mem hs, exists_part?_eq hg now hs hoccurs⟩

/-- The schemas that are written are those of the models. -/
theorem written_schema (hg : g.Coherent) : r.written g now .schema = {id | id ∈ r.schemas} := by
  ext id
  rw [mem_written hg]
  constructor
  · rintro ⟨s, -, hoccurs⟩
    cases hoccurs with
    | model hm => exact List.mem_map.2 ⟨_, hm, rfl⟩
  · intro h
    obtain ⟨⟨m, id⟩, hm, rfl⟩ := List.mem_map.1 h
    obtain ⟨hwrites, hsteps⟩ := stepsAt_of_model hm
    obtain ⟨s, hs⟩ := List.exists_mem_of_ne_nil _ hwrites
    exact ⟨s, hs, hsteps s hs ▸ .model hm⟩

/-- The endpoints that are written are those that the interface contains. -/
theorem written_endpoint (hg : g.Coherent) :
    r.written g now .endpoint = {id | id ∈ r.contained} := by
  ext id
  rw [mem_written hg]
  constructor
  · rintro ⟨s, -, hoccurs⟩
    cases hoccurs with
    | endpoint he => exact List.mem_map.2 ⟨_, he, rfl⟩
  · intro h
    obtain ⟨⟨e, id⟩, he, rfl⟩ := List.mem_map.1 h
    exact ⟨_, mem_stepsAt_of_endpoint he, .endpoint he⟩

/-- The integrations that are written are those that the service uses. -/
theorem written_integration (hg : g.Coherent) :
    r.written g now .integration = {id | id ∈ r.used} := by
  ext id
  rw [mem_written hg]
  constructor
  · rintro ⟨s, -, hoccurs⟩
    exact mem_used_of_occurs hoccurs
  · intro h
    obtain ⟨c, target, operations, -, hs, hoccurs⟩ := exists_extend h
    exact ⟨_, hs, hoccurs⟩

/-- The resources that are written are those of the report. -/
theorem written_resource (hg : g.Coherent) :
    r.written g now .resource = {id | id ∈ r.resourceIds} := by
  ext id
  rw [mem_written hg]
  constructor
  · rintro ⟨s, -, hoccurs⟩
    cases hoccurs with
    | resource hd hx =>
        show _ ∈ r.resourceIds
        rw [resourceIds, hd]
        exact List.mem_map_of_mem hx
  · intro h
    have h : id ∈ r.resourceIds := h
    rw [resourceIds] at h
    cases hd : r.analysis.infrastructure with
    | none =>
        rw [hd] at h
        cases h
    | some d =>
        rw [hd] at h
        obtain ⟨x, hx, rfl⟩ := List.mem_map.1 h
        refine ⟨_, mem_stepsAt (mem_of_mem_resourceSteps hd ?_) rfl, .resource hd hx⟩
        exact List.mem_flatMap.2 ⟨x, hx, List.mem_cons_self⟩

/-- The names of models under which ids are found are those of the models. -/
theorem map_fst_firstIds (models : List (Model × String)) :
    (firstIds models).map Prod.fst = (models.map Prod.fst).map Model.name := by
  rw [firstIds, List.map_map, List.map_map]
  rfl

/-- The numbers of a summary: different names, and how many ids the other parts have. -/
theorem summary_eq_lengths (g : Graph) (now : Instant) (r : Report) :
    (g.lift now r.name r.url? r.analysis).2 = {
      serviceId := r.serviceId
      schemas := ((r.analysis.models.map Model.name).foldl
        (fun l a => if l.contains a then l else a :: l) []).length
      endpoints := r.contained.length
      integrations := r.used.length
      infrastructure := r.resourceIds.length } := by
  have hschemas : ((firstIds (schemaIds (slugify r.name) [] r.analysis.models)).foldl
      (fun (l : List String) m => if l.contains m.1 then l else m.1 :: l) [])
      = (r.analysis.models.map Model.name).foldl
        (fun l a => if l.contains a then l else a :: l) [] := by
    rw [← map_fst_schemaIds (slugify r.name) [] r.analysis.models, ← map_fst_firstIds,
      List.foldl_map, map_fst_schemaIds]
  have hendpoints : ∀ (g : Graph) (names : SchemaNames),
      (g.liftEndpoints now r.serviceId (slugify r.name) names r.analysis.endpoints).2
        = r.contained.length := by
    intro g names
    rw [liftEndpoints, contained, List.length_map]
    cases r.analysis.endpoints with
    | nil => rfl
    | cons e rest => rfl
  have hintegrations : r.used.length = (groupedEffects r.analysis.sideEffects).length :=
    List.length_map _
  rw [lift, hintegrations, resourceIds, List.length_map, ← hschemas]
  cases r.analysis.infrastructure with
  | none => exact congrArg (fun n => LiftSummary.mk _ _ n _ _) (hendpoints ..)
  | some d => exact congrArg (fun n => LiftSummary.mk _ _ n _ _) (hendpoints ..)

/-- The addresses of the resources of a report. -/
def addresses (r : Report) : List String :=
  ((r.analysis.infrastructure.map (·.resources)).getD []).map (·.address)

/-- No two resources share an id if no two share an address. -/
theorem nodup_resourceIds : r.resourceIds.Nodup ↔ r.addresses.Nodup := by
  have hids : r.resourceIds = r.addresses.map ("infra:" ++ ·) := by
    rw [addresses, List.map_map]
    rfl
  rw [hids]
  exact List.nodup_map_iff fun a b h => infra_inj.1 h

/-- The ids of the groups of side effects are different if no two targets share one. -/
theorem nodup_used : r.used.Nodup ↔ ∀ c t c' t', Targets r.analysis.sideEffects c t →
    Targets r.analysis.sideEffects c' t' → integrationId c t = integrationId c' t' →
      c = c' ∧ t = t' := by
  have hused : r.used = ((groupedEffects r.analysis.sideEffects).map Prod.fst).map fun k =>
      entityId .integration (k.1 ++ "-" ++ k.2) := by
    rw [List.map_map]
    rfl
  -- the groups have one key for each target of a category
  have hkeys : ∀ {k : String × String}, k ∈ (groupedEffects r.analysis.sideEffects).map Prod.fst
      ↔ ∃ c, Targets r.analysis.sideEffects c k.2 ∧ c.label = k.1 := by
    intro k
    have hmem : k ∈ (groupedEffects r.analysis.sideEffects).map Prod.fst
        ↔ ∃ operations, (k, operations) ∈ groupedEffects r.analysis.sideEffects := by
      rw [List.mem_map]
      exact ⟨fun ⟨m, hm, hk⟩ => ⟨m.2, hk ▸ hm⟩, fun ⟨operations, hm⟩ => ⟨_, hm, rfl⟩⟩
    rw [hmem, exists_grouped]
    constructor
    · rintro ⟨e, he, hc, ht⟩
      exact ⟨e.category, ⟨e, he, rfl, ht⟩, hc⟩
    · rintro ⟨_, ⟨e, he, rfl, ht⟩, hc⟩
      exact ⟨e, he, hc, ht⟩
  rw [hused, List.nodup_map_iff_inj_on (nodup_map_fst_groupedEffects _)]
  constructor
  · intro h c t c' t' ht ht' hid
    have hpair := h (c.label, t) (hkeys.2 ⟨c, ht, rfl⟩) (c'.label, t') (hkeys.2 ⟨c', ht', rfl⟩) hid
    obtain ⟨hc, rfl⟩ := Prod.mk.injEq .. ▸ hpair
    exact ⟨label_injective_effectCategory hc, rfl⟩
  · rintro h ⟨_, t⟩ hk ⟨_, t'⟩ hk' hid
    obtain ⟨c, ht, rfl⟩ := hkeys.1 hk
    obtain ⟨c', ht', rfl⟩ := hkeys.1 hk'
    obtain ⟨rfl, rfl⟩ := h c t c' t' ht ht' hid
    rfl

/-! ## Numbers of written entities -/

/-- As many schemas are written as there are models. -/
theorem encard_written_schema (hg : g.Coherent) (now : Instant) (r : Report) :
    (r.written g now .schema).encard = r.analysis.models.length := by
  have hlength : r.schemas.length = r.analysis.models.length := by
    rw [schemas, List.length_map, ← List.length_map Prod.fst, map_fst_schemaIds]
  have hnodup : r.schemas.Nodup := (nodup_schemaIds ..).1
  rw [written_schema hg, (encard_setOf_mem_eq_length_iff _).2 hnodup, hlength]

/-- As many endpoints are written as the summary says. -/
theorem encard_written_endpoint (hg : g.Coherent) (now : Instant) (r : Report) :
    (r.written g now .endpoint).encard = (g.lift now r.name r.url? r.analysis).2.endpoints := by
  rw [written_endpoint hg, summary_eq_lengths]
  exact (encard_setOf_mem_eq_length_iff _).2 (nodup_map_snd_endpointIds ..)

/-- The summary says how many names the models have. -/
theorem encard_names (g : Graph) (now : Instant) (r : Report) :
    {n | n ∈ r.analysis.models.map Model.name}.encard
      = (g.lift now r.name r.url? r.analysis).2.schemas := by
  obtain ⟨hnodup, hmem⟩ := nodup_foldl_new (r.analysis.models.map Model.name) [] List.nodup_nil
  have hsame : {n | n ∈ r.analysis.models.map Model.name}
      = {n | n ∈ (r.analysis.models.map Model.name).foldl
        (fun l a => if l.contains a then l else a :: l) []} :=
    Set.ext fun n => ((hmem n).trans (or_iff_right List.not_mem_nil)).symm
  rw [hsame, (encard_setOf_mem_eq_length_iff _).2 hnodup, summary_eq_lengths]

/-- The summary says no more schemas than are written, and as many just if no two models share a
name. -/
theorem schemas_le_encard_written (hg : g.Coherent) (now : Instant) (r : Report) :
    ((g.lift now r.name r.url? r.analysis).2.schemas : ℕ∞) ≤ (r.written g now .schema).encard
      ∧ ((r.written g now .schema).encard = (g.lift now r.name r.url? r.analysis).2.schemas
        ↔ (r.analysis.models.map Model.name).Nodup) := by
  have hle := encard_setOf_mem_le (r.analysis.models.map Model.name)
  have hiff := encard_setOf_mem_eq_length_iff (r.analysis.models.map Model.name)
  rw [List.length_map] at hle hiff
  rw [encard_written_schema hg, ← encard_names]
  exact ⟨hle, eq_comm.trans hiff⟩

/-- No more integrations are written than the summary says, and as many just if no two targets share
an id. -/
theorem encard_written_integration_le (hg : g.Coherent) (now : Instant) (r : Report) :
    (r.written g now .integration).encard ≤ (g.lift now r.name r.url? r.analysis).2.integrations
      ∧ ((r.written g now .integration).encard
        = (g.lift now r.name r.url? r.analysis).2.integrations
        ↔ ∀ c t c' t', Targets r.analysis.sideEffects c t → Targets r.analysis.sideEffects c' t' →
          integrationId c t = integrationId c' t' → c = c' ∧ t = t') := by
  rw [written_integration hg, summary_eq_lengths]
  exact ⟨encard_setOf_mem_le _, (encard_setOf_mem_eq_length_iff _).trans nodup_used⟩

/-- No more resources are written than the summary says, and as many just if no address is
repeated. -/
theorem encard_written_resource_le (hg : g.Coherent) (now : Instant) (r : Report) :
    (r.written g now .resource).encard ≤ (g.lift now r.name r.url? r.analysis).2.infrastructure
      ∧ ((r.written g now .resource).encard = (g.lift now r.name r.url? r.analysis).2.infrastructure
        ↔ r.addresses.Nodup) := by
  rw [written_resource hg, summary_eq_lengths]
  exact ⟨encard_setOf_mem_le _, (encard_setOf_mem_eq_length_iff _).trans nodup_resourceIds⟩

end Report

/-- A report leaves what it does not write, and what it writes was changed last when it came. Of
what it writes the endpoints are as many as its summary says. The schemas of models are as many as
there are models, while the summary says how many names these have, so it says too little if a name
comes twice. The integrations are as many as the summary says if no two targets share an id, and the
resources if no address comes twice; otherwise the summary says too much. -/
theorem summary_of_report {g : Graph} (h : Reachable g) (now : Instant) (r : Report) :
    let g' := g.receive now r
    let written := r.written g now
    let summary := (g.lift now r.name r.url? r.analysis).2
    (∀ id, ¬ r.Writes id → g'.get? id = g.get? id)
      ∧ (∀ id, r.Writes id → ∃ e, g'.get? id = some e ∧ e.base.updatedAt = now)
      ∧ (written .schema).encard = r.analysis.models.length
      ∧ (summary.schemas ≤ (written .schema).encard
        ∧ ((written .schema).encard = summary.schemas ↔ (r.analysis.models.map Model.name).Nodup))
      ∧ (written .endpoint).encard = summary.endpoints
      ∧ ((written .integration).encard ≤ summary.integrations
        ∧ ((written .integration).encard = summary.integrations ↔ ∀ c t c' t',
          Targets r.analysis.sideEffects c t → Targets r.analysis.sideEffects c' t' →
          integrationId c t = integrationId c' t' → c = c' ∧ t = t'))
      ∧ (written .resource).encard ≤ summary.infrastructure
      ∧ ((written .resource).encard = summary.infrastructure ↔ r.addresses.Nodup) := by
  intro g' written summary
  have hg := h.coherent
  exact ⟨fun id hid => Report.get?_receive_of_not_writes hg now hid,
    fun id hid => Report.exists_updated hg now hid, Report.encard_written_schema hg now r,
    Report.schemas_le_encard_written hg now r, Report.encard_written_endpoint hg now r,
    Report.encard_written_integration_le hg now r, Report.encard_written_resource_le hg now r⟩

/-- Two models, an endpoint that comes twice and a resource. -/
theorem summary_of_report_distinct :
    let m : Model := { name := "User", kind := .class_, file := "a.py", line := 1 }
    let e : CodeAtlas.Endpoint := { method := "GET", path := "/users", file := "a.py", line := 9 }
    let x : Infra.Resource := {
      address := "aws_vpc.main", resourceType := "aws_vpc", name := "main", kind := "resource"
      file := "main.tf", line := 1 }
    let r : Report := { name := "S", analysis := {
      language := "python+terraform", models := [m, { m with name := "Order" }], endpoints := [e, e]
      infrastructure := some { resources := [x] } } }
    let summary := (empty.lift epoch r.name r.url? r.analysis).2
    (r.written empty epoch .schema).encard = 2
      ∧ (r.written empty epoch .schema).encard = summary.schemas
      ∧ (r.written empty epoch .endpoint).encard = summary.endpoints
      ∧ (r.written empty epoch .integration).encard = summary.integrations
      ∧ (r.written empty epoch .resource).encard = summary.infrastructure := by
  intro m e x r summary
  obtain ⟨-, -, hmodels, ⟨-, hschemas⟩, hendpoints, ⟨-, hintegrations⟩, -, hresources⟩ :=
    summary_of_report .empty epoch r
  refine ⟨hmodels, hschemas.2 (by decide), hendpoints, hintegrations.2 ?_,
    hresources.2 (List.nodup_singleton _)⟩
  rintro c t c' t' ⟨_, hmem, -⟩
  cases hmem

/-- Two models with one name, two targets with the same words, and an address that comes twice. -/
theorem summary_of_repeated :
    let m : Model := { name := "User", kind := .class_, file := "a.py", line := 1 }
    let e : SideEffect := { category := .database, operation := "read", target := some "Users"
                            file := "a.py", line := 1 }
    let x : Infra.Resource := {
      address := "aws_vpc.main", resourceType := "aws_vpc", name := "main", kind := "resource"
      file := "a/main.tf", line := 1 }
    let r : Report := { name := "S", analysis := {
      language := "python+terraform", models := [m, { m with file := "b.py" }]
      sideEffects := [e, { e with target := some "users" }]
      infrastructure := some { resources := [x, { x with file := "b/main.tf" }] } } }
    let summary := (empty.lift epoch r.name r.url? r.analysis).2
    summary.schemas = 1 ∧ (r.written empty epoch .schema).encard = 2
      ∧ summary.integrations = 2 ∧ (r.written empty epoch .integration).encard = 1
      ∧ summary.infrastructure = 2 ∧ (r.written empty epoch .resource).encard = 1 := by
  intro m e x r summary
  have hsummary : summary = _ := Report.summary_eq_lengths empty epoch r
  have hused : {id | id ∈ r.used} = {integrationId .database "Users"} := by
    ext id
    rw [Set.mem_ofPred_eq, Report.mem_used, Set.mem_singleton_iff]
    constructor
    · rintro ⟨e, he, t, ht, rfl⟩
      rcases List.mem_cons.1 he with rfl | he
      · cases ht
        rfl
      · obtain rfl := List.mem_singleton.1 he
        cases ht
        exact integrationId_users.symm
    · rintro rfl
      exact ⟨e, List.mem_cons_self, "Users", rfl, rfl⟩
  have hplaces : {id | id ∈ r.resourceIds} = {"infra:aws_vpc.main"} := by
    ext id
    show id ∈ ["infra:aws_vpc.main", "infra:aws_vpc.main"] ↔ _
    simp
  -- schemas are counted by name, integrations by target and resources one by one
  refine ⟨?_, Report.encard_written_schema coherent_empty epoch r, ?_, ?_, ?_, ?_⟩
  · rw [hsummary]
    rfl
  · rw [hsummary]
    show r.used.length = 2
    rw [Report.used, List.length_map, groupedEffects, List.length_map, List.length_mergeSort]
    decide
  · rw [Report.written_integration coherent_empty, hused, Set.encard_singleton]
  · rw [hsummary]
    rfl
  · rw [Report.written_resource coherent_empty, hplaces, Set.encard_singleton]

end CodeAtlas.Graph
