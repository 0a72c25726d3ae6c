import CodeAtlas.Proofs.Graph.Rooted
import CodeAtlas.Proofs.Json.Sorting

/-!
# Integrations

Side effects are grouped by their categories and targets, while the id of an integration is the slug
of both, so it tells their words and nothing else. The groups come in the order of their targets,
and every one overwrites the target and the operations that it finds under its id. So of the targets
with one id the integration keeps the greatest, with its operations, and one that shares its id with
no other is as the side effects have it.
-/

namespace CodeAtlas.Graph

open Step

/-! ## Groups of side effects -/

/-- Sorting as a set puts nothing in and takes nothing out. -/
theorem mem_sortedSet {s : String} {l : List String} : s ∈ sortedSet l ↔ s ∈ l := by
  have hkeys : (l.map (·, ())).map Prod.fst = l := by
    rw [List.map_map]
    exact List.map_id l
  exact Json.mem_keys_sortMembers.trans (by rw [hkeys])

/-- A sorted set ascends. -/
theorem pairwise_sortedSet (l : List String) : (sortedSet l).Pairwise (· < ·) :=
  Json.ascending_sortMembers _

/-- Categories of side effects have different labels. -/
theorem label_injective_effectCategory : Function.Injective EffectCategory.label := by
  intro c c'
  cases c <;> cases c' <;> decide

/-- Whether side effects of a category have a target. -/
def Targets (effects : List SideEffect) (c : EffectCategory) (t : String) : Prop :=
  ∃ e ∈ effects, e.category = c ∧ e.target = some t

/-- The list has the operations of the side effects of a category with a target, sorted. -/
structure Operates (effects : List SideEffect) (c : EffectCategory) (t : String) (l : List String) :
    Prop where
  sorted : l.Pairwise (· < ·)
  mem : ∀ o, o ∈ l ↔ ∃ e ∈ effects, e.category = c ∧ e.target = some t ∧ e.operation = o

section
variable {effects : List SideEffect} {c : EffectCategory} {t : String}

/-- The operations of a group are those of the effects with its category and target. -/
theorem operates_of_mem {operations : List String}
    (h : ((c.label, t), operations) ∈ groupedEffects effects) :
    Operates effects c t operations := by
  obtain ⟨k, -, heq⟩ := List.mem_map.1 h
  obtain rfl : k = (c.label, t) := congrArg Prod.fst heq
  obtain rfl := congrArg Prod.snd heq
  refine ⟨pairwise_sortedSet _, fun o => ?_⟩
  rw [mem_sortedSet, List.mem_filterMap]
  refine exists_congr fun e => and_congr_right fun _ => ?_
  split
  · next hsame =>
    rw [Bool.and_eq_true, beq_iff_eq, beq_iff_eq] at hsame
    rw [Option.some_inj, label_injective_effectCategory hsame.1]
    exact (and_iff_right rfl).symm.trans (and_congr_right fun _ => (and_iff_right hsame.2).symm)
  · next hother =>
    refine iff_of_false nofun fun ⟨hc, ht, _⟩ => hother ?_
    rw [Bool.and_eq_true, beq_iff_eq, beq_iff_eq]
    exact ⟨congrArg _ hc, ht⟩

/-- Whether a category and a target come before others. -/
def Precedes (a b : String × String) : Prop := a.1 < b.1 ∨ a.1 = b.1 ∧ a.2 < b.2

/-- The order of groups is transitive. -/
theorem Precedes.trans {a b c : String × String} (hab : Precedes a b) (hbc : Precedes b c) :
    Precedes a c := by
  rcases hab with hab | ⟨hab, hab'⟩
  · rcases hbc with hbc | ⟨hbc, -⟩
    · exact .inl (String.lt_trans hab hbc)
    · exact .inl (hbc ▸ hab)
  · rcases hbc with hbc | ⟨hbc, hbc'⟩
    · exact .inl (hab ▸ hbc)
    · exact .inr ⟨hab.trans hbc, String.lt_trans hab' hbc'⟩

/-- Of two groups one is before the other, or they are the same. -/
theorem precedes_total (a b : String × String) : Precedes a b ∨ a = b ∨ Precedes b a := by
  rcases Std.lt_trichotomy a.1 b.1 with h | h | h
  · exact .inl (.inl h)
  · rcases Std.lt_trichotomy a.2 b.2 with h' | h' | h'
    · exact .inl (.inr ⟨h, h'⟩)
    · exact .inr (.inl (Prod.ext h h'))
    · exact .inr (.inr (.inr ⟨h.symm, h'⟩))
  · exact .inr (.inr (.inl h))

/-- The check of the order says that a group is before another or the same. -/
theorem precedes_or_eq_iff (a b : String × String) :
    (if a.1 != b.1 then decide (a.1 < b.1) else !(b.2 < a.2)) = true ↔ Precedes a b ∨ a = b := by
  obtain ⟨a, x⟩ := a
  obtain ⟨b, y⟩ := b
  rw [Precedes]
  dsimp only
  split
  · next hne =>
    have hne : a ≠ b := bne_iff_ne.1 hne
    rw [decide_eq_true_iff, or_assoc]
    refine (or_iff_left ?_).symm
    rintro (h | h)
    · exact hne h.1
    · exact hne (congrArg Prod.fst h)
  · next heq =>
    obtain rfl : a = b := not_not.1 fun h => heq (bne_iff_ne.2 h)
    rw [Keyed.not_text_lt_iff, or_iff_right (String.lt_irrefl a), and_iff_right rfl]
    exact or_congr_right ⟨congrArg (Prod.mk a), congrArg Prod.snd⟩

/-- The groups of one category come in the order of their targets. -/
theorem pairwise_groupedEffects (effects : List SideEffect) :
    (groupedEffects effects).Pairwise fun m m' => m.1.1 = m'.1.1 → m.1.2 ≤ m'.1.2 := by
  have hsorted : ∀ l : List (String × String), (l.mergeSort fun a b =>
      if a.1 != b.1 then a.1 < b.1 else !(b.2 < a.2)).Pairwise fun a b => Precedes a b ∨ a = b :=
    Keyed.pairwise_mergeSort (f := id) precedes_or_eq_iff Precedes.trans precedes_total
  refine List.pairwise_map.2 ((hsorted _).imp fun {a b} hab hcategory => ?_)
  have hcategory : a.1 = b.1 := hcategory
  show a.2 ≤ b.2
  rcases hab with (h | ⟨-, h⟩) | rfl
  · exact absurd (hcategory ▸ h) (String.lt_irrefl _)
  · exact String.not_lt.1 fun h' => String.lt_irrefl _ (String.lt_trans h h')
  · exact String.not_lt.1 (String.lt_irrefl _)

end

/-! ## Steps at the id of an integration -/

/-- The step for the group of side effects with a category and a target. -/
def useStep (service : String) (m : (String × String) × List String) : Step :=
  .extend (entityId .integration (m.1.1 ++ "-" ++ m.1.2)) service m.1.1 m.1.2 m.2

/-- Whether a step uses an integration. -/
def Step.isUse : Step → Bool
  | .extend .. => true
  | _ => false

/-- The steps that use integrations are one for each group. -/
theorem filter_isUse_effectSteps (service : String) (effects : List SideEffect) :
    (effectSteps service effects).filter Step.isUse
      = (groupedEffects effects).map (useStep service) := by
  have hgroups : ∀ {f : (String × String) × List String → List Step},
      (∀ m, (f m).filter Step.isUse = [useStep service m]) →
      ∀ groups : List _, (groups.flatMap f).filter Step.isUse = groups.map (useStep service) := by
    intro f hf groups
    rw [List.filter_flatMap, List.map_eq_flatMap]
    exact congrArg (groups.flatMap ·) (funext hf)
  rw [effectSteps, List.filter_append, hgroups fun _ => rfl]
  split
  · exact List.append_nil _
  · exact List.append_nil _

/-- Steps none of which uses an integration have none that does. -/
theorem filter_isUse_eq_nil {steps : List Step} (h : ∀ s ∈ steps, s.isUse = false) :
    steps.filter Step.isUse = [] :=
  List.filter_eq_nil_iff.2 fun s hs => Bool.eq_false_iff.1 (h s hs)

namespace Report

variable {g : Graph} {now : Instant} {r : Report} {id : String}

/-- Only the groups of side effects use integrations, one after the other. -/
theorem filter_isUse_script (r : Report) : r.script.filter Step.isUse
    = (groupedEffects r.analysis.sideEffects).map (useStep r.serviceId) := by
  have hpair : ∀ {e : Entity} {source target : String} {type : RelationType},
      ∀ s ∈ [.renew e, linkStep source target type], s.isUse = false :=
    List.forall_mem_cons.2 ⟨rfl, List.forall_mem_singleton.2 rfl⟩
  have hmodels : ∀ s ∈ modelSteps r.serviceId (schemaIds (slugify r.name) [] r.analysis.models),
      s.isUse = false := by
    refine List.forall_mem_append.2
      ⟨forall_mem_flatMap fun m _ => hpair, forall_mem_flatMap fun m _ s hs => ?_⟩
    obtain ⟨_, _, -, -, -, rfl⟩ := mem_parentSteps.1 hs
    rfl
  have hapi : ∀ s ∈ apiSteps r.serviceId (slugify r.name) r.schemaNames r.analysis.endpoints,
      s.isUse = false := by
    rw [apiSteps]
    split
    · exact List.forall_mem_nil _
    · refine List.forall_mem_append.2 ⟨hpair, forall_mem_flatMap fun e _ => ?_⟩
      refine List.forall_mem_append.2 ⟨hpair, ?_⟩
      split
      · exact List.forall_mem_singleton.2 rfl
      · exact List.forall_mem_nil _
  have hresources : ∀ s ∈ (r.analysis.infrastructure.map (resourceSteps r.serviceId)).getD [],
      s.isUse = false := by
    cases r.analysis.infrastructure with
    | none => exact List.forall_mem_nil _
    | some d => exact forall_mem_flatMap fun x _ => hpair
  have hlast : ∀ s ∈ lastSteps r.analysis, s.isUse = false := by
    intro s hs
    obtain ⟨_, -, _, -, _, -, rfl⟩ := exists_of_mem_lastSteps hs
    rfl
  have hservice : (serviceSteps r.name r.url? r.analysis).filter Step.isUse = [] := rfl
  have hscript : r.script = serviceSteps r.name r.url? r.analysis
      ++ (modelSteps r.serviceId (schemaIds (slugify r.name) [] r.analysis.models)
        ++ (apiSteps r.serviceId (slugify r.name) r.schemaNames r.analysis.endpoints
          ++ (effectSteps r.serviceId r.analysis.sideEffects
            ++ (r.analysis.infrastructure.map (resourceSteps r.serviceId)).getD [])))
      ++ lastSteps r.analysis := rfl
  -- only the steps for effects are uses, all the others of the script fall out of the filter
  rw [hscript]
  simp only [List.filter_append]
  rw [hservice, filter_isUse_eq_nil hmodels, filter_isUse_eq_nil hapi, filter_isUse_effectSteps,
    filter_isUse_eq_nil hresources, filter_isUse_eq_nil hlast, List.nil_append, List.nil_append,
    List.nil_append, List.append_nil, List.append_nil]

/-- At the id of an integration the groups with this id use it, one after the other. -/
theorem stepsAt_of_used (h : id ∈ r.used) :
    r.stepsAt id = ((groupedEffects r.analysis.sideEffects).filter fun m =>
      entityId .integration (m.1.1 ++ "-" ++ m.1.2) = id).map (useStep r.serviceId) := by
  obtain ⟨-, c, target, -, hall⟩ := exists_category h
  have huse : (r.stepsAt id).filter Step.isUse = r.stepsAt id := by
    refine List.filter_eq_self.2 fun s hs => ?_
    obtain ⟨_, _, rfl⟩ := hall s hs
    rfl
  have hid : ∀ m : (String × String) × List String,
      ((fun s : Step => decide (s.id? = some id)) ∘ useStep r.serviceId) m
        = decide (entityId .integration (m.1.1 ++ "-" ++ m.1.2) = id) :=
    fun m => decide_eq_decide.2 Option.some_inj
  rw [← huse, stepsAt, List.filter_comm, filter_isUse_script, List.filter_map, funext hid]

end Report

/-! ## What is under the id of an integration -/

/-- The type of the integration that is there, or else a category. -/
def typeBefore (category : String) : Option Entity → String
  | some ⟨_, .integration d⟩ => d.integrationType
  | _ => category

/-- The type of an integration stays what it was before, or comes from the category. -/
theorem integrationType_of_unused {id category : String} {old : Option Entity} {base : EntityBase}
    {d : Integration} (h : Entity.unused base d = frame id category old) :
    d.integrationType = typeBefore category old := by
  have hdetail : ∀ {base' : EntityBase} {d' : Integration},
      Entity.unused base d = Entity.unused base' d' → d.integrationType = d'.integrationType := by
    intro base' d' h
    have hunused : Detail.integration { d with provider := none, services := [] }
        = .integration { d' with provider := none, services := [] } := congrArg Entity.detail h
    have hsame := congrArg Integration.integrationType (Detail.integration.inj hunused)
    exact hsame
  cases old with
  | none => exact hdetail h
  | some old =>
      obtain ⟨_, detail⟩ := old
      cases detail with
      | _ => exact hdetail h

/-- The id of the integration for a category and a target. -/
def integrationId (c : EffectCategory) (t : String) : String :=
  entityId .integration (c.label ++ "-" ++ t)

/-- Two targets share an integration if their categories are the same and their texts have the same
words. -/
theorem integrationId_eq_iff (c : EffectCategory) (t : String) (c' : EffectCategory) (t' : String) :
    integrationId c t = integrationId c' t'
      ↔ c = c' ∧ slugWords (c.label ++ "-" ++ t) = slugWords (c'.label ++ "-" ++ t') := by
  have hslug : integrationId c t = integrationId c' t'
      ↔ slugWords (c.label ++ "-" ++ t) = slugWords (c'.label ++ "-" ++ t') :=
    (String.append_right_inj _).trans slugify_eq_iff
  refine ⟨fun h => ⟨?_, hslug.1 h⟩, fun h => hslug.2 h.2⟩
  exact label_injective_effectCategory (category_eq h)

/-- Capital letters make no other integration. -/
theorem integrationId_users :
    integrationId .database "Users" = integrationId .database "users" := by
  have hupper : slugWords "database-Users" = ["database".toList, "users".toList] :=
    slugWords_of_printed (by decide) (by decide) (by decide)
  have hlower : slugWords "database-users" = ["database".toList, "users".toList] :=
    slugWords_of_printed (by decide) (by decide) (by decide)
  exact (integrationId_eq_iff ..).2 ⟨rfl, hupper.trans hlower.symm⟩

/-- Of the targets of a category with one id the last counts. -/
structure Keeps (effects : List SideEffect) (c : EffectCategory) (id t : String) : Prop where
  targets : Targets effects c t
  id_eq : integrationId c t = id
  greatest : ∀ t', Targets effects c t' → integrationId c t' = id → t' ≤ t

/-- The groups with one id end with that of the greatest target. -/
theorem exists_last {effects : List SideEffect} {c : EffectCategory} {t : String}
    (h : Targets effects c t) : ∃ front last operations,
      ((groupedEffects effects).filter fun m =>
          entityId .integration (m.1.1 ++ "-" ++ m.1.2) = integrationId c t)
        = front ++ [((c.label, last), operations)]
      ∧ Keeps effects c (integrationId c t) last ∧ Operates effects c last operations := by
  have hmem : ∀ {t' : String}, Targets effects c t' → integrationId c t' = integrationId c t →
      ∃ operations, ((c.label, t'), operations) ∈ (groupedEffects effects).filter fun m =>
        entityId .integration (m.1.1 ++ "-" ++ m.1.2) = integrationId c t := by
    rintro t' ⟨e, he, hc, ht⟩ hid
    obtain ⟨operations, hgroup⟩ := Report.exists_grouped.2 ⟨e, he, congrArg _ hc, ht⟩
    exact ⟨operations, List.mem_filter.2 ⟨hgroup, decide_eq_true hid⟩⟩
  have hsorted := (pairwise_groupedEffects effects).filter fun m =>
    entityId .integration (m.1.1 ++ "-" ++ m.1.2) = integrationId c t
  obtain ⟨_, hne⟩ := hmem h rfl
  -- the groups are sorted, so the last one with this id has the greatest target
  obtain ⟨front, ⟨⟨category, last⟩, operations⟩, hsplit⟩ :=
    (List.eq_nil_or_concat _).resolve_left (List.ne_nil_of_mem hne)
  rw [List.concat_eq_append] at hsplit
  rw [hsplit] at hsorted hmem
  obtain ⟨hgroup, hid⟩ := List.mem_filter.1
    (hsplit ▸ List.mem_append_right front (List.mem_singleton_self _))
  have hid := of_decide_eq_true hid
  obtain ⟨e, he, rfl, ht⟩ := Report.exists_grouped.1 ⟨operations, hgroup⟩
  obtain rfl : e.category = c := label_injective_effectCategory (category_eq hid)
  refine ⟨front, last, operations, hsplit, ⟨⟨e, he, rfl, ht⟩, hid, fun t' ht' hid' => ?_⟩,
    operates_of_mem hgroup⟩
  obtain ⟨_, hgroup'⟩ := hmem ht' hid'
  rcases List.mem_append.1 hgroup' with hfront | hlast
  · exact (List.pairwise_append.1 hsorted).2.2 _ hfront _ (List.mem_singleton_self _) rfl
  · obtain rfl : t' = last := congrArg (fun m => m.1.2) (List.mem_singleton.1 hlast)
    exact String.not_lt.1 (String.lt_irrefl _)

namespace Report

variable {g : Graph} {now : Instant} {r : Report} {id : String}

/-- The integration of a target of a side effect is used. -/
theorem mem_used_of_targets {c : EffectCategory} {t : String}
    (h : Targets r.analysis.sideEffects c t) :
    integrationId c t ∈ r.used := by
  obtain ⟨e, he, rfl, ht⟩ := h
  exact mem_used.2 ⟨e, he, t, ht, rfl⟩

/-- Behind a report there is an integration for every category and target, with the greatest of the
targets that share its id. -/
theorem exists_integration_of_targets (hg : g.Coherent) (now : Instant) {c : EffectCategory}
    {t : String} (h : Targets r.analysis.sideEffects c t) : ∃ base d last operations,
      (g.receive now r).get? (integrationId c t) = some ⟨base, .integration d⟩
      ∧ r.serviceId ∈ d.services
      ∧ d.integrationType = typeBefore c.label (g.get? (integrationId c t))
      ∧ d.provider = some last
      ∧ base.metadata.lookup "operations" = some (.strings operations)
      ∧ Keeps r.analysis.sideEffects c (integrationId c t) last
      ∧ Operates r.analysis.sideEffects c last operations := by
  have hused := mem_used_of_targets h
  obtain ⟨hwrites, c', t', hid, huses⟩ := exists_category hused
  obtain rfl : c = c' := ((integrationId_eq_iff ..).1 hid).1
  obtain ⟨base, d, hfold, hframe, hservices⟩ :=
    foldl_apply_usedIn now hwrites huses (g.get? (integrationId c t))
  obtain ⟨front, last, operations, hgroups, hkeeps, hoperates⟩ := exists_last h
  -- the last step overwrites the target and the operations
  obtain ⟨e, ⟨base', d', rfl, -⟩, hlast⟩ := exists_apply_extend now
    ((front.map (useStep r.serviceId)).foldl (apply now) (g.get? (integrationId c t)))
    (integrationId c last) r.serviceId c.label last operations
  have heq : some ⟨base, .integration d⟩
      = some (retargeted now last operations ⟨base', .integration d'⟩) := by
    rw [← hfold, ← hlast, stepsAt_of_used hused, hgroups, List.map_append, List.foldl_append]
    rfl
  obtain ⟨rfl, hdetail⟩ := Entity.mk.injEq .. ▸ Option.some.inj heq
  obtain rfl := Detail.integration.inj hdetail
  refine ⟨_, _, last, operations, (get?_receive hg now r _).trans hfold, ?_,
    integrationType_of_unused hframe, rfl, ?_, hkeeps, hoperates⟩
  · rw [hservices]
    exact mem_withUser.2 (.inl rfl)
  · exact (Json.lookup_insertMember ..).trans (if_pos rfl)

end Report

/-- Behind a report the service uses an integration for every category and target of its side
effects, of which the integration has the greatest that shares its id, with all operations at this
one. Two targets share an id if they have one category and the same words. So one that does not
share its id is the provider of its integration. The type is that of the integration that was there,
or else the category. -/
theorem integrations_of_report {g : Graph} (h : Reachable g) (now : Instant) (r : Report) :
    let effects := r.analysis.sideEffects
    let g' := g.receive now r
    (∀ c t c' t', integrationId c t = integrationId c' t'
        ↔ c = c' ∧ slugWords (c.label ++ "-" ++ t) = slugWords (c'.label ++ "-" ++ t'))
      ∧ ∀ c t, Targets effects c t →
        g'.hasRelation r.serviceId (integrationId c t) .uses = true
        ∧ ∃ base d last operations,
          g'.get? (integrationId c t) = some ⟨base, .integration d⟩
          ∧ r.serviceId ∈ d.services
          ∧ d.integrationType = typeBefore c.label (g.get? (integrationId c t))
          ∧ d.provider = some last
          ∧ base.metadata.lookup "operations" = some (.strings operations)
          ∧ Keeps effects c (integrationId c t) last
          ∧ Operates effects c last operations
          ∧ ((∀ t', Targets effects c t' → integrationId c t' = integrationId c t → t' = t) →
            last = t) := by
  intro effects g'
  refine ⟨integrationId_eq_iff, fun c t ht => ⟨?_, ?_⟩⟩
  · refine (Report.hasRelation_receive h.coherent now r (by decide)).2 (.inr ?_)
    exact Report.has_uses.2 ⟨rfl, Report.mem_used_of_targets ht⟩
  · obtain ⟨base, d, last, operations, hget, hservice, htype, hprovider, hnote, hkeeps,
        hoperates⟩ :=
      Report.exists_integration_of_targets h.coherent now ht
    exact ⟨base, d, last, operations, hget, hservice, htype, hprovider, hnote, hkeeps, hoperates,
      fun honly => honly last hkeeps.targets hkeeps.id_eq⟩

/-- Two targets of one category, one of which another category has too. -/
theorem integrations_of_report_distinct :
    let e : SideEffect := { category := .database, operation := "read", target := some "Users"
                            file := "a.py", line := 1 }
    let effects := [e, { e with operation := "write" }, { e with target := some "Orders" },
      { e with category := .cache }]
    let r : Report := { name := "S", analysis := { language := "python", sideEffects := effects } }
    let g := empty.receive epoch r
    ∃ base d operations, g.get? (integrationId .database "Users") = some ⟨base, .integration d⟩
      ∧ d.integrationType = "database" ∧ d.provider = some "Users"
      ∧ base.metadata.lookup "operations" = some (.strings operations) ∧ "write" ∈ operations
      ∧ g.hasRelation r.serviceId (integrationId .database "Users") .uses = true := by
  intro e effects r g
  obtain ⟨hid, hall⟩ := integrations_of_report .empty epoch r
  have htargets : Targets effects .database "Users" := ⟨e, List.mem_cons_self, rfl, rfl⟩
  obtain ⟨huses, base, d, last, operations, hget, -, htype, hprovider, hnote, -,
      hoperates, honly⟩ :=
    hall .database "Users" htargets
  -- the two targets with this id are the same text, so the provider is pinned
  have hlast : last = "Users" := by
    refine honly fun t ht hsame => ?_
    have hcases : t = "Users" ∨ t = "Orders" := by
      obtain ⟨x, hx, hcategory, ht⟩ := ht
      have hx : x ∈ effects := hx
      simp only [effects, List.mem_cons, List.not_mem_nil, or_false] at hx
      rcases hx with rfl | rfl | rfl | rfl
      · exact .inl (Option.some.inj ht).symm
      · exact .inl (Option.some.inj ht).symm
      · exact .inr (Option.some.inj ht).symm
      · cases hcategory
    refine hcases.resolve_right ?_
    rintro rfl
    have hwords : slugWords "database-Orders" = slugWords "database-Users" := ((hid ..).1 hsame).2
    rw [slugWords_of_printed (by decide) (by decide) rfl,
      slugWords_of_printed (by decide) (by decide) rfl] at hwords
    exact absurd hwords (by decide)
  obtain rfl := hlast
  exact ⟨base, d, operations, hget, htype, hprovider, hnote,
    (hoperates.mem "write").2 ⟨_, List.mem_cons_of_mem _ List.mem_cons_self, rfl, rfl, rfl⟩, huses⟩

/-- Of two targets with the same words no integration has the smaller one. -/
theorem integrations_with_same_words :
    let e : SideEffect := { category := .database, operation := "read", target := some "Users"
                            file := "a.py", line := 1 }
    let r : Report := { name := "S", analysis := {
      language := "python", sideEffects := [e, { e with target := some "users" }] } }
    let g := empty.receive epoch r
    ¬ ∃ y base d, g.hasRelation r.serviceId y .uses = true ∧ g.get? y = some ⟨base, .integration d⟩
      ∧ d.provider = some "Users" := by
  intro e r g
  have htargets : ∀ {c t}, Targets r.analysis.sideEffects c t →
      c = .database ∧ (t = "Users" ∨ t = "users") := by
    rintro c t ⟨x, hx, rfl, ht⟩
    rcases List.mem_cons.1 hx with rfl | hx
    · exact ⟨rfl, .inl (Option.some.inj ht).symm⟩
    · obtain rfl := List.mem_singleton.1 hx
      exact ⟨rfl, .inr (Option.some.inj ht).symm⟩
  -- both targets give one entity, and its provider is the last in order of targets: `users`
  rintro ⟨y, base, d, huses, hget, hprovider⟩
  rcases (Report.hasRelation_receive coherent_empty epoch r (by decide)).1 huses with h | h
  · cases h
  · obtain ⟨x, hx, t, ht, hy⟩ := Report.mem_used.1 (Report.has_uses.1 h).2
    have hx : Targets r.analysis.sideEffects x.category t := ⟨x, hx, rfl, ht⟩
    obtain ⟨hcategory, ht⟩ := htargets hx
    have hy : y = integrationId .database "Users" := by
      rw [hy, hcategory]
      rcases ht with rfl | rfl
      · rfl
      · exact integrationId_users.symm
    obtain ⟨base', d', last, _, hget', -, -, hprovider', -, hkeeps, -⟩ :=
      Report.exists_integration_of_targets coherent_empty epoch (r := r) (c := .database)
        (t := "Users")
        ⟨e, List.mem_cons_self, rfl, rfl⟩
    rw [hy, hget'] at hget
    obtain ⟨-, hdetail⟩ := Entity.mk.injEq .. ▸ Option.some.inj hget
    obtain rfl := Detail.integration.inj hdetail
    obtain rfl : last = "Users" := Option.some.inj (hprovider'.symm.trans hprovider)
    have hle : "users" ≤ "Users" := hkeeps.greatest "users"
      ⟨_, List.mem_cons_of_mem _ List.mem_cons_self, rfl, rfl⟩ integrationId_users.symm
    exact absurd hle (by decide)

end CodeAtlas.Graph
