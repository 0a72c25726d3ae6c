import CodeAtlas.Proofs.Graph.Schemas

/-!
# Inheritance

What a model inherits from is looked up by name, and so is the schema that inherits. So the schema
of the first model with a name inherits for all models with this name, and the schemas of the others
inherit nothing. Where a name belongs to one model, its schema implements those of what the model
names.
-/

namespace CodeAtlas.Graph

open Step

/-- The names of what a model inherits from. -/
def inherited (m : Model) : List String := m.parent.toList ++ m.interfaces

/-- The id is that of the first model with a name. -/
def FirstNamed (models : List (Model × String)) (name id : String) : Prop :=
  ∃ front m back, models = front ++ (m, id) :: back ∧ m.name = name ∧ ∀ p ∈ front, p.1.name ≠ name

variable {models : List (Model × String)} {m : Model} {name id : String}

/-- The id that is found for a name is that of the first model with it. -/
theorem lookup_firstIds : (firstIds models).lookup name = some id ↔ FirstNamed models name id := by
  rw [List.lookup_eq_some_iff]
  constructor
  · rintro ⟨front, back, hsplit, hfront⟩
    obtain ⟨front', rest, rfl, rfl, hrest⟩ := List.map_eq_append_iff.1 hsplit
    obtain ⟨⟨m, id'⟩, back', rfl, hpair, rfl⟩ := List.map_eq_cons_iff.1 hrest
    obtain ⟨rfl, rfl⟩ := Prod.mk.injEq .. ▸ hpair
    refine ⟨front', m, back', rfl, rfl, fun p hp heq => ?_⟩
    exact (bne_iff_ne.1 (hfront _ (List.mem_map_of_mem hp))) heq.symm
  · rintro ⟨front, m, back, rfl, rfl, hfront⟩
    refine ⟨firstIds front, firstIds back,
      by simp only [firstIds, List.map_append, List.map_cons], ?_⟩
    rintro p hp
    obtain ⟨q, hq, rfl⟩ := List.mem_map.1 hp
    exact bne_iff_ne.2 fun heq => hfront q hq heq.symm

/-- The first model with a name is one of the models. -/
theorem FirstNamed.mem (h : FirstNamed models name id) : ∃ m, (m, id) ∈ models ∧ m.name = name := by
  obtain ⟨front, m, back, rfl, hname, -⟩ := h
  exact ⟨m, List.mem_append_right _ List.mem_cons_self, hname⟩

/-- A name has one first model. -/
theorem FirstNamed.unique {id' : String} (h : FirstNamed models name id)
    (h' : FirstNamed models name id') : id = id' :=
  Option.some.inj ((lookup_firstIds.2 h).symm.trans (lookup_firstIds.2 h'))

/-- Every name of a model has a first model. -/
theorem exists_firstNamed (h : (m, id) ∈ models) : ∃ first, FirstNamed models m.name first := by
  refine (Option.ne_none_iff_exists'.1 fun hnone => ?_).imp fun _ => lookup_firstIds.1
  exact bne_iff_ne.1 (List.lookup_eq_none_iff.1 hnone (m.name, id) (List.mem_map_of_mem h)) rfl

/-- A step from a model leads from the first schema with its name to the first with an inherited
name. -/
theorem mem_parentSteps_firstIds {s : Step} : s ∈ parentSteps (firstIds models) m
    ↔ ∃ source target, FirstNamed models m.name source
      ∧ (∃ n ∈ inherited m, FirstNamed models n target)
      ∧ target ≠ source ∧ s = linkStep source target .implements := by
  simp only [← lookup_firstIds]
  exact mem_parentSteps

/-! ## Relations -/

section
variable {g : Graph} (hg : g.Coherent) (now : Instant) (serviceId : String)
  (models : List (Model × String))
include hg

/-- The schemas of models implement nothing when they are made. -/
theorem hasRelation_schemaSteps (source target : String) :
    (runAll now g (schemaSteps serviceId models)).hasRelation source target .implements
      = g.hasRelation source target .implements := by
  refine hasRelation_runAll_of_type hg now (forall_mem_flatMap fun p _ => ?_) source target
  refine List.forall_mem_cons.2 ⟨fun _ h => absurd h List.not_mem_nil,
    List.forall_mem_singleton.2 ?_⟩
  intro q hq
  obtain rfl := List.mem_singleton.1 hq
  exact RelationType.noConfusion

/-- The steps for the schemas write the schema of every name. -/
theorem contains_schemaSteps {name id : String} (h : FirstNamed models name id) :
    (runAll now g (schemaSteps serviceId models)).contains id = true := by
  have hmade : id ∈ (schemaSteps serviceId models).flatMap made := by
    rw [made_schemaSteps]
    exact mem_of_lookup_firstIds (lookup_firstIds.2 h)
  obtain ⟨s, hs, hid⟩ := List.mem_flatMap.1 hmade
  exact contains_runAll_of_made hg now hs hid

/-- Behind the models the first schema with a name implements what any model with this name inherits
from. -/
theorem hasRelation_liftModels {source target : String} :
    (g.liftModels now serviceId models).hasRelation source target .implements = true
      ↔ g.hasRelation source target .implements = true
        ∨ target ≠ source ∧ ∃ m ∈ models.map Prod.fst, FirstNamed models m.name source
          ∧ ∃ n ∈ inherited m, FirstNamed models n target := by
  have hmid := coherent_runAll hg now (schemaSteps serviceId models)
  -- the links make no entity, so all their ends are there before the first of them
  have hlinks : ∀ s ∈ models.flatMap fun p => parentSteps (firstIds models) p.1, s.made = [] := by
    refine forall_mem_flatMap fun p _ s hs => ?_
    obtain ⟨_, _, -, -, -, rfl⟩ := mem_parentSteps_firstIds.1 hs
    rfl
  have hrelations := (relations_runAll_of_not_made hmid now hlinks).1
  rw [liftModels_eq, modelSteps, runAll_append,
    hasRelation_of_union hmid (coherent_runAll hmid now _) hrelations, hasRelation_schemaSteps hg]
  refine or_congr_right ⟨?_, ?_⟩
  · rintro ⟨q, hq, hkey⟩
    obtain ⟨s, hs, hq⟩ := List.mem_flatMap.1 (List.mem_of_mem_filter hq)
    obtain ⟨p, hp, hs⟩ := List.mem_flatMap.1 hs
    obtain ⟨source', target', hsource, htarget, hne, rfl⟩ := mem_parentSteps_firstIds.1 hs
    obtain rfl := List.mem_singleton.1 hq
    cases hkey
    exact ⟨hne, p.1, List.mem_map_of_mem hp, hsource, htarget⟩
  · rintro ⟨hne, m, hm, hsource, n, hn, htarget⟩
    obtain ⟨p, hp, rfl⟩ := List.mem_map.1 hm
    have hstep : linkStep source target .implements ∈ parentSteps (firstIds models) p.1 :=
      mem_parentSteps_firstIds.2 ⟨source, target, hsource, ⟨n, hn, htarget⟩, hne, rfl⟩
    refine ⟨_, List.mem_filter.2 ⟨List.mem_flatMap.2 ⟨_, List.mem_flatMap.2 ⟨p, hp, hstep⟩,
      List.mem_singleton_self _⟩, ?_⟩, rfl⟩
    exact Bool.and_eq_true_iff.2 ⟨contains_schemaSteps hg now serviceId models hsource,
      contains_schemaSteps hg now serviceId models htarget⟩

end

/-- The first schema with a name inherits for all models that have it: it implements the first
schemas with the names of what any of them inherits from, but for itself. The schema of a model
whose name no other has implements those of what this model inherits from. -/
theorem implements_of_models {g : Graph} (h : Reachable g) (now : Instant) (slug serviceId : String)
    (models : List Model) :
    let ids := schemaIds slug [] models
    let g' := g.liftModels now serviceId ids
    ids.map Prod.fst = models
      ∧ (ids.map Prod.snd).Nodup
      ∧ (∀ id x, g'.hasRelation id x .implements = true ↔ g.hasRelation id x .implements = true
          ∨ x ≠ id ∧ ∃ m ∈ models, FirstNamed ids m.name id ∧ ∃ n ∈ inherited m, FirstNamed ids n x)
      ∧ ∀ m id, (m, id) ∈ ids → (∀ p ∈ ids, p.1.name = m.name → p = (m, id)) →
          ∀ x, g'.hasRelation id x .implements = true ↔ g.hasRelation id x .implements = true
            ∨ x ≠ id ∧ ∃ n ∈ inherited m, FirstNamed ids n x := by
  intro ids g'
  have hmodels : ids.map Prod.fst = models := map_fst_schemaIds ..
  have hrelations : ∀ id x, g'.hasRelation id x .implements = true
      ↔ g.hasRelation id x .implements = true
        ∨ x ≠ id ∧ ∃ m ∈ models, FirstNamed ids m.name id
          ∧ ∃ n ∈ inherited m, FirstNamed ids n x := by
    intro id x
    rw [hasRelation_liftModels h.coherent, hmodels]
  refine ⟨hmodels, (nodup_schemaIds ..).1, hrelations, fun m id hm hown x => ?_⟩
  refine (hrelations id x).trans (or_congr_right (and_congr_right fun _ => ⟨?_, ?_⟩))
  · rintro ⟨m', hm', hfirst, hinherited⟩
    -- no other model has this id, and none has this name
    obtain ⟨first, hmem, hname⟩ := hfirst.mem
    obtain rfl : first = m :=
      congrArg Prod.fst (List.inj_on_of_nodup_map (nodup_schemaIds ..).1 hmem hm rfl)
    obtain ⟨p, hp, rfl⟩ := List.mem_map.1 (hmodels ▸ hm')
    rwa [hown p hp hname.symm] at hinherited
  · intro hinherited
    obtain ⟨first, hfirst⟩ := exists_firstNamed hm
    obtain ⟨m', hmem, hname⟩ := hfirst.mem
    obtain rfl : first = id := congrArg Prod.snd (hown _ hmem hname)
    exact ⟨m, hmodels ▸ List.mem_map_of_mem hm, hfirst, hinherited⟩

/-- The ids of two models with one name and of a third one. -/
theorem schemaIds_repeated {a again b : Model} (ha : a.name = "A") (hagain : again.name = "A")
    (hfile : again.file = "f") (hb : b.name = "B") : schemaIds "s" [] [a, again, b]
      = [(a, "schema:s.a"), (again, "schema:s.f.a"), (b, "schema:s.b")] := by
  have hslugs : slugify "A" = "a" ∧ slugify "B" = "b" ∧ slugify "f" = "f" := by
    rw [slugify_of_printed (by decide), slugify_of_printed (by decide),
      slugify_of_printed (by decide)]
    decide
  obtain ⟨hslugA, hslugB, hslugF⟩ := hslugs
  simp only [schemaIds, schemaId, ha, hagain, hfile, hb, hslugA, hslugB, hslugF]
  rfl

/-- A second model with a name that inherits, and a model that inherits from the first one. -/
theorem implements_of_models_repeated :
    let a : Model := { name := "A", kind := .class_, file := "f", line := 1 }
    let again := { a with line := 7, parent := some "B", interfaces := ["A", "C"] }
    let b := { a with name := "B", parent := some "A" }
    let g := empty.liftModels epoch "service:s" (schemaIds "s" [] [a, again, b])
    g.hasRelation "schema:s.a" "schema:s.b" .implements = true
      ∧ g.hasRelation "schema:s.b" "schema:s.a" .implements = true
      ∧ ∀ x, x ≠ "schema:s.a" → g.hasRelation "schema:s.b" x .implements = false := by
  intro a again b g
  have hids : schemaIds "s" [] [a, again, b]
      = [(a, "schema:s.a"), (again, "schema:s.f.a"), (b, "schema:s.b")] :=
    schemaIds_repeated rfl rfl rfl rfl
  obtain ⟨-, -, hrelations, hown⟩ := implements_of_models .empty epoch "s" "service:s" [a, again, b]
  have hfirst : FirstNamed (schemaIds "s" [] [a, again, b]) "A" "schema:s.a" :=
    ⟨[], a, _, hids, rfl, List.forall_mem_nil _⟩
  have hlast : FirstNamed (schemaIds "s" [] [a, again, b]) "B" "schema:s.b" :=
    ⟨[(a, "schema:s.a"), (again, "schema:s.f.a")], b, [], hids, rfl, by decide⟩
  have honly := hown b "schema:s.b" (by rw [hids]; decide) (by rw [hids]; decide)
  refine ⟨(hrelations _ _).2 (.inr ⟨by decide, again, by decide, hfirst, "B", by decide, hlast⟩),
    (honly _).2 (.inr ⟨by decide, "A", by decide, hfirst⟩), fun x hx => ?_⟩
  rw [Bool.eq_false_iff, Ne, honly]
  rintro (h | ⟨-, n, hn, h⟩)
  · cases h
  · obtain rfl := List.mem_singleton.1 hn
    exact hx (h.unique hfirst)

/-- What the second model with a name inherits from is implemented by the schema of the first
one. -/
theorem implements_of_second :
    let a : Model := { name := "A", kind := .class_, file := "f", line := 1 }
    let again := { a with line := 7, parent := some "B" }
    let ids := schemaIds "s" [] [a, again, { a with name := "B" }]
    let g := empty.liftModels epoch "service:s" ids
    (again, "schema:s.f.a") ∈ ids
      ∧ (∃ n ∈ inherited again, FirstNamed ids n "schema:s.b")
      ∧ g.hasRelation "schema:s.f.a" "schema:s.b" .implements = false
      ∧ g.hasRelation "schema:s.a" "schema:s.b" .implements = true := by
  intro a again ids g
  have hids : ids = [(a, "schema:s.a"), (again, "schema:s.f.a"),
      ({ a with name := "B" }, "schema:s.b")] :=
    schemaIds_repeated rfl rfl rfl rfl
  have hlast : FirstNamed ids "B" "schema:s.b" :=
    ⟨[(a, "schema:s.a"), (again, "schema:s.f.a")], _, [], hids, rfl, by decide⟩
  have hg : g = empty.liftModels epoch "service:s"
      [(a, "schema:s.a"), (again, "schema:s.f.a"), ({ a with name := "B" }, "schema:s.b")] :=
    congrArg (empty.liftModels epoch "service:s") hids
  refine ⟨by rw [hids]; decide, ⟨"B", by decide, hlast⟩, ?_, ?_⟩
  · rw [hg]
    decide
  · rw [hg]
    decide

end CodeAtlas.Graph
