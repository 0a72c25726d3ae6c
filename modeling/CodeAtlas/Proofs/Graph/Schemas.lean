import CodeAtlas.Proofs.Graph.Rooted
import Mathlib.Data.List.Perm.Subperm

/-!
# Schemas

A service owns a schema for every model of its analysis. The ids of these schemas are all different:
where a name is taken, the file is added to it, and where that is taken too, a number, and counting
ends since only finitely many names are taken. A diagram makes a schema for every address, which is
that of the last resource with it, and relates what depends on an address of the diagram.
-/

namespace CodeAtlas.Graph

open Step

/-! ## Numbers -/

/-- Counting from a number up ends with an id that is not taken. -/
inductive Settles (used : List String) (base : String) : Nat → String → Prop
  | free {n : Nat} (h : base ++ "-" ++ toString n ∉ used) :
      Settles used base n (base ++ "-" ++ toString n)
  | taken {n : Nat} {id : String} (h : base ++ "-" ++ toString n ∈ used)
      (hnext : Settles used base (n + 1) id) : Settles used base n id

/-- An id that settles is not used. -/
theorem Settles.not_mem {used : List String} {base id : String} {n : Nat}
    (h : Settles used base n id) : id ∉ used := by
  induction h with
  | free h => exact h
  | taken _ _ ih => exact ih

/-- Numbers have different texts. -/
theorem toString_injective : Function.Injective (toString : Nat → String) := by
  intro m n h
  have hdigits : Nat.toDigits 10 m = Nat.toDigits 10 n := by
    simpa only [Nat.toString_eq_repr, Nat.toList_repr] using congrArg String.toList h
  rw [← Nat.ofDigitChars_ten_toDigits (n := m), hdigits, Nat.ofDigitChars_ten_toDigits]

/-- Ids with different numbers behind one base are different. -/
theorem numbered_injective (base : String) :
    Function.Injective fun n : Nat => base ++ "-" ++ toString n :=
  fun _ _ h => toString_injective ((String.append_right_inj _).1 h)

/-- Counting ends before the fuel does, or every number on the way is taken. -/
theorem settles_or_mem (used : List String) (base : String) (fuel n : Nat) :
    Settles used base n (numbered used base fuel n)
      ∨ ∀ k ≤ fuel, base ++ "-" ++ toString (n + k) ∈ used := by
  induction fuel generalizing n with
  | zero =>
      by_cases h : base ++ "-" ++ toString n ∈ used
      · right
        intro k hk
        rw [Nat.le_zero.1 hk]
        exact h
      · exact .inl (.free h)
  | succ fuel ih =>
      rw [numbered]
      by_cases h : base ++ "-" ++ toString n ∈ used
      · rw [if_pos (List.contains_iff_mem.2 h)]
        refine (ih (n + 1)).imp (.taken h) fun hall k hk => ?_
        cases k with
        | zero => exact h
        | succ k =>
            rw [Nat.add_comm k 1, ← Nat.add_assoc]
            exact hall k (Nat.le_of_succ_le_succ hk)
      · rw [if_neg fun h' => h (List.contains_iff_mem.1 h')]
        exact .inl (.free h)

/-- There are more numbers than ids that are taken. -/
theorem settles_numbered (used : List String) (base : String) (n : Nat) :
    Settles used base n (numbered used base used.length n) := by
  refine (settles_or_mem used base used.length n).resolve_right fun hall => ?_
  have hnodup : ((List.range (used.length + 1)).map fun k =>
      base ++ "-" ++ toString (n + k)).Nodup :=
    List.nodup_range.map fun _ _ h => Nat.add_left_cancel (numbered_injective base h)
  have hsubset : ((List.range (used.length + 1)).map fun k => base ++ "-" ++ toString (n + k))
      ⊆ used := by
    intro id hid
    obtain ⟨k, hk, rfl⟩ := List.mem_map.1 hid
    exact hall k (Nat.le_of_lt_succ (List.mem_range.1 hk))
  have hlength := (hnodup.subperm hsubset).length_le
  rw [List.length_map, List.length_range] at hlength
  exact Nat.not_succ_le_self _ hlength

/-! ## The ids of models -/

/-- The id that the name of a model makes. -/
def nameId (slug : String) (m : Model) : String := "schema:" ++ slug ++ "." ++ slugify m.name

/-- The id that the file and the name of a model make. -/
def fileId (slug : String) (m : Model) : String :=
  "schema:" ++ slug ++ "." ++ slugify m.file ++ "." ++ slugify m.name

/-- The id that a model gets where some ids are taken. -/
inductive Chosen (slug : String) (used : List String) (m : Model) : String → Prop
  | name (h : nameId slug m ∉ used) : Chosen slug used m (nameId slug m)
  | file (hname : nameId slug m ∈ used) (h : fileId slug m ∉ used) :
      Chosen slug used m (fileId slug m)
  | number {id : String} (hname : nameId slug m ∈ used) (hfile : fileId slug m ∈ used)
      (h : Settles used (fileId slug m) 2 id) : Chosen slug used m id

variable {slug : String} {used : List String} {models : List Model} {m : Model} {id : String}

/-- An id that is chosen is not used. -/
theorem Chosen.not_mem (h : Chosen slug used m id) : id ∉ used := by
  cases h with
  | name h => exact h
  | file _ h => exact h
  | number _ _ h => exact h.not_mem

/-- The id of a model is chosen for it. -/
theorem chosen_schemaId (slug : String) (used : List String) (m : Model) :
    Chosen slug used m (schemaId slug used m) := by
  have hid : schemaId slug used m = if used.contains (nameId slug m) then
      if used.contains (fileId slug m) then numbered used (fileId slug m) used.length 2
      else fileId slug m
    else nameId slug m := rfl
  rw [hid]
  split
  · next hname =>
    have hname := List.contains_iff_mem.1 hname
    split
    · next hfile => exact .number hname (List.contains_iff_mem.1 hfile) (settles_numbered ..)
    · next hfile => exact .file hname fun h => hfile (List.contains_iff_mem.2 h)
  · next hname => exact .name fun h => hname (List.contains_iff_mem.2 h)

/-- Every model gets an id. -/
theorem map_fst_schemaIds (slug : String) (used : List String) (models : List Model) :
    (schemaIds slug used models).map Prod.fst = models := by
  induction models generalizing used with
  | nil => rfl
  | cons m rest ih => exact congrArg (m :: ·) (ih _)

/-- The ids of the models in front are taken. -/
theorem chosen_of_schemaIds {front back : List (Model × String)}
    (h : schemaIds slug used models = front ++ (m, id) :: back) :
    Chosen slug ((front.map Prod.snd).reverse ++ used) m id := by
  induction models generalizing used front with
  | nil => exact absurd h.symm (List.append_ne_nil_of_right_ne_nil _ (List.cons_ne_nil _ _))
  | cons x rest ih =>
      rw [schemaIds] at h
      cases front with
      | nil =>
          obtain ⟨rfl, rfl⟩ := Prod.mk.injEq .. ▸ (List.cons.inj h).1
          exact chosen_schemaId slug used _
      | cons y front =>
          obtain ⟨rfl, hrest⟩ := List.cons.inj h
          have hchosen := ih hrest
          rwa [List.map_cons, List.reverse_cons, List.append_assoc]

/-- No id is taken twice. -/
theorem nodup_schemaIds (slug : String) (used : List String) (models : List Model) :
    ((schemaIds slug used models).map Prod.snd).Nodup
      ∧ ∀ id ∈ (schemaIds slug used models).map Prod.snd, id ∉ used := by
  induction models generalizing used with
  | nil => exact ⟨List.nodup_nil, List.forall_mem_nil _⟩
  | cons m rest ih =>
      obtain ⟨hnodup, hfree⟩ := ih (schemaId slug used m :: used)
      rw [schemaIds, List.map_cons]
      refine ⟨List.nodup_cons.2 ⟨fun hmem => ?_, hnodup⟩, List.forall_mem_cons.2 ⟨?_, ?_⟩⟩
      · exact hfree _ hmem List.mem_cons_self
      · exact (chosen_schemaId slug used m).not_mem
      · exact fun id hid hused => hfree id hid (List.mem_cons_of_mem _ hused)

/-! ## The schemas of models -/

/-- The entity is the schema of a model that a service has. -/
structure Describes (m : Model) (service : String) (e : Entity) : Prop where
  name : e.base.name = m.name
  description : e.base.description = m.description
  sourceRefs : e.base.sourceRefs = [m.sourceLink.getD (m.file ++ ":" ++ toString m.line)]
  detail : ∃ d, e.detail = .schema d ∧ d.serviceId = some service
    ∧ d.fields.map (fun f => (f.name, f.type, f.description, f.required))
      = m.fields.map (fun f => (f.name, f.type, f.description, f.required))
    ∧ d.definition = some (.ofMembers [("model_type", m.kind.label), ("file", m.file),
      ("line", .nat m.line), ("methods", .strings m.methods), ("parent", .ofString? m.parent),
      ("interfaces", .strings m.interfaces), ("decorators", .strings m.decorators)])

/-- The schema of a model describes it, whatever its times. -/
theorem describes_schemaOfModel (now c u : Instant) (service id : String) (m : Model) :
    Describes m service ((schemaOfModel now service id m).stamped c u) where
  name := rfl
  description := rfl
  sourceRefs := rfl
  detail := ⟨_, rfl, rfl, by rw [List.map_map]; rfl, rfl⟩

namespace Report

variable {g : Graph} {now : Instant} {r : Report}

/-- All steps at the id of a model make its schema. -/
theorem stepsAt_of_model (hm : (m, id) ∈ schemaIds (slugify r.name) [] r.analysis.models) :
    r.Writes id
      ∧ ∀ s ∈ r.stepsAt id, s = .renew (schemaOfModel epoch r.serviceId id m) := by
  have hmem : .renew (schemaOfModel epoch r.serviceId id m) ∈ r.stepsAt id :=
    mem_stepsAt (mem_of_mem_schemaSteps (List.mem_flatMap.2 ⟨_, hm, List.mem_cons_self⟩)) rfl
  have hwrites : r.Writes id := List.ne_nil_of_mem hmem
  have hoccurs : Occurs r.name r.url? r.analysis .schema id
      (.renew (schemaOfModel epoch r.serviceId id m)) := .model hm
  obtain ⟨part, hall⟩ := exists_part hwrites
  obtain rfl : part = .schema := (hall _ hmem).part_eq hoccurs
  refine ⟨hwrites, fun s hs => ?_⟩
  cases hall s hs with
  | @model m' _ hm' =>
      -- no other model has this id
      have hnodup := (nodup_schemaIds (slugify r.name) [] r.analysis.models).1
      obtain rfl : m' = m := congrArg Prod.fst (List.inj_on_of_nodup_map hnodup hm' hm rfl)
      rfl

/-- Behind a report there is a schema under the id of every model. -/
theorem exists_describes (hg : g.Coherent) (now : Instant)
    (hm : (m, id) ∈ schemaIds (slugify r.name) [] r.analysis.models) :
    ∃ e, (g.receive now r).get? id = some e ∧ Describes m r.serviceId e := by
  obtain ⟨hwrites, hsteps⟩ := stepsAt_of_model hm
  exact exists_renewed hg now hwrites fun s hs =>
    ⟨_, hsteps s hs, fun c u => describes_schemaOfModel ..⟩

end Report

/-- Every model of a report gets an id of its own: that of its name, or else that of its file and
name, or else one with a number. Behind the report the schema under this id is that of the model,
and the service owns it. -/
theorem schemas_of_models {g : Graph} (h : Reachable g) (now : Instant) (r : Report) :
    let models := schemaIds (slugify r.name) [] r.analysis.models
    models.map Prod.fst = r.analysis.models
      ∧ (models.map Prod.snd).Nodup
      ∧ (∀ front m id back, models = front ++ (m, id) :: back →
          Chosen (slugify r.name) (front.map Prod.snd).reverse m id)
      ∧ ∀ m id, (m, id) ∈ models →
          (∃ e, (g.receive now r).get? id = some e ∧ Describes m r.serviceId e)
          ∧ (g.receive now r).hasRelation r.serviceId id .owns = true := by
  intro models
  have hg := h.coherent
  refine ⟨map_fst_schemaIds .., (nodup_schemaIds ..).1, ?_, ?_⟩
  · intro front m id back hsplit
    have hchosen := chosen_of_schemaIds hsplit
    rwa [List.append_nil] at hchosen
  · intro m id hm
    refine ⟨Report.exists_describes hg now hm, ?_⟩
    refine (Report.hasRelation_receive hg now r (by decide)).2
      (.inr (Report.has_owns.2 ⟨rfl, .inl ?_⟩))
    exact List.mem_map_of_mem hm

/-- Three models with one name in one file and one whose name is like an id with a number. -/
theorem schemas_of_models_numbered :
    let m : Model := { name := "X", kind := .class_, file := "f", line := 1 }
    let r : Report := { name := "S", analysis := {
      language := "python", models := [{ m with name := "f.x-2" }, m, { m with line := 2 },
        { m with line := 3 }] } }
    let g := empty.receive epoch r
    (schemaIds (slugify r.name) [] r.analysis.models).map Prod.snd
        = ["schema:s.f.x-2", "schema:s.x", "schema:s.f.x", "schema:s.f.x-3"]
      ∧ Chosen "s" ["schema:s.f.x", "schema:s.x", "schema:s.f.x-2"] { m with line := 3 }
        "schema:s.f.x-3"
      ∧ (∃ e, g.get? "schema:s.f.x-3" = some e ∧ Describes { m with line := 3 } r.serviceId e)
      ∧ g.hasRelation r.serviceId "schema:s.f.x-3" .owns = true := by
  intro m r g
  have hservice : slugify "S" = "s" := by
    rw [slugify_of_printed (by decide)]
    decide
  have hname : slugify "X" = "x" := by
    rw [slugify_of_printed (by decide)]
    decide
  have hfile : slugify "f" = "f" := by
    rw [slugify_of_printed (by decide)]
    decide
  have hlike : slugify "f.x-2" = "f.x-2" := by
    rw [slugify_of_printed (by decide)]
    decide
  have hids : schemaIds (slugify r.name) [] r.analysis.models
      = [({ m with name := "f.x-2" }, "schema:s.f.x-2"), (m, "schema:s.x"),
        ({ m with line := 2 }, "schema:s.f.x"), ({ m with line := 3 }, "schema:s.f.x-3")] := by
    simp only [r, m, schemaIds, schemaId, hservice, hname, hfile, hlike]
    decide
  obtain ⟨-, -, hchosen, hschemas⟩ := schemas_of_models .empty epoch r
  rw [hids] at hchosen hschemas
  have hlast := hchosen [_, _, _] _ _ [] rfl
  rw [hservice] at hlast
  rw [hids]
  exact ⟨rfl, hlast, hschemas _ _ (List.mem_append_right [_, _, _] List.mem_cons_self)⟩

/-! ## Resources -/

/-- The entity is the schema of a resource: it has the address as its name, what it depends on as
its relationships, and all else in its definition, and belongs to the owner. -/
structure Carries (now : Instant) (owner? : Option String) (r : Infra.Resource) (e : Entity) :
    Prop where
  id : e.base.id = "infra:" ++ r.address
  name : e.base.name = r.address
  description : e.base.description = none
  metadata : e.base.metadata = []
  sourceRefs : e.base.sourceRefs = [r.file ++ ":" ++ toString r.line]
  createdAt : e.base.createdAt = now
  updatedAt : e.base.updatedAt = now
  detail : ∃ d, e.detail = .schema d ∧ d.schemaType = "infrastructure" ∧ d.serviceId = owner?
    ∧ d.relationships = r.dependencies ∧ d.fields = [] ∧ d.graphqlKind = none
    ∧ d.definition = some (.ofMembers [("kind", r.kind), ("resource_type", r.resourceType),
      ("name", r.name), ("file", r.file), ("line", .nat r.line),
      ("attributes", .ofMembers (r.attributes.map fun a => (a.1, .str a.2)))])

/-- The schema of a resource carries it. -/
theorem carries_schemaOfResource (now : Instant) (owner? : Option String) (r : Infra.Resource) :
    Carries now owner? r (schemaOfResource now owner? r) where
  id := rfl
  name := rfl
  description := rfl
  metadata := rfl
  sourceRefs := rfl
  createdAt := rfl
  updatedAt := rfl
  detail := ⟨_, rfl, rfl, rfl, rfl, rfl, rfl, rfl⟩

/-- The relations that a diagram makes. -/
inductive Lifted (owner? : Option String) (d : Infra.Diagram) : Relation → Prop
  | owns {owner : String} {r : Infra.Resource} (ho : owner? = some owner) (hr : r ∈ d.resources) :
      Lifted owner? d ⟨owner, "infra:" ++ r.address, .owns, []⟩
  | dependsOn {r r' : Infra.Resource} (hr : r ∈ d.resources) (hr' : r' ∈ d.resources)
      (h : r'.address ∈ r.dependencies) : Lifted owner? d
      ⟨"infra:" ++ r.address, "infra:" ++ r'.address, .dependsOn, [("source", "terraform")]⟩

/-- A relation that comes from resources leads to the schema of an address. -/
theorem Lifted.exists_target {owner? : Option String} {d : Infra.Diagram} {q : Relation}
    (h : Lifted owner? d q) : ∃ a, q.target = "infra:" ++ a := by
  cases h with
  | owns => exact ⟨_, rfl⟩
  | dependsOn => exact ⟨_, rfl⟩

/-- The type of a relation tells its notes. -/
theorem Lifted.metadata_eq {owner? : Option String} {d : Infra.Diagram} {q : Relation}
    (h : Lifted owner? d q) :
    q.metadata = if q.type = .owns then [] else [("source", .str "terraform")] := by
  cases h with
  | owns => rfl
  | dependsOn => rfl

/-- A relation that comes from resources is told by its key. -/
theorem Lifted.eq_of_key {owner? : Option String} {d : Infra.Diagram} {p q : Relation}
    (hp : Lifted owner? d p) (hq : Lifted owner? d q) (hkey : p.key = q.key) : p = q := by
  obtain ⟨s, t, type, metadata⟩ := p
  obtain ⟨s', t', type', metadata'⟩ := q
  simp only [Relation.key, Prod.mk.injEq] at hkey
  obtain ⟨rfl, rfl, rfl⟩ := hkey
  have hmetadata : metadata = metadata' := hp.metadata_eq.trans hq.metadata_eq.symm
  rw [hmetadata]

/-- Ids of resources are the same if the addresses are. -/
theorem infra_inj {a b : String} : "infra:" ++ a = "infra:" ++ b ↔ a = b :=
  String.append_right_inj _

/-- The steps for an address renew its schema. -/
theorem filter_placeSteps (owner? : Option String) (resources : List Infra.Resource) (a : String) :
    (placeSteps owner? resources).filter (fun s => s.id? = some ("infra:" ++ a))
      = (resources.filter fun r => r.address = a).map fun r =>
        .renew (schemaOfResource epoch owner? r) := by
  induction resources with
  | nil => rfl
  | cons r rest ih =>
      have hlink :
          ((owner?.map fun owner => linkStep owner ("infra:" ++ r.address) .owns).toList).filter
          (fun s => s.id? = some ("infra:" ++ a)) = [] := by
        cases owner? with
        | none => rfl
        | some owner => rfl
      have hid : (Step.renew (schemaOfResource epoch owner? r)).id? = some ("infra:" ++ a)
          ↔ r.address = a := Option.some_inj.trans infra_inj
      have hsplit : placeSteps owner? (r :: rest) = .renew (schemaOfResource epoch owner? r)
          :: ((owner?.map fun owner => linkStep owner ("infra:" ++ r.address) .owns).toList
            ++ placeSteps owner? rest) := rfl
      rw [hsplit, List.filter_cons, List.filter_append, hlink, List.nil_append, ih,
        List.filter_cons]
      by_cases h : r.address = a
      · rw [if_pos (decide_eq_true (hid.2 h)), if_pos (decide_eq_true h), List.map_cons]
      · rw [if_neg fun h' => h (hid.1 (of_decide_eq_true h')),
          if_neg fun h' => h (of_decide_eq_true h')]

/-- Where there was nothing, the last of some renewals counts. -/
theorem foldl_apply_renewals (now : Instant) (l : List Entity) :
    (l.map Step.renew).foldl (apply now) none = l.getLast?.map fun e => e.stamped now now := by
  induction l using List.reverseRecOn with
  | nil => rfl
  | append_singleton l e ih =>
      rw [List.map_append, List.foldl_append, ih, List.getLast?_concat]
      cases l.getLast? with
      | none => rfl
      | some old => rfl

section
variable {g : Graph} {owner? : Option String} {d : Infra.Diagram}

/-- Only the schemas of the resources change. -/
theorem exists_of_id? {s : Step} (hs : s ∈ placeSteps owner? d.resources ++ dependencySteps d)
    {id : String} (hid : s.id? = some id) : ∃ r ∈ d.resources, "infra:" ++ r.address = id := by
  rcases List.mem_append.1 hs with hs | hs
  · obtain ⟨r, hr, rfl | ⟨owner, -, rfl⟩⟩ := mem_placeSteps.1 hs
    · exact ⟨r, hr, Option.some.inj hid⟩
    · cases hid
  · cases (id?_of_mem_dependencySteps hs).symm.trans hid

/-- Lifting resources leaves the entities with other ids. -/
theorem get?_liftInfrastructure_of_ne (hg : g.Coherent) (now : Instant) {id : String}
    (h : ∀ r ∈ d.resources, "infra:" ++ r.address ≠ id) :
    (g.liftInfrastructure now owner? d).1.get? id = g.get? id := by
  have hnone : (placeSteps owner? d.resources ++ dependencySteps d).filter
      (fun s => s.id? = some id) = [] := by
    refine List.filter_eq_nil_iff.2 fun s hs hid => ?_
    obtain ⟨r, hr, heq⟩ := exists_of_id? hs (of_decide_eq_true hid)
    exact h r hr heq
  rw [liftInfrastructure_fst, get?_runAll hg, hnone]
  rfl

/-- The last resource with an address counts. -/
theorem get?_liftInfrastructure (hg : g.Coherent) (now : Instant) {a : String}
    (hfree : g.contains ("infra:" ++ a) = false) :
    (g.liftInfrastructure now owner? d).1.get? ("infra:" ++ a)
      = (d.resources.filter fun r => r.address = a).getLast?.map (schemaOfResource now owner?) := by
  have hget : g.get? ("infra:" ++ a) = none := by
    refine Option.eq_none_iff_forall_ne_some.2 fun e he => ?_
    exact Bool.false_ne_true (hfree.symm.trans (hg.contains_iff.2 ⟨e, he⟩))
  have hdependencies : (dependencySteps d).filter (fun s => s.id? = some ("infra:" ++ a)) = [] := by
    refine List.filter_eq_nil_iff.2 fun s hs hid => ?_
    cases (id?_of_mem_dependencySteps hs).symm.trans (of_decide_eq_true hid)
  have hrenewals : ∀ l : List Infra.Resource,
      (l.map fun r => .renew (schemaOfResource epoch owner? r))
      = (l.map (schemaOfResource epoch owner?)).map Step.renew := fun l => List.map_map.symm
  rw [liftInfrastructure_fst, get?_runAll hg, List.filter_append, filter_placeSteps, hdependencies,
    List.append_nil, hget, hrenewals, foldl_apply_renewals, List.getLast?_map, Option.map_map]
  rfl

/-- The schema under an address carries the resource behind which no other has the address. -/
theorem exists_carries (hg : g.Coherent) (now : Instant) {front back : List Infra.Resource}
    {r : Infra.Resource} (hfree : g.contains ("infra:" ++ r.address) = false)
    (hsplit : d.resources = front ++ r :: back) (hlast : ∀ x ∈ back, x.address ≠ r.address) :
    ∃ e, (g.liftInfrastructure now owner? d).1.get? ("infra:" ++ r.address) = some e
      ∧ Carries now owner? r e := by
  have hback : back.filter (fun x => x.address = r.address) = [] :=
    List.filter_eq_nil_iff.2 fun x hx h => hlast x hx (of_decide_eq_true h)
  have hfilter : (d.resources.filter fun x => x.address = r.address).getLast? = some r := by
    rw [hsplit, List.filter_append, List.filter_cons, if_pos (decide_eq_true rfl), hback,
      List.getLast?_concat]
  refine ⟨_, ?_, carries_schemaOfResource now owner? r⟩
  rw [get?_liftInfrastructure hg now hfree, hfilter, Option.map_some]

/-- What is there stays in front. -/
theorem prefix_entities_liftInfrastructure (hg : g.Coherent) (now : Instant)
    (hfree : ∀ a, g.contains ("infra:" ++ a) = false) :
    g.entities <+: (g.liftInfrastructure now owner? d).1.entities := by
  have hother : ∀ s ∈ placeSteps owner? d.resources ++ dependencySteps d,
      ∀ id, s.id? = some id → id ∉ g.entities.map Entity.id := by
    intro s hs id hid hmem
    obtain ⟨r, -, rfl⟩ := exists_of_id? hs hid
    exact Bool.false_ne_true ((hfree _).symm.trans (hg.contains_iff_mem.2 hmem))
  obtain ⟨back, hback⟩ := entities_runAll_append hg now (List.append_nil _).symm hother
  rw [liftInfrastructure_fst, hback]
  exact List.prefix_append ..

/-- The relations of an owner are with schemas that were made before. -/
theorem grounded_placeSteps (owner? : Option String) (resources : List Infra.Resource) :
    Grounded owner?.toList (placeSteps owner? resources) := by
  refine grounded_flatMap fun r _ => ?_
  cases owner? with
  | none => exact ⟨nofun, trivial⟩
  | some owner =>
      refine ⟨nofun, grounded_linkStep ?_ ?_ _⟩
      · exact List.mem_append_right _ (List.mem_singleton_self owner)
      · exact List.mem_append_left _ (List.mem_singleton_self _)

/-- Of the dependencies those count of which the diagram has the address. -/
theorem mem_lifted_iff {h : Graph}
    (hmade : ∀ a, h.contains ("infra:" ++ a) = true ↔ ∃ r ∈ d.resources, r.address = a)
    {q : Relation} : q ∈ (placeSteps owner? d.resources).flatMap Step.relations
        ++ ((dependencySteps d).flatMap Step.relations).filter (hasEnds h) ↔ Lifted owner? d q := by
  rw [List.mem_append, List.mem_filter, List.mem_flatMap, List.mem_flatMap]
  constructor
  · rintro (⟨s, hs, hq⟩ | ⟨⟨s, hs, hq⟩, hends⟩)
    · obtain ⟨r, hr, rfl | ⟨owner, ho, rfl⟩⟩ := mem_placeSteps.1 hs
      · cases hq
      · obtain rfl := List.mem_singleton.1 hq
        exact .owns ho hr
    · obtain ⟨r, hr, dependency, hdependency, rfl⟩ := mem_dependencySteps.1 hs
      obtain rfl := List.mem_singleton.1 hq
      obtain ⟨r', hr', rfl⟩ := (hmade dependency).1 (Bool.and_eq_true_iff.1 hends).2
      exact .dependsOn hr hr' hdependency
  · rintro (⟨ho, hr⟩ | ⟨hr, hr', h⟩)
    · exact .inl ⟨_, mem_placeSteps.2 ⟨_, hr, .inr ⟨_, ho, rfl⟩⟩, List.mem_singleton_self _⟩
    · refine .inr ⟨⟨_, mem_dependencySteps.2 ⟨_, hr, _, h, rfl⟩, List.mem_singleton_self _⟩, ?_⟩
      exact Bool.and_eq_true_iff.2 ⟨(hmade _).2 ⟨_, hr, rfl⟩, (hmade _).2 ⟨_, hr', rfl⟩⟩

/-- Lifting resources keeps a graph coherent. -/
theorem coherent_liftInfrastructure (hg : g.Coherent) (now : Instant) (owner? : Option String)
    (d : Infra.Diagram) : (g.liftInfrastructure now owner? d).1.Coherent := by
  rw [liftInfrastructure_fst]
  exact coherent_runAll hg now _

/-- There is a schema for every address and for no other. -/
theorem contains_liftInfrastructure (hg : g.Coherent) (now : Instant)
    (hfree : ∀ a, g.contains ("infra:" ++ a) = false) (a : String) :
    (g.liftInfrastructure now owner? d).1.contains ("infra:" ++ a) = true
      ↔ ∃ r ∈ d.resources, r.address = a := by
  rw [(coherent_liftInfrastructure hg now owner? d).contains_iff, ← Option.isSome_iff_exists,
    get?_liftInfrastructure hg now (hfree a), Option.isSome_map, List.getLast?_isSome, Ne,
    List.filter_eq_nil_iff]
  simp only [decide_eq_true_iff, not_forall, not_not, exists_prop]

/-- The relations of a diagram come behind all others. -/
theorem relations_liftInfrastructure (hg : g.Coherent) (now : Instant)
    (howner : ∀ owner, owner? = some owner → g.contains owner = true)
    (hfree : ∀ a, g.contains ("infra:" ++ a) = false) :
    ∃ relations, (g.liftInfrastructure now owner? d).1.relations = g.relations ++ relations
      ∧ ∀ q, q ∈ relations ↔ Lifted owner? d q := by
  have hknown : ∀ id ∈ owner?.toList, g.contains id = true :=
    fun id hid => howner id (Option.mem_toList.1 hid)
  have hrelations := relations_runAll hg now hknown (grounded_placeSteps owner? d.resources)
    fun s hs => made_of_mem_dependencySteps (d := d) hs
  rw [← liftInfrastructure_fst] at hrelations
  obtain ⟨new, hlifted, hrelations⟩ : ∃ new, (∀ q, q ∈ new ↔ Lifted owner? d q)
      ∧ (g.liftInfrastructure now owner? d).1.relations
        = Keyed.union Relation.key Keyed.last g.relations new :=
    ⟨_, fun _ => mem_lifted_iff (contains_liftInfrastructure hg now hfree), hrelations⟩
  -- no relation that was there leads to an address
  have hother : ∀ q ∈ new, ∀ p ∈ g.relations, p.key ≠ q.key := by
    intro q hq p hp hkey
    obtain ⟨a, ha⟩ := ((hlifted q).1 hq).exists_target
    have htarget : p.target = "infra:" ++ a := (congrArg (fun k => k.2.1) hkey).trans ha
    have hcontains := (hg.contains_ends hp).2
    rw [htarget, hfree] at hcontains
    cases hcontains
  have happend : Keyed.union Relation.key Keyed.last (g.relations ++ []) new
      = g.relations ++ Keyed.union Relation.key Keyed.last [] new := Keyed.union_append hother []
  rw [List.append_nil] at happend
  refine ⟨_, hrelations.trans happend, fun q => ?_⟩
  have hnil : (([] : List Relation).map Relation.key).Nodup := List.nodup_nil
  have hkeys : ∀ p ∈ new, ∀ q ∈ new, p.key = q.key → p = q :=
    fun p hp q hq => ((hlifted p).1 hp).eq_of_key ((hlifted q).1 hq)
  rw [Keyed.mem_union_last_iff hnil hkeys, hlifted]
  exact or_iff_left fun h => List.not_mem_nil h.1

end

/-- A diagram that is lifted into a graph without resources makes a schema for every address, which
carries the last resource with it and which the owner owns. What depends on an address of the
diagram is related to its schema, once. Nothing else changes. -/
theorem schemas_of_resources {g : Graph} (h : Reachable g) (now : Instant) {owner? : Option String}
    (howner : ∀ owner, owner? = some owner → g.contains owner = true)
    (hfree : ∀ a, g.contains ("infra:" ++ a) = false) (d : Infra.Diagram) :
    let g' := (g.liftInfrastructure now owner? d).1
    (∀ a, g'.contains ("infra:" ++ a) = true ↔ ∃ r ∈ d.resources, r.address = a)
      ∧ (∀ front r back, d.resources = front ++ r :: back → (∀ x ∈ back, x.address ≠ r.address) →
          ∃ e, g'.get? ("infra:" ++ r.address) = some e ∧ Carries now owner? r e)
      ∧ (∀ a b, g'.hasRelation ("infra:" ++ a) ("infra:" ++ b) .dependsOn = true
          ↔ (∃ r ∈ d.resources, r.address = a ∧ b ∈ r.dependencies)
            ∧ ∃ r ∈ d.resources, r.address = b)
      ∧ (∀ owner, owner? = some owner → ∀ r ∈ d.resources,
          g'.hasRelation owner ("infra:" ++ r.address) .owns = true)
      ∧ (g'.relations.map Relation.key).Nodup
      ∧ (∃ relations, g'.relations = g.relations ++ relations
          ∧ ∀ q, q ∈ relations ↔ Lifted owner? d q)
      ∧ g.entities <+: g'.entities
      ∧ ∀ id, (∀ r ∈ d.resources, "infra:" ++ r.address ≠ id) → g'.get? id = g.get? id := by
  intro g'
  have hg := h.coherent
  have hcoherent : g'.Coherent := coherent_liftInfrastructure hg now owner? d
  obtain ⟨relations, hrelations, hlifted⟩ :=
    relations_liftInfrastructure hg now howner hfree (d := d)
  have hhas : ∀ {q}, Lifted owner? d q → g'.hasRelation q.source q.target q.type = true := by
    intro q hq
    refine hcoherent.hasRelation_iff.2 ⟨q, ?_, rfl⟩
    exact hrelations ▸ List.mem_append_right _ ((hlifted q).2 hq)
  refine ⟨contains_liftInfrastructure hg now hfree,
    fun front r back hsplit hlast => exists_carries hg now (hfree r.address) hsplit hlast, ?_, ?_,
    hcoherent.relation_keys_nodup, ⟨relations, hrelations, hlifted⟩,
    prefix_entities_liftInfrastructure hg now hfree, fun id => get?_liftInfrastructure_of_ne hg now⟩
  · intro a b
    constructor
    · -- an edge between two resources is new, as `g` held no address
      intro hrelation
      obtain ⟨q, hq, hkey⟩ := hcoherent.hasRelation_iff.1 hrelation
      rw [hrelations] at hq
      rcases List.mem_append.1 hq with hq | hq
      · have hsource : q.source = "infra:" ++ a := congrArg Prod.fst hkey
        have hcontains := (hg.contains_ends hq).1
        rw [hsource, hfree] at hcontains
        cases hcontains
      · simp only [Relation.key, Prod.mk.injEq] at hkey
        cases (hlifted q).1 hq with
        | owns => cases hkey.2.2
        | dependsOn hr hr' hdependency =>
            obtain rfl := infra_inj.1 hkey.1
            obtain rfl := infra_inj.1 hkey.2.1
            exact ⟨⟨_, hr, rfl, hdependency⟩, _, hr', rfl⟩
    · rintro ⟨⟨r, hr, rfl, hdependency⟩, r', hr', rfl⟩
      exact hhas (.dependsOn hr hr' hdependency)
  · -- the owner owns every resource, also one that is declared twice
    exact fun owner ho r hr => hhas (.owns ho hr)

/-- Two resources with one address, one of which depends on itself and on one that is missing. -/
theorem schemas_of_resources_repeated :
    let queue : Infra.Resource := {
      address := "aws_sqs_queue.q", resourceType := "aws_sqs_queue", name := "q", kind := "resource"
      file := "main.tf", line := 1, dependencies := ["aws_sqs_queue.q", "aws_sns_topic.t"] }
    let later : Infra.Resource :=
      { queue with line := 9, dependencies := [], attributes := [("fifo", "true")] }
    let d : Infra.Diagram := { resources := [queue, later] }
    let g := empty.addEntity epoch (Entity.new epoch "service:shop" "Shop" (.service {}))
    let g' := (g.liftInfrastructure epoch (some "service:shop") d).1
    (∃ e, g'.get? "infra:aws_sqs_queue.q" = some e ∧ Carries epoch (some "service:shop") later e)
      ∧ g'.hasRelation "infra:aws_sqs_queue.q" "infra:aws_sqs_queue.q" .dependsOn = true
      ∧ g'.contains "infra:aws_sns_topic.t" = false
      ∧ g'.hasRelation "service:shop" "infra:aws_sqs_queue.q" .owns = true
      ∧ g'.get? "service:shop" = g.get? "service:shop" := by
  intro queue later d g g'
  have hg : Reachable g := .addEntity _ _ .empty
  have howner : ∀ owner, some "service:shop" = some owner → g.contains owner = true := by
    intro owner ho
    cases ho
    decide
  -- no address is an entity yet: the labels in front of the colon differ
  have hfree : ∀ a, g.contains ("infra:" ++ a) = false := by
    intro a
    refine Bool.eq_false_iff.2 fun h => ?_
    have hids : g.entities.map Entity.id = ["service:shop"] := by decide
    rw [hg.coherent.contains_iff_mem, hids, List.mem_singleton] at h
    have hlabel : "infra" = "service" :=
      (append_colon_inj (x := a) (y := "shop") (by decide) (by decide) h).1
    exact absurd hlabel (by decide)
  obtain ⟨hcontains, hcarries, hdepends, howns, -, -, -, hother⟩ :=
    schemas_of_resources hg epoch howner hfree d
  refine ⟨hcarries [queue] later [] rfl (List.forall_mem_nil _),
    (hdepends "aws_sqs_queue.q" "aws_sqs_queue.q").2 ?_, ?_, howns _ rfl queue List.mem_cons_self,
      hother _ ?_⟩
  · exact ⟨⟨queue, List.mem_cons_self, rfl, List.mem_cons_self⟩, queue, List.mem_cons_self, rfl⟩
  · refine Bool.eq_false_iff.2 fun h => ?_
    have hnone : ¬ ∃ r ∈ d.resources, r.address = "aws_sns_topic.t" := by decide
    exact hnone ((hcontains "aws_sns_topic.t").1 h)
  · decide

end CodeAtlas.Graph
