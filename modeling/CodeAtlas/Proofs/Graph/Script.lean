import CodeAtlas.Proofs.Graph.Merge
import CodeAtlas.Proofs.Graph.Step

/-!
# Scripts

A script is a list of steps that a graph takes one after the other. What a script makes of the
entity under an id depends on that entity only. A relation between entities that were made before
always holds, and one that comes behind all other steps holds if both of its ends are there in the
end. So a script of such relations that settles every id does nothing new when it is run again.
-/

namespace CodeAtlas.Graph

variable {g : Graph} {now now' t : Instant}

/-- Adding an entity whose id is there keeps the time at which that was made. -/
theorem addEntity_of_some {e old : Entity} (h : g.get? e.id = some old) :
    g.addEntity now e = g.put (e.stamped old.base.createdAt now) := by
  rw [addEntity, h]
  rfl

/-- Adding an entity whose id is not there puts it in. -/
theorem addEntity_of_none {e : Entity} (h : g.get? e.id = none) : g.addEntity now e = g.put e := by
  rw [addEntity, h]

/-- Joining relations with others relates what either of them does. -/
theorem hasRelation_of_union {g' : Graph} (hg : g.Coherent) (hg' : g'.Coherent)
    {new : List Relation} (h : g'.relations = Keyed.union Relation.key Keyed.last g.relations new)
    {source target : String} {type : RelationType} : g'.hasRelation source target type = true
      ↔ g.hasRelation source target type = true ∨ ∃ q ∈ new, q.key = (source, target, type) := by
  rw [hg'.hasRelation_iff, hg.hasRelation_iff, h]
  constructor
  · rintro ⟨q, hq, hkey⟩
    exact (Keyed.mem_union Keyed.picks_last hq).imp (fun hq => ⟨q, hq, hkey⟩) fun hq =>
      ⟨q, hq, hkey⟩
  · intro hkeys
    have hmem : (source, target, type)
        ∈ (Keyed.union Relation.key Keyed.last g.relations new).map Relation.key := by
      rcases hkeys with ⟨q, hq, hkey⟩ | ⟨q, hq, hkey⟩
      · exact hkey ▸ Keyed.mem_keys_union_left (Keyed.key_last _) (List.mem_map_of_mem hq) _
      · exact hkey ▸ Keyed.mem_keys_union_right (Keyed.key_last _) hq _
    exact List.mem_map.1 hmem

namespace Step

/-- The graph behind a step. -/
def run (now : Instant) (g : Graph) : Step → Graph
  | renew e => g.addEntity now (e.stamped now now)
  | extend id service category target operations =>
      g.addEntity now (g.integrationFor now service id category target operations)
  | mark id key value =>
      match g.get? id with
      | some e => if e.type == .service then g.addEntity now (e.note key value) else g
      | none => g
  | relate r => g.relate r

/-- What extending makes of the entity under an id. -/
theorem integrationFor_of_some (now : Instant) (hg : g.Coherent) {id : String} {old : Entity}
    (h : g.get? id = some old) (service category target : String) (operations : List String) :
    (g.integrationFor now service id category target operations).id = id
      ∧ (g.integrationFor now service id category target operations).stamped old.base.createdAt now
        = onto now old (.extend id service category target operations) := by
  have hid : old.id = id := (hg.get?_eq_some_iff_mem.1 h).2
  obtain ⟨base, detail⟩ := old
  rw [integrationFor, h]
  cases detail with
  | integration d => exact ⟨hid, rfl⟩
  | _ => exact ⟨rfl, rfl⟩

/-- What a step does: it adds a relation, or puts what it makes of the entity under its id, or
leaves that one. -/
theorem run_cases (hg : g.Coherent) (now : Instant) (s : Step) :
    (∃ r, s = .relate r)
    ∨ (∃ e, s.id? = some e.id ∧ s.apply now (g.get? e.id) = some e ∧ s.run now g = g.put e)
    ∨ ∃ id, s.id? = some id ∧ s.apply now (g.get? id) = g.get? id ∧ s.run now g = g := by
  cases s with
  | renew e =>
      -- a renewed entity is put in any case, stamped with the time of its first writing
      refine .inr (.inl ?_)
      cases h : g.get? e.id with
      | some old =>
          refine ⟨e.stamped old.base.createdAt now, rfl, ?_, addEntity_of_some h⟩
          rw [Entity.id_stamped, h]
          rfl
      | none =>
          refine ⟨e.stamped now now, rfl, ?_, addEntity_of_none h⟩
          rw [Entity.id_stamped, h]
          rfl
  | extend id service category target operations =>
      -- an integration is put too, made from the one before where there is one
      refine .inr (.inl ?_)
      cases h : g.get? id with
      | some old =>
          obtain ⟨hid, heq⟩ := integrationFor_of_some now hg h service category target
            operations
          refine ⟨onto now old (.extend id service category target operations), ?_, ?_, ?_⟩
          · rw [← heq, Entity.id_stamped, hid]
            rfl
          · rw [← heq, Entity.id_stamped, hid, heq, h]
            rfl
          · rw [← heq]
            exact addEntity_of_some (by rw [hid, h])
      | none =>
          refine ⟨g.integrationFor now service id category target operations, ?_, ?_, ?_⟩
          · rw [integrationFor, h]
            rfl
          · rw [integrationFor, h]
            show apply now (g.get? id) _ = _
            rw [h]
            rfl
          · refine addEntity_of_none ?_
            rw [integrationFor, h]
            exact h
  | mark id key value =>
      -- a mark is set on a service only, every other entity stays as it is
      cases h : g.get? id with
      | none => exact .inr (.inr ⟨id, rfl, by rw [h]; rfl, by rw [run, h]⟩)
      | some old =>
          have hid : old.id = id := (hg.get?_eq_some_iff_mem.1 h).2
          by_cases hty : (old.type == .service) = true
          · have honto : onto now old (.mark id key value)
                = (old.note key value).stamped old.base.createdAt now := if_pos hty
            refine .inr (.inl ⟨onto now old (.mark id key value), ?_, ?_, ?_⟩)
            · rw [honto, Entity.id_stamped]
              exact congrArg some hid.symm
            · rw [honto, Entity.id_stamped, show (old.note key value).id = id from hid, h, ← honto]
              rfl
            · have hadd : g.addEntity now (old.note key value) = _ :=
                addEntity_of_some (e := old.note key value) (hid ▸ h)
              rw [honto, ← hadd, run, h]
              exact if_pos hty
          · refine .inr (.inr ⟨id, rfl, ?_, ?_⟩)
            · rw [h]
              exact congrArg some (if_neg hty)
            · rw [run, h]
              exact if_neg hty
  | relate r => exact .inl ⟨r, rfl⟩

/-- A step keeps a graph coherent. -/
theorem coherent_run (hg : g.Coherent) (now : Instant) (s : Step) : (s.run now g).Coherent := by
  rcases run_cases hg now s with ⟨r, rfl⟩ | ⟨e, -, -, hrun⟩ | ⟨id, -, -, hrun⟩
  · exact hg.relate r
  · rw [hrun]
    exact hg.put e
  · rw [hrun]
    exact hg

/-- A step changes what is under its id and nothing else. -/
theorem get?_run (hg : g.Coherent) (now : Instant) (s : Step) (id : String) :
    (s.run now g).get? id = if s.id? = some id then s.apply now (g.get? id) else g.get? id := by
  rcases run_cases hg now s with ⟨r, rfl⟩ | ⟨e, hid, happly, hrun⟩ | ⟨id', hid, happly, hrun⟩
  · rw [if_neg nofun]
    exact Coherent.get?_relate g r id
  · rw [hrun, hg.get?_put, hid]
    by_cases h : id = e.id
    · rw [if_pos h, if_pos (congrArg some h.symm), h, happly]
    · rw [if_neg h, if_neg fun h' => h (Option.some.inj h').symm]
  · rw [hrun, hid]
    by_cases h : some id' = some id
    · rw [if_pos h, ← Option.some.inj h, happly]
    · rw [if_neg h]

/-- A step leaves the ids and their order if there is an entity under its id or it makes none. -/
theorem map_id_run (hg : g.Coherent) (now : Instant) {s : Step}
    (h : ∀ id, s.id? = some id → g.get? id = none → s.fresh? now = none) :
    (s.run now g).entities.map Entity.id = g.entities.map Entity.id := by
  rcases run_cases hg now s with ⟨r, rfl⟩ | ⟨e, hid, happly, hrun⟩ | ⟨id, -, -, hrun⟩
  · exact congrArg _ (Coherent.entities_relate g r)
  · have hmem : e.id ∈ g.entities.map Entity.id := by
      refine hg.contains_iff_mem.1
        (hg.contains_iff.2 (Option.ne_none_iff_exists'.1 fun hnone => ?_))
      rw [hnone] at happly
      exact nomatch (h _ hid hnone).symm.trans happly
    rw [hrun, hg.entities_put, Keyed.keys_upsert (Keyed.key_last Entity.id), if_pos hmem]
  · rw [hrun]

/-- The relations that a step adds. -/
def relations : Step → List Relation
  | relate r => [r]
  | _ => []

/-- A step that makes an entity adds no relation. -/
theorem relations_eq_nil {s : Step} {id : String} (h : s.id? = some id) : s.relations = [] := by
  cases s with
  | relate r => exact nomatch h
  | _ => rfl

/-- Only adding a relation between entities of the graph changes the relations. -/
theorem relations_run (hg : g.Coherent) (now : Instant) (s : Step) :
    (s.run now g).relations
      = Keyed.union Relation.key Keyed.last g.relations (s.relations.filter (hasEnds g)) := by
  rcases run_cases hg now s with ⟨r, rfl⟩ | ⟨e, hid, -, hrun⟩ | ⟨id, hid, -, hrun⟩
  · rw [run, hg.relations_relate, relations, List.filter_cons]
    by_cases h : g.contains r.source = true ∧ g.contains r.target = true
    · have hends : hasEnds g r = true := Bool.and_eq_true_iff.2 h
      rw [if_pos h, if_pos hends]
      rfl
    · have hends : ¬ hasEnds g r = true := fun h' => h (Bool.and_eq_true_iff.1 h')
      rw [if_neg h, if_neg hends]
      rfl
  · rw [relations_eq_nil hid, hrun, hg.relations_put]
    rfl
  · rw [relations_eq_nil hid, hrun]
    rfl

/-! ## Scripts -/

/-- The graph behind a script. -/
def runAll (now : Instant) (g : Graph) (script : List Step) : Graph := script.foldl (run now) g

/-- A script keeps a graph coherent. -/
theorem coherent_runAll (hg : g.Coherent) (now : Instant) (script : List Step) :
    (runAll now g script).Coherent :=
  coherent_foldl (fun _ s h => coherent_run h now s) script hg

/-- A script of two parts is run part by part. -/
theorem runAll_append (now : Instant) (g : Graph) (front rest : List Step) :
    runAll now g (front ++ rest) = runAll now (runAll now g front) rest := List.foldl_append

/-- A script made from a list is run item by item. -/
theorem runAll_flatMap {α : Type} (now : Instant) (g : Graph) (l : List α) (f : α → List Step) :
    runAll now g (l.flatMap f) = l.foldl (fun g a => runAll now g (f a)) g := by
  rw [runAll, List.foldl_flatMap]
  rfl

/-- What a script makes of the entity under an id. -/
theorem get?_runAll (hg : g.Coherent) (now : Instant) (script : List Step) (id : String) :
    (runAll now g script).get? id
      = (script.filter fun s => s.id? = some id).foldl (apply now) (g.get? id) := by
  induction script generalizing g with
  | nil => rfl
  | cons s rest ih =>
      rw [runAll, List.foldl_cons, List.filter_cons]
      refine (ih (coherent_run hg now s)).trans ?_
      rw [get?_run hg now s id]
      by_cases h : s.id? = some id
      · rw [if_pos h, if_pos (decide_eq_true h), List.foldl_cons]
      · rw [if_neg h, if_neg fun h' => h (of_decide_eq_true h')]

/-- The ids that are there stay. -/
theorem contains_runAll (hg : g.Coherent) (now : Instant) (script : List Step) {id : String}
    (h : g.contains id = true) : (runAll now g script).contains id = true := by
  obtain ⟨e, he⟩ := hg.contains_iff.1 h
  have hget := get?_runAll hg now script id
  rw [he, foldl_apply_some] at hget
  exact (coherent_runAll hg now script).contains_iff.2 ⟨_, hget⟩

/-- The ids whose entities a step makes where there are none. -/
def made : Step → List String
  | renew e => [e.id]
  | extend id .. => [id]
  | mark .. => []
  | relate _ => []

/-- A step that makes no entity leaves an id without one. -/
theorem fresh?_eq_none {s : Step} {id : String} (hid : s.id? = some id) (h : id ∉ s.made) :
    s.fresh? now = none := by
  cases s with
  | renew e => exact absurd (List.mem_singleton.2 (Option.some.inj hid).symm) h
  | extend id' => exact absurd (List.mem_singleton.2 (Option.some.inj hid).symm) h
  | mark => rfl
  | relate r => rfl

/-- The entity under an id is there behind the step that makes it. -/
theorem contains_run_of_made (hg : g.Coherent) (now : Instant) {s : Step} {id : String}
    (h : id ∈ s.made) : (s.run now g).contains id = true := by
  have hid : s.id? = some id := by
    cases s with
    | renew e => exact congrArg some (List.mem_singleton.1 h).symm
    | extend id' => exact congrArg some (List.mem_singleton.1 h).symm
    | mark => exact nomatch h
    | relate r => exact nomatch h
  refine (coherent_run hg now s).contains_iff.2 (Option.isSome_iff_exists.1 ?_)
  rw [get?_run hg, if_pos hid]
  cases g.get? id with
  | some old => rfl
  | none =>
      cases s with
      | renew e => rfl
      | extend id' => rfl
      | mark => exact nomatch h
      | relate r => exact nomatch h

/-- A step that makes no entity leaves the ids. -/
theorem contains_run_of_not_made (hg : g.Coherent) (now : Instant) {s : Step} (h : s.made = [])
    (id : String) : (s.run now g).contains id = g.contains id := by
  have hids : (s.run now g).entities.map Entity.id = g.entities.map Entity.id :=
    map_id_run hg now fun id hid _ => fresh?_eq_none hid (h ▸ List.not_mem_nil)
  rw [Bool.eq_iff_iff, (coherent_run hg now s).contains_iff_mem, hg.contains_iff_mem, hids]

/-- Whether the relations of some steps are between entities that are known or made before. -/
def Grounded (known : List String) : List Step → Prop
  | [] => True
  | s :: rest => (∀ r ∈ s.relations, r.source ∈ known ∧ r.target ∈ known)
      ∧ Grounded (s.made ++ known) rest

/-- Steps that are grounded stay so when more is known. -/
theorem Grounded.mono {known known' : List String} (h : ∀ id ∈ known, id ∈ known')
    {steps : List Step} (hs : Grounded known steps) : Grounded known' steps := by
  induction steps generalizing known known' with
  | nil => trivial
  | cons s rest ih =>
      refine ⟨fun r hr => ⟨h _ (hs.1 r hr).1, h _ (hs.1 r hr).2⟩, ih ?_ hs.2⟩
      intro id hid
      rcases List.mem_append.1 hid with hid | hid
      · exact List.mem_append_left _ hid
      · exact List.mem_append_right _ (h id hid)

/-- Steps behind others are grounded if they are when these have made their entities. -/
theorem Grounded.append {known : List String} {front rest : List Step} (hf : Grounded known front)
    (hr : Grounded (front.flatMap made ++ known) rest) : Grounded known (front ++ rest) := by
  induction front generalizing known with
  | nil => exact hr
  | cons s front ih =>
      refine ⟨hf.1, ih hf.2 (hr.mono fun id hid => ?_)⟩
      rw [List.flatMap_cons, List.mem_append, List.mem_append] at hid
      rw [List.mem_append, List.mem_append]
      tauto

/-- Steps made from a list are grounded if those of each item are. -/
theorem grounded_flatMap {α : Type} {known : List String} {l : List α} {f : α → List Step}
    (h : ∀ a ∈ l, Grounded known (f a)) : Grounded known (l.flatMap f) := by
  induction l with
  | nil => trivial
  | cons a rest ih =>
      obtain ⟨ha, hrest⟩ := List.forall_mem_cons.1 h
      exact ha.append ((ih hrest).mono fun id hid => List.mem_append_right _ hid)

/-- Relations between entities that are known are grounded whatever is made between them. -/
theorem grounded_of_forall {known : List String} {steps : List Step}
    (h : ∀ s ∈ steps, ∀ r ∈ s.relations, r.source ∈ known ∧ r.target ∈ known) :
    Grounded known steps := by
  induction steps with
  | nil => trivial
  | cons s rest ih =>
      obtain ⟨hs, hrest⟩ := List.forall_mem_cons.1 h
      exact ⟨hs, (ih hrest).mono fun id hid => List.mem_append_right _ hid⟩

/-- A step is grounded if the ends of its relations are known. -/
theorem grounded_singleton {known : List String} {s : Step}
    (h : ∀ r ∈ s.relations, r.source ∈ known ∧ r.target ∈ known) : Grounded known [s] :=
  ⟨h, trivial⟩

/-- Relations between entities that were made before all hold. -/
theorem relations_runAll_of_grounded (hg : g.Coherent) (now : Instant) {known : List String}
    (hknown : ∀ id ∈ known, g.contains id = true) {steps : List Step} (h : Grounded known steps) :
    (runAll now g steps).relations
      = Keyed.union Relation.key Keyed.last g.relations (steps.flatMap relations) := by
  induction steps generalizing g known with
  | nil => rfl
  | cons s rest ih =>
      obtain ⟨hs, hrest⟩ := h
      have hknown' : ∀ id ∈ s.made ++ known, (s.run now g).contains id = true := by
        intro id hid
        rcases List.mem_append.1 hid with hid | hid
        · exact contains_run_of_made hg now hid
        · exact contains_runAll hg now [s] (hknown id hid)
      have hends : s.relations.filter (hasEnds g) = s.relations := by
        refine List.filter_eq_self.2 fun r hr => ?_
        rw [hasEnds, hknown _ (hs r hr).1, hknown _ (hs r hr).2]
        rfl
      refine (ih (coherent_run hg now s) hknown' hrest).trans ?_
      rw [relations_run hg, hends, List.flatMap_cons, Keyed.union, Keyed.union, Keyed.union,
        List.foldl_append]

/-- Behind all entities, a relation holds if both of its ends are there. -/
theorem relations_runAll_of_not_made (hg : g.Coherent) (now : Instant) {steps : List Step}
    (h : ∀ s ∈ steps, s.made = []) :
    (runAll now g steps).relations = Keyed.union Relation.key Keyed.last g.relations
        ((steps.flatMap relations).filter (hasEnds g))
      ∧ hasEnds (runAll now g steps) = hasEnds g := by
  induction steps generalizing g with
  | nil => exact ⟨rfl, rfl⟩
  | cons s rest ih =>
      obtain ⟨hs, hrest⟩ := List.forall_mem_cons.1 h
      have hends : hasEnds (s.run now g) = hasEnds g := by
        funext r
        rw [hasEnds, hasEnds, contains_run_of_not_made hg now hs,
          contains_run_of_not_made hg now hs]
      obtain ⟨hrelations, hends'⟩ := ih (coherent_run hg now s) hrest
      refine ⟨hrelations.trans ?_, hends'.trans hends⟩
      rw [hends, relations_run hg, List.flatMap_cons, List.filter_append, Keyed.union, Keyed.union,
        Keyed.union, List.foldl_append]

/-- A step relates nothing by a type that its relations do not have. -/
theorem hasRelation_run_of_type (hg : g.Coherent) (now : Instant) {s : Step} {type : RelationType}
    (h : ∀ q ∈ s.relations, q.type ≠ type) (source target : String) :
    (s.run now g).hasRelation source target type = g.hasRelation source target type := by
  rw [Bool.eq_iff_iff, hasRelation_of_union hg (coherent_run hg now s) (relations_run hg now s)]
  refine or_iff_left ?_
  rintro ⟨q, hq, hkey⟩
  exact h q (List.mem_of_mem_filter hq) (congrArg (fun k => k.2.2) hkey)

/-- A script relates nothing by a type that its relations do not have. -/
theorem hasRelation_runAll_of_type (hg : g.Coherent) (now : Instant) {steps : List Step}
    {type : RelationType} (h : ∀ s ∈ steps, ∀ q ∈ s.relations, q.type ≠ type)
    (source target : String) :
    (runAll now g steps).hasRelation source target type = g.hasRelation source target type := by
  induction steps generalizing g with
  | nil => rfl
  | cons s rest ih =>
      obtain ⟨hs, hrest⟩ := List.forall_mem_cons.1 h
      exact (ih (coherent_run hg now s) hrest).trans
        (hasRelation_run_of_type hg now hs source target)

/-- The relations behind a script whose relations are between entities that are known or that it
made before or come behind all entities. -/
theorem relations_runAll (hg : g.Coherent) (now : Instant) {known : List String}
    (hknown : ∀ id ∈ known, g.contains id = true) {main rest : List Step}
    (hmain : Grounded known main) (hrest : ∀ s ∈ rest, s.made = []) :
    (runAll now g (main ++ rest)).relations
      = Keyed.union Relation.key Keyed.last g.relations (main.flatMap relations
          ++ (rest.flatMap relations).filter (hasEnds (runAll now g (main ++ rest)))) := by
  have hmid := relations_runAll_of_grounded hg now hknown hmain
  obtain ⟨hend, hends⟩ := relations_runAll_of_not_made (coherent_runAll hg now main) now hrest
  rw [runAll_append, hends, hend, hmid, Keyed.union, Keyed.union, Keyed.union, List.foldl_append]

/-- Entities that no step changes stay in front. -/
theorem entities_runAll_append (hg : g.Coherent) (now : Instant) {front back : List Entity}
    (hsplit : g.entities = front ++ back) {script : List Step}
    (h : ∀ s ∈ script, ∀ id, s.id? = some id → id ∉ front.map Entity.id) :
    ∃ back', (runAll now g script).entities = front ++ back' := by
  induction script generalizing g back with
  | nil => exact ⟨back, hsplit⟩
  | cons s rest ih =>
      obtain ⟨hs, hrest⟩ := List.forall_mem_cons.1 h
      have hstep : ∃ back', (s.run now g).entities = front ++ back' := by
        rcases run_cases hg now s with ⟨r, rfl⟩ | ⟨e, hid, -, hrun⟩ | ⟨id, -, -, hrun⟩
        · exact ⟨back, (Coherent.entities_relate g r).trans hsplit⟩
        · have hother : ∀ a ∈ front, a.id ≠ e.id :=
            fun a ha heq => hs e.id hid (heq ▸ List.mem_map_of_mem ha)
          rw [hrun, hg.entities_put, hsplit, Keyed.upsert_append hother]
          exact ⟨_, rfl⟩
        · rw [hrun]
          exact ⟨back, hsplit⟩
      obtain ⟨back', hback⟩ := hstep
      exact ih (coherent_run hg now s) hback hrest

/-! ## Twice -/

/-- A script leaves the ids and their order if all entities that it makes are there. -/
theorem map_id_runAll (hg : g.Coherent) (now : Instant) {script : List Step}
    (h : ∀ s ∈ script, ∀ id ∈ s.made, g.contains id = true) :
    (runAll now g script).entities.map Entity.id = g.entities.map Entity.id := by
  induction script generalizing g with
  | nil => rfl
  | cons s rest ih =>
      obtain ⟨hs, hrest⟩ := List.forall_mem_cons.1 h
      have hstep : (s.run now g).entities.map Entity.id = g.entities.map Entity.id := by
        refine map_id_run hg now fun id hid hnone => fresh?_eq_none hid fun hmade => ?_
        obtain ⟨e, he⟩ := hg.contains_iff.1 (hs id hmade)
        exact nomatch he.symm.trans hnone
      refine (ih (coherent_run hg now s) fun s' hs' id hid => ?_).trans hstep
      exact contains_runAll hg now [s] (hrest s' hs' id hid)

/-- All entities that a script makes are there behind it. -/
theorem contains_runAll_of_made (hg : g.Coherent) (now : Instant) {script : List Step} {s : Step}
    (hs : s ∈ script) {id : String} (hid : id ∈ s.made) :
    (runAll now g script).contains id = true := by
  obtain ⟨front, rest, rfl⟩ := List.append_of_mem hs
  have hfront := coherent_runAll hg now front
  rw [runAll, List.foldl_append, List.foldl_cons]
  exact contains_runAll (coherent_run hfront now s) now rest (contains_run_of_made hfront now hid)

/-- Two graphs with the same ids in the same order whose entities agree under every id but for their
last changes have the same entities but for these. -/
theorem map_changedAt_entities {g' : Graph} (hg : g.Coherent) (hg' : g'.Coherent)
    (hids : g'.entities.map Entity.id = g.entities.map Entity.id)
    (h : ∀ id, (g'.get? id).map (Entity.changedAt t) = (g.get? id).map (Entity.changedAt t)) :
    g'.entities.map (Entity.changedAt t) = g.entities.map (Entity.changedAt t) := by
  have hkeys : ∀ l : List Entity, (l.map (Entity.changedAt t)).map Entity.id = l.map Entity.id := by
    intro l
    rw [List.map_map]
    rfl
  have hfind : ∀ {g : Graph}, g.Coherent → ∀ id,
      Keyed.find? Entity.id id (g.entities.map (Entity.changedAt t))
        = (g.get? id).map (Entity.changedAt t) := by
    intro g hg id
    rw [hg.get?_eq_find?, Keyed.find?, List.find?_map]
    rfl
  have hsame : (g'.entities.map (Entity.changedAt t)).map Entity.id
      = (g.entities.map (Entity.changedAt t)).map Entity.id := by rw [hkeys, hkeys, hids]
  refine Keyed.eq_of_find? hsame ?_ ?_
  · rw [hkeys]
    exact hg'.ids_nodup
  · intro id _
    rw [hfind hg', hfind hg, h id]

/-- A script that settles every id, whose relations are between entities that it made before or come
behind all entities, changes nothing but times when it is run again. -/
theorem runAll_twice (now now' t : Instant) (hg : g.Coherent) {service : String}
    {main rest : List Step} (hmain : Grounded [] main) (hrest : ∀ s ∈ rest, s.made = [])
    (hsettling : ∀ id, Settling service ((main ++ rest).filter fun s => s.id? = some id)) :
    (runAll now' (runAll now g (main ++ rest)) (main ++ rest)).entities.map (Entity.changedAt t)
        = (runAll now g (main ++ rest)).entities.map (Entity.changedAt t)
      ∧ (runAll now' (runAll now g (main ++ rest)) (main ++ rest)).relations
        = (runAll now g (main ++ rest)).relations := by
  have honce := coherent_runAll hg now (main ++ rest)
  have htwice := coherent_runAll honce now' (main ++ rest)
  have hids := map_id_runAll honce now' fun s hs id hid => contains_runAll_of_made hg now hs hid
  constructor
  · -- the first run has settled every entity, so the second writes what is there but for the time
    refine map_changedAt_entities honce htwice hids fun id => ?_
    have hget := get?_runAll hg now (main ++ rest) id
    rw [get?_runAll honce]
    cases hid : (runAll now g (main ++ rest)).get? id with
    | some e =>
        rw [hid] at hget
        rw [foldl_apply_some]
        exact congrArg some ((hsettling id).foldl_onto hget.symm)
    | none =>
        rw [hid] at hget
        cases hold : g.get? id with
        | some old =>
            rw [hold, foldl_apply_some] at hget
            exact nomatch hget
        | none =>
            rw [hold] at hget
            rw [foldl_apply_none hget.symm]
  · -- the relations that hold are the same both times, as the ids are
    have hends : hasEnds (runAll now' (runAll now g (main ++ rest)) (main ++ rest))
        = hasEnds (runAll now g (main ++ rest)) := by
      have hcontains : ∀ id, (runAll now' (runAll now g (main ++ rest)) (main ++ rest)).contains id
          = (runAll now g (main ++ rest)).contains id := by
        intro id
        rw [Bool.eq_iff_iff, htwice.contains_iff_mem, honce.contains_iff_mem, hids]
      funext r
      rw [hasEnds, hasEnds, hcontains, hcontains]
    rw [relations_runAll honce now' (List.forall_mem_nil _) hmain hrest, hends,
      relations_runAll hg now (List.forall_mem_nil _) hmain hrest,
      Keyed.union_last_twice hg.relation_keys_nodup]

end Step
end CodeAtlas.Graph
