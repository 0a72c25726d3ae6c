import CodeAtlas.Proofs.Graph.Merge

/-!
# Parts of graphs

The part of a graph with some ids is the induced one: the entities with these ids as they are, in
the order in which the ids first come, and the relations between them, in the order of the graph. So
cutting a part out of a part is cutting once, and a part has nothing that merging it would add.
-/

namespace CodeAtlas.Graph

variable {g : Graph} {ids : List String}

/-- Whether both ends of a relation are among some ids. -/
def Relation.isWithin (ids : List String) (r : Relation) : Bool :=
  ids.contains r.source && ids.contains r.target

theorem Relation.isWithin_iff {r : Relation} :
    r.isWithin ids = true ↔ r.source ∈ ids ∧ r.target ∈ ids := by
  rw [isWithin, Bool.and_eq_true, List.contains_iff_mem, List.contains_iff_mem]

namespace Coherent

/-! ## What is cut out -/

/-- What is found under an id has it. -/
theorem id_of_get? (hg : g.Coherent) {id : String} {e : Entity} (h : g.get? id = some e) :
    e.id = id := (hg.get?_eq_some_iff_mem.1 h).2

/-- The lists of a part: the entities of its ids, each once, and the relations between these. -/
theorem lists_subgraph (hg : g.Coherent) (ids : List String) :
    (g.subgraph ids).entities = ids.eraseDups.filterMap g.get?
      ∧ (g.subgraph ids).relations = g.relations.filter (Relation.isWithin ids) := by
  obtain ⟨hkept, hentities, hrelations⟩ := coherent_empty.lists_foldl_put (ids.filterMap g.get?)
  obtain ⟨hentities', hrelations'⟩ := hkept.lists_foldl_relate g.relations
  have hfound : ((ids.filterMap g.get?).foldl Graph.put Graph.empty).entities
      = ids.eraseDups.filterMap g.get? :=
    hentities.trans (Keyed.nil_union_filterMap hg.id_of_get? ids)
  refine ⟨hentities'.trans hfound, ?_⟩
  -- the ends of a relation are entities, so they are kept exactly if their ids are given
  have hcontains : ∀ {id : String}, g.contains id = true →
      (((ids.filterMap g.get?).foldl Graph.put Graph.empty).contains id = true ↔ id ∈ ids) := by
    intro id hid
    rw [hkept.contains_iff_mem, hfound, List.mem_map]
    constructor
    · rintro ⟨e, he, rfl⟩
      obtain ⟨id, hid, he⟩ := List.mem_filterMap.1 he
      rw [hg.id_of_get? he]
      exact List.mem_eraseDups.1 hid
    · intro hmem
      obtain ⟨e, he⟩ := hg.contains_iff.1 hid
      exact ⟨e, List.mem_filterMap.2 ⟨id, List.mem_eraseDups.2 hmem, he⟩, hg.id_of_get? he⟩
  have hends : g.relations.filter ((ids.filterMap g.get?).foldl Graph.put Graph.empty).hasEnds
      = g.relations.filter (Relation.isWithin ids) := by
    refine List.filter_congr fun r hr => ?_
    obtain ⟨hs, ht⟩ := hg.contains_ends hr
    rw [Bool.eq_iff_iff, Relation.isWithin_iff, hasEnds, Bool.and_eq_true, hcontains hs,
      hcontains ht]
  have hnodup : ((g.relations.filter (Relation.isWithin ids)).map Relation.key).Nodup :=
    hg.relation_keys_nodup.sublist (List.filter_sublist.map _)
  rw [hends, hrelations] at hrelations'
  exact hrelations'.trans (Keyed.nil_union (Keyed.key_last Relation.key) hnodup)

theorem mem_entities_subgraph (hg : g.Coherent) {e : Entity} :
    e ∈ (g.subgraph ids).entities ↔ e ∈ g.entities ∧ e.id ∈ ids := by
  rw [(hg.lists_subgraph ids).1, List.mem_filterMap]
  constructor
  · rintro ⟨id, hid, he⟩
    obtain ⟨hmem, rfl⟩ := hg.get?_eq_some_iff_mem.1 he
    exact ⟨hmem, List.mem_eraseDups.1 hid⟩
  · rintro ⟨he, hid⟩
    exact ⟨e.id, List.mem_eraseDups.2 hid, hg.get?_eq_some_iff_mem.2 ⟨he, rfl⟩⟩

/-- In a part an entity is found under an id that is given, and under no other. -/
theorem get?_subgraph (hg : g.Coherent) (ids : List String) (id : String) :
    (g.subgraph ids).get? id = if ids.contains id then g.get? id else none := by
  refine Option.ext fun e => ?_
  rw [(coherent_subgraph g ids).get?_eq_some_iff_mem, hg.mem_entities_subgraph]
  by_cases hid : ids.contains id = true
  · rw [if_pos hid, hg.get?_eq_some_iff_mem]
    constructor
    · rintro ⟨⟨he, -⟩, rfl⟩
      exact ⟨he, rfl⟩
    · rintro ⟨he, rfl⟩
      exact ⟨⟨he, List.contains_iff_mem.1 hid⟩, rfl⟩
  · rw [if_neg hid]
    refine iff_of_false ?_ nofun
    rintro ⟨⟨-, hmem⟩, rfl⟩
    exact hid (List.contains_iff_mem.2 hmem)

/-! ## Parts of parts, the whole, and merging -/

/-- A part of a part is the part with the ids of both. -/
theorem subgraph_subgraph (hg : g.Coherent) (ids more : List String) :
    (g.subgraph ids).subgraph more = g.subgraph (more.filter ids.contains) := by
  have hpart := coherent_subgraph g ids
  obtain ⟨hentities, hrelations⟩ := hpart.lists_subgraph more
  obtain ⟨hentities', hrelations'⟩ := hg.lists_subgraph (more.filter ids.contains)
  refine (coherent_subgraph _ _).ext (coherent_subgraph _ _) ?_ ?_
  · rw [hentities, hentities', Keyed.eraseDups_filter, List.filterMap_filter]
    exact List.filterMap_congr fun id _ => hg.get?_subgraph ids id
  · rw [hrelations, hrelations', (hg.lists_subgraph ids).2, List.filter_filter]
    refine List.filter_congr fun r _ => ?_
    rw [Bool.eq_iff_iff, Bool.and_eq_true]
    simp only [Relation.isWithin_iff, List.mem_filter, List.contains_iff_mem]
    exact ⟨fun ⟨⟨hs, ht⟩, hs', ht'⟩ => ⟨⟨hs, hs'⟩, ht, ht'⟩,
      fun ⟨⟨hs, hs'⟩, ht, ht'⟩ => ⟨⟨hs, ht⟩, hs', ht'⟩⟩

/-- The part with all ids, in order, is the graph. -/
theorem subgraph_ids (hg : g.Coherent) : g.subgraph (g.entities.map Entity.id) = g := by
  obtain ⟨hentities, hrelations⟩ := hg.lists_subgraph (g.entities.map Entity.id)
  refine (coherent_subgraph _ _).ext hg ?_ ?_
  · have hfound : ∀ e ∈ g.entities, (g.get? ∘ Entity.id) e = some e := fun e he =>
      hg.get?_eq_some_iff_mem.2 ⟨he, rfl⟩
    rw [hentities, Keyed.eraseDups_of_nodup hg.ids_nodup, List.filterMap_map,
      List.filterMap_congr hfound, List.filterMap_some]
  · rw [hrelations]
    refine List.filter_eq_self.2 fun r hr => Relation.isWithin_iff.2 ?_
    obtain ⟨hs, ht⟩ := hg.contains_ends hr
    exact ⟨hg.contains_iff_mem.1 hs, hg.contains_iff_mem.1 ht⟩

/-- A part has nothing that is not there. -/
theorem merge_subgraph (hg : g.Coherent) (ids : List String) : g.merge (g.subgraph ids) = g := by
  obtain ⟨hentities, hrelations⟩ := hg.lists_merge (coherent_subgraph g ids)
  refine (hg.merge _).ext hg ?_ ?_
  · rw [hentities]
    exact Keyed.union_of_subset hg.ids_nodup fun e he => (hg.mem_entities_subgraph.1 he).1
  · rw [hrelations]
    refine Keyed.union_of_subset hg.relation_keys_nodup fun r hr => ?_
    rw [(hg.lists_subgraph ids).2] at hr
    exact List.mem_of_mem_filter hr

end Coherent

/-- The part of a reachable graph with some ids, unknown and repeated ones among them, has the
entities of these ids as they are, in the order in which the ids first come, and the relations of
the graph with both ends among the ids, in the order of the graph. So a part of a part is the part
with the ids of both, all ids in order give the whole graph, and merging a part into the graph
changes nothing. -/
theorem Reachable.subgraph_induced {g : Graph} (h : Reachable g) (ids : List String) :
    (g.subgraph ids).entities = ids.eraseDups.filterMap g.get?
      ∧ (∀ e, e ∈ (g.subgraph ids).entities ↔ e ∈ g.entities ∧ e.id ∈ ids)
      ∧ (g.subgraph ids).relations = g.relations.filter (Relation.isWithin ids)
      ∧ (∀ more, (g.subgraph ids).subgraph more = g.subgraph (more.filter ids.contains))
      ∧ g.subgraph (g.entities.map Entity.id) = g
      ∧ g.merge (g.subgraph ids) = g := by
  have hg := h.coherent
  refine ⟨(hg.lists_subgraph ids).1, ?_, (hg.lists_subgraph ids).2, ?_, hg.subgraph_ids,
    hg.merge_subgraph ids⟩
  · intro e
    exact hg.mem_entities_subgraph
  · intro more
    exact hg.subgraph_subgraph ids more

/-- A part with an id twice and one that is not there: its entities come in the order of the ids,
and the relation to an entity outside is left out. -/
theorem subgraph_induced_repeated :
    let service := fun id => Entity.new ⟨0, 0⟩ id id (.service {})
    let g := ofLists [service "a", service "b", service "c"]
      [⟨"a", "b", .calls, []⟩, ⟨"b", "c", .calls, []⟩, ⟨"b", "b", .uses, []⟩]
    let ids := ["b", "x", "a", "b"]
    (g.subgraph ids).entities.map Entity.id = ["b", "a"]
      ∧ (g.subgraph ids).relations.map Relation.key = [("a", "b", .calls), ("b", "b", .uses)]
      ∧ g.merge (g.subgraph ids) = g := by
  intro service g ids
  have hg : Reachable g := .ofLists _ _
  obtain ⟨hentities, -, hrelations, -, -, hmerge⟩ := hg.subgraph_induced ids
  rw [hentities, hrelations]
  refine ⟨?_, ?_, hmerge⟩
  · decide
  · decide

end CodeAtlas.Graph
