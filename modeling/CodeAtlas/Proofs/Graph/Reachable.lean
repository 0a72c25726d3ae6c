import CodeAtlas.Graph.Query
import CodeAtlas.Proofs.Graph.Coherence

/-!
# Reachable graphs

The relations of a coherent graph are its edges with the ids of their ends. Putting an entity leaves
them. Adding a relation keeps the graph coherent; on the list of relations it takes the place of the
one with its key. A coherent graph is determined by its two lists.

A graph is reachable if it comes from the empty graph by adding entities and relations, by merging
and cutting out reachable graphs, and by building one from lists. Every reachable graph is coherent.
The main statement spells out what that means for those who use a graph.
-/

namespace CodeAtlas.Graph

/-! ## Relations of coherent graphs -/

/-- What no two relations share. -/
def Relation.key (r : Relation) : String × String × RelationType := (r.source, r.target, r.type)

/-- A relation has a key if it is its own. -/
theorem Relation.hasKey_iff {r : Relation} {s t : String} {type : RelationType} :
    r.hasKey s t type = true ↔ r.key = (s, t, type) := by
  simp [Relation.hasKey, Relation.key, and_assoc]

/-- Whether both ends of a relation are there. -/
def hasEnds (g : Graph) (r : Relation) : Bool := g.contains r.source && g.contains r.target

namespace Coherent

variable {g : Graph}

/-- The relation that an edge is has the ids of its ends. -/
theorem relationOf?_eq_some_iff (hg : g.Coherent) {x : Edge} {r : Relation} :
    g.relationOf? x = some r ↔
      g.place? r.source = some x.source ∧ g.place? r.target = some x.target ∧ r.type = x.type
        ∧ r.metadata = x.metadata := by
  rw [hg.place_iff, hg.place_iff, relationOf?]
  constructor
  · intro h
    obtain ⟨a, ha, h⟩ := Option.bind_eq_some_iff.1 h
    obtain ⟨b, hb, h⟩ := Option.bind_eq_some_iff.1 h
    cases h
    exact ⟨⟨a, ha, rfl⟩, ⟨b, hb, rfl⟩, rfl, rfl⟩
  · rintro ⟨⟨a, ha, hs⟩, ⟨b, hb, ht⟩, hty, hm⟩
    rw [ha, hb]
    obtain ⟨s, t, ty, m⟩ := r
    simp_all

/-- Every edge of a coherent graph is a relation. -/
theorem exists_relationOf? (hg : g.Coherent) {x : Edge} (hx : x ∈ g.edges) :
    ∃ r, g.relationOf? x = some r := by
  obtain ⟨hs, ht⟩ := hg.ends x hx
  rw [relationOf?, Array.getElem?_eq_getElem hs, Array.getElem?_eq_getElem ht]
  exact ⟨_, rfl⟩

/-- Edges with the same key are relations with the same key, and only they. -/
theorem key_eq_iff (hg : g.Coherent) {x y : Edge} {r q : Relation} (hr : g.relationOf? x = some r)
    (hq : g.relationOf? y = some q) : r.key = q.key ↔ x.key = y.key := by
  obtain ⟨hrs, hrt, hrty, -⟩ := hg.relationOf?_eq_some_iff.1 hr
  obtain ⟨hqs, hqt, hqty, -⟩ := hg.relationOf?_eq_some_iff.1 hq
  simp only [Relation.key, Edge.key, Prod.mk.injEq]
  constructor
  · rintro ⟨hs, ht, hty⟩
    rw [hs, hqs] at hrs
    rw [ht, hqt] at hrt
    exact ⟨(Option.some.inj hrs).symm, (Option.some.inj hrt).symm, by rw [← hrty, ← hqty, hty]⟩
  · rintro ⟨hs, ht, hty⟩
    -- a place has one id
    obtain ⟨a, ha, has⟩ := hg.place_iff.1 hrs
    obtain ⟨a', ha', has'⟩ := hg.place_iff.1 hqs
    obtain ⟨b, hb, hbt⟩ := hg.place_iff.1 hrt
    obtain ⟨b', hb', hbt'⟩ := hg.place_iff.1 hqt
    rw [hs, ha'] at ha
    rw [ht, hb'] at hb
    cases ha
    cases hb
    exact ⟨has.symm.trans has', hbt.symm.trans hbt', by rw [hrty, hqty, hty]⟩

/-- Putting an entity leaves the relations. -/
theorem relations_put (hg : g.Coherent) (e : Entity) : (g.put e).relations = g.relations := by
  have hedges : (g.put e).edges = g.edges := by
    rw [Graph.put]
    cases g.place? e.id <;> rfl
  rw [relations, relations, hedges]
  refine List.filterMap_congr ?_
  intro x hx
  obtain ⟨r, hr⟩ := hg.exists_relationOf? hx
  obtain ⟨hs, ht, hrest⟩ := hg.relationOf?_eq_some_iff.1 hr
  rw [hr]
  exact (hg.put e).relationOf?_eq_some_iff.2 ⟨place?_put g e hs, place?_put g e ht, hrest⟩

end Coherent

/-- The keys behind putting an edge. -/
theorem mem_keys_putEdge {k : Nat × Nat × RelationType} {x : Edge} {l : List Edge} :
    k ∈ (putEdge x l).map Edge.key ↔ k = x.key ∨ k ∈ l.map Edge.key := by
  induction l with
  | nil => simp [putEdge]
  | cons y rest ih =>
      rw [putEdge]
      split
      · next h =>
        have hkey : y.key = x.key := Edge.hasKey_iff.1 h
        have hkey' : ({ y with metadata := x.metadata } : Edge).key = x.key := hkey
        simp [hkey, hkey']
      · rw [List.map_cons, List.mem_cons, ih, List.map_cons, List.mem_cons]
        exact or_left_comm

/-- Putting an edge repeats no key. -/
theorem nodup_keys_putEdge {x : Edge} {l : List Edge} (h : (l.map Edge.key).Nodup) :
    ((putEdge x l).map Edge.key).Nodup := by
  induction l with
  | nil => exact List.nodup_singleton _
  | cons y rest ih =>
      obtain ⟨hout, hrest⟩ := List.nodup_cons.1 h
      rw [putEdge]
      split
      · exact List.nodup_cons.2 ⟨hout, hrest⟩
      · next hne =>
        refine List.nodup_cons.2 ⟨?_, ih hrest⟩
        intro hmem
        rcases mem_keys_putEdge.1 hmem with hk | hk
        · exact hne (Edge.hasKey_iff.2 hk)
        · exact hout hk

/-- The edges behind putting one have its ends or those of edges there before. -/
theorem ends_putEdge {P : Nat → Nat → Prop} {x : Edge} {l : List Edge} (hx : P x.source x.target)
    (hl : ∀ y ∈ l, P y.source y.target) : ∀ y ∈ putEdge x l, P y.source y.target := by
  intro y hy
  have hk : y.key ∈ (putEdge x l).map Edge.key := List.mem_map_of_mem hy
  rcases mem_keys_putEdge.1 hk with h | h
  · simp only [Edge.key, Prod.mk.injEq] at h
    rw [h.1, h.2.1]
    exact hx
  · obtain ⟨z, hz, h⟩ := List.mem_map.1 h
    simp only [Edge.key, Prod.mk.injEq] at h
    rw [← h.1, ← h.2.1]
    exact hl z hz

namespace Coherent

variable {g : Graph}

/-- On relations, an edge takes the place of the one with its key. -/
theorem filterMap_putEdge (hg : g.Coherent) {x : Edge} {r : Relation}
    (hr : g.relationOf? x = some r) {l : List Edge} (hl : ∀ y ∈ l, ∃ q, g.relationOf? y = some q) :
    (putEdge x l).filterMap g.relationOf?
      = Keyed.upsert Relation.key Keyed.last r (l.filterMap g.relationOf?) := by
  induction l with
  | nil => rw [putEdge, List.filterMap_cons_some hr, List.filterMap_nil, Keyed.upsert]
  | cons y rest ih =>
      obtain ⟨⟨q, hq⟩, hrest⟩ := List.forall_mem_cons.1 hl
      rw [List.filterMap_cons_some hq, putEdge, Keyed.upsert]
      by_cases hk : y.key = x.key
      · have hr' : g.relationOf? { y with metadata := x.metadata } = some r := by
          obtain ⟨hs, ht, hty, hm⟩ := hg.relationOf?_eq_some_iff.1 hr
          simp only [Edge.key, Prod.mk.injEq] at hk
          refine hg.relationOf?_eq_some_iff.2 ⟨?_, ?_, ?_, hm⟩
          · rw [hs, hk.1]
          · rw [ht, hk.2.1]
          · rw [hty, hk.2.2]
        rw [if_pos (Edge.hasKey_iff.2 hk), if_pos ((hg.key_eq_iff hq hr).2 hk),
          List.filterMap_cons_some hr', Keyed.last]
      · rw [if_neg fun h => hk (Edge.hasKey_iff.1 h),
          if_neg fun h => hk ((hg.key_eq_iff hq hr).1 h), List.filterMap_cons_some hq, ih hrest]

/-- A relation is added exactly if both of its ends are there. -/
theorem addRelation_fst (g : Graph) (r : Relation) :
    (g.addRelation r).1 = (g.contains r.source && g.contains r.target) := by
  rw [addRelation, contains, contains]
  cases g.place? r.source <;> cases g.place? r.target <;> rfl

/-- A relation that lacks an end changes nothing. -/
theorem relate_of_not (g : Graph) {r : Relation}
    (h : ¬ (g.contains r.source = true ∧ g.contains r.target = true)) : g.relate r = g := by
  rw [relate, addRelation]
  rw [contains, contains] at h
  cases hs : g.place? r.source <;> cases ht : g.place? r.target
  case some.some => simp [hs, ht] at h
  all_goals rfl

/-- Adding a relation keeps the graph coherent. -/
theorem relate (hg : g.Coherent) (r : Relation) : (g.relate r).Coherent := by
  by_cases h : g.contains r.source = true ∧ g.contains r.target = true
  · obtain ⟨⟨a, ha⟩, ⟨b, hb⟩⟩ := And.imp hg.contains_iff.1 hg.contains_iff.1 h
    obtain ⟨s, hs, has⟩ := hg.get?_eq_some_iff.1 ha
    obtain ⟨t, ht, hbt⟩ := hg.get?_eq_some_iff.1 hb
    have hps := hg.place_iff.2 ⟨a, hs, has⟩
    have hpt := hg.place_iff.2 ⟨b, ht, hbt⟩
    have hlt : s < g.nodes.size ∧ t < g.nodes.size :=
      ⟨(Array.getElem?_eq_some_iff.1 hs).1, (Array.getElem?_eq_some_iff.1 ht).1⟩
    rw [Graph.relate, addRelation, hps, hpt]
    exact
      { index_ascending := hg.index_ascending
        place_iff := hg.place_iff
        full := hg.full
        byType_ascending := hg.byType_ascending
        listed_iff := hg.listed_iff
        ends := ends_putEdge (P := fun i k => i < g.nodes.size ∧ k < g.nodes.size) hlt hg.ends
        keys_nodup := nodup_keys_putEdge hg.keys_nodup }
  · rw [relate_of_not g h]
    exact hg

/-- The relations behind adding one: if both of its ends are there, it is put among them. -/
theorem relations_relate (hg : g.Coherent) (r : Relation) :
    (g.relate r).relations
      = if g.contains r.source = true ∧ g.contains r.target = true
        then Keyed.upsert Relation.key Keyed.last r g.relations else g.relations := by
  by_cases h : g.contains r.source = true ∧ g.contains r.target = true
  · rw [if_pos h]
    rw [contains, contains, Option.isSome_iff_exists, Option.isSome_iff_exists] at h
    obtain ⟨⟨s, hs⟩, ⟨t, ht⟩⟩ := h
    have hr : g.relationOf? ⟨s, t, r.type, r.metadata⟩ = some r :=
      hg.relationOf?_eq_some_iff.2 ⟨hs, ht, rfl, rfl⟩
    rw [Graph.relate, addRelation, hs, ht]
    exact hg.filterMap_putEdge hr fun y hy => hg.exists_relationOf? hy
  · rw [if_neg h, relate_of_not g h]

/-- Adding a relation leaves the entities, their places and the listing. -/
theorem relate_same (g : Graph) (r : Relation) :
    (g.relate r).nodes = g.nodes ∧ (g.relate r).index = g.index
      ∧ (g.relate r).byType = g.byType := by
  rw [Graph.relate, addRelation]
  cases g.place? r.source <;> cases g.place? r.target <;> exact ⟨rfl, rfl, rfl⟩

/-- Adding a relation leaves what is found under an id. -/
theorem get?_relate (g : Graph) (r : Relation) (id : String) :
    (g.relate r).get? id = g.get? id := by
  obtain ⟨hn, hi, -⟩ := relate_same g r
  rw [get?, place?, hn, hi]
  rfl

/-- Adding a relation leaves the entities. -/
theorem entities_relate (g : Graph) (r : Relation) : (g.relate r).entities = g.entities :=
  congrArg Array.toList (relate_same g r).1

/-- A relation is there if an edge is that has its places and its type. -/
theorem hasRelation_iff (hg : g.Coherent) {s t : String} {type : RelationType} :
    g.hasRelation s t type = true ↔ ∃ r ∈ g.relations, r.key = (s, t, type) := by
  constructor
  · intro h
    rw [hasRelation] at h
    cases hs : g.place? s with
    | none => simp [hs] at h
    | some i =>
        cases ht : g.place? t with
        | none => simp [hs, ht] at h
        | some k =>
            rw [hs, ht] at h
            obtain ⟨x, hx, hk⟩ := List.any_eq_true.1 h
            have hkey : x.key = (i, k, type) := Edge.hasKey_iff.1 hk
            obtain ⟨r, hr⟩ := hg.exists_relationOf? hx
            have hq : g.relationOf? ⟨i, k, type, []⟩ = some ⟨s, t, type, []⟩ :=
              hg.relationOf?_eq_some_iff.2 ⟨hs, ht, rfl, rfl⟩
            exact ⟨r, List.mem_filterMap.2 ⟨x, hx, hr⟩, (hg.key_eq_iff hr hq).2 hkey⟩
  · rintro ⟨r, hr, hkey⟩
    obtain ⟨x, hx, hr⟩ := List.mem_filterMap.1 hr
    obtain ⟨hs, ht, hty, -⟩ := hg.relationOf?_eq_some_iff.1 hr
    simp only [Relation.key, Prod.mk.injEq] at hkey
    obtain ⟨rfl, rfl, rfl⟩ := hkey
    rw [hasRelation, hs, ht]
    exact List.any_eq_true.2 ⟨x, hx, Edge.hasKey_iff.2 (by rw [Edge.key, hty])⟩

/-- The ends of a relation are there. -/
theorem contains_ends (hg : g.Coherent) {r : Relation} (hr : r ∈ g.relations) :
    g.contains r.source = true ∧ g.contains r.target = true := by
  obtain ⟨x, -, hr⟩ := List.mem_filterMap.1 hr
  obtain ⟨hs, ht, -⟩ := hg.relationOf?_eq_some_iff.1 hr
  exact ⟨Option.isSome_iff_exists.2 ⟨_, hs⟩, Option.isSome_iff_exists.2 ⟨_, ht⟩⟩

/-- Every edge is a relation, and there are no others. -/
theorem map_some_relations (hg : g.Coherent) :
    g.relations.map some = g.edges.map g.relationOf? := by
  have hall : ∀ l : List Edge, (∀ x ∈ l, x ∈ g.edges) →
      (l.filterMap g.relationOf?).map some = l.map g.relationOf? := by
    intro l
    induction l with
    | nil => intro _; rfl
    | cons x rest ih =>
        intro h
        obtain ⟨hx, hrest⟩ := List.forall_mem_cons.1 h
        obtain ⟨r, hr⟩ := hg.exists_relationOf? hx
        rw [List.filterMap_cons_some hr, List.map_cons, List.map_cons, hr, ih hrest]
  exact hall g.edges fun _ hx => hx

/-- No two relations have the same key. -/
theorem relation_keys_nodup (hg : g.Coherent) : (g.relations.map Relation.key).Nodup := by
  refine List.pairwise_map.2 ?_
  rw [relations, List.pairwise_filterMap]
  refine (List.pairwise_map.1 hg.keys_nodup).imp ?_
  intro x y hne r hr q hq hkey
  exact hne ((hg.key_eq_iff hr hq).1 hkey)

/-- Edges are determined by the relations that they are. -/
theorem eq_of_map_relationOf? (hg : g.Coherent) {l l' : List Edge}
    (hl : ∀ x ∈ l, ∃ r, g.relationOf? x = some r)
    (h : l.map g.relationOf? = l'.map g.relationOf?) : l = l' := by
  induction l generalizing l' with
  | nil => exact (List.map_eq_nil_iff.1 h.symm).symm
  | cons x rest ih =>
      cases l' with
      | nil => exact nomatch h
      | cons y rest' =>
          obtain ⟨⟨r, hr⟩, hrest⟩ := List.forall_mem_cons.1 hl
          obtain ⟨hxy, h⟩ := List.cons.inj h
          obtain ⟨hs, ht, hty, hm⟩ := hg.relationOf?_eq_some_iff.1 hr
          obtain ⟨hs', ht', hty', hm'⟩ := hg.relationOf?_eq_some_iff.1 (hxy.symm.trans hr)
          rw [hs] at hs'
          rw [ht] at ht'
          rw [ih hrest h]
          obtain ⟨s, t, ty, m⟩ := x
          obtain ⟨s', t', ty', m'⟩ := y
          simp_all

/-- Coherent graphs with the same entities and relations are the same. -/
theorem ext {h : Graph} (hg : g.Coherent) (hh : h.Coherent) (he : g.entities = h.entities)
    (hr : g.relations = h.relations) : g = h := by
  have hnodes : g.nodes = h.nodes := Array.toList_inj.1 he
  have hplace : ∀ id, g.place? id = h.place? id := by
    intro id
    refine Option.ext fun i => ?_
    rw [hg.place_iff, hh.place_iff, hnodes]
  have hindex : g.index = h.index := hg.index_ascending.eq_of_lookup hh.index_ascending hplace
  have hget : ∀ id, g.get? id = h.get? id := by
    intro id
    rw [get?, get?, hplace, hnodes]
  have hbyType : g.byType = h.byType := by
    refine hg.full.ext hh.full fun t => ?_
    refine (hg.byType_ascending t).eq_of_mem_iff (hh.byType_ascending t) fun id => ?_
    have hgl : id ∈ g.idsOf t ↔ _ := hg.listed_iff
    have hhl : id ∈ h.idsOf t ↔ _ := hh.listed_iff
    rw [hget] at hgl
    exact hgl.trans hhl.symm
  have hof : g.relationOf? = h.relationOf? := by
    funext x
    rw [relationOf?, relationOf?, hnodes]
  have hedges : g.edges = h.edges := by
    have hmap : g.edges.map g.relationOf? = h.edges.map g.relationOf? := by
      rw [← hg.map_some_relations, hr, hh.map_some_relations, hof]
    exact hg.eq_of_map_relationOf? (fun x hx => hg.exists_relationOf? hx) hmap
  cases g
  cases h
  simp_all

end Coherent

/-! ## Reachability -/

/-- What some operations make of the empty graph. -/
inductive Reachable : Graph → Prop
  | empty : Reachable empty
  | addEntity {g : Graph} (now : Instant) (e : Entity) : Reachable g → Reachable (g.addEntity now e)
  | addRelation {g : Graph} (r : Relation) : Reachable g → Reachable (g.addRelation r).2
  | merge {g other : Graph} : Reachable g → Reachable other → Reachable (g.merge other)
  | subgraph {g : Graph} (ids : List String) : Reachable g → Reachable (g.subgraph ids)
  | ofLists (entities : List Entity) (relations : List Relation) :
      Reachable (ofLists entities relations)

/-! ## Every operation keeps graphs coherent -/

/-- Steps that keep a graph coherent do so one after the other. -/
theorem coherent_foldl {α : Type} {f : Graph → α → Graph}
    (hf : ∀ g a, g.Coherent → (f g a).Coherent) (l : List α) {g : Graph} (hg : g.Coherent) :
    (l.foldl f g).Coherent := by
  induction l generalizing g with
  | nil => exact hg
  | cons a rest ih => exact ih (hf g a hg)

namespace Coherent

variable {g : Graph}

/-- Adding an entity keeps a graph coherent. -/
theorem addEntity (hg : g.Coherent) (now : Instant) (e : Entity) :
    (g.addEntity now e).Coherent := by
  rw [Graph.addEntity]
  cases g.get? e.id with
  | some old => exact hg.put _
  | none => exact hg.put _

/-- Merging an entity keeps a graph coherent. -/
theorem mergeEntity (hg : g.Coherent) (e : Entity) : (g.mergeEntity e).Coherent := by
  rw [Graph.mergeEntity]
  cases g.get? e.id with
  | some old =>
      show (if old.updatedAt.before e.updatedAt = true then g.put e else g).Coherent
      split
      · exact hg.put e
      · exact hg
  | none => exact hg.put e

/-- Merging a relation keeps a graph coherent. -/
theorem mergeRelation (hg : g.Coherent) (r : Relation) : (g.mergeRelation r).Coherent := by
  rw [Graph.mergeRelation]
  split
  · exact hg
  · exact hg.relate r

/-- Merging a graph keeps a graph coherent. -/
theorem merge (hg : g.Coherent) (other : Graph) : (g.merge other).Coherent :=
  coherent_foldl (fun _ r h => h.mergeRelation r) _
    (coherent_foldl (fun _ e h => h.mergeEntity e) _ hg)

end Coherent

/-- A graph of lists is coherent. -/
theorem coherent_ofLists (entities : List Entity) (relations : List Relation) :
    (ofLists entities relations).Coherent :=
  coherent_foldl (fun _ r h => h.relate r) _
    (coherent_foldl (fun _ e h => h.put e) _ coherent_empty)

/-- A part of a graph is coherent. -/
theorem coherent_subgraph (g : Graph) (ids : List String) : (g.subgraph ids).Coherent :=
  coherent_foldl (fun _ r h => h.relate r) _
    (coherent_foldl (fun _ e h => h.put e) _ coherent_empty)

/-- Every reachable graph is coherent. -/
theorem Reachable.coherent {g : Graph} (h : Reachable g) : g.Coherent := by
  induction h with
  | empty => exact coherent_empty
  | addEntity now e _ ih => exact ih.addEntity now e
  | addRelation r _ ih => exact ih.relate r
  | merge _ _ ih _ => exact ih.merge _
  | subgraph ids _ _ => exact coherent_subgraph _ ids
  | ofLists entities relations => exact coherent_ofLists entities relations

/-! ## The entities of a type -/

namespace Coherent

variable {g : Graph}

/-- The entities of a type have the ids that are listed under it, in the same order. -/
theorem map_id_ofType (hg : g.Coherent) (t : EntityType) :
    (g.ofType t).map Entity.id = g.idsOf t := by
  have hall : ∀ ids : List String, (∀ id ∈ ids, id ∈ g.idsOf t) →
      (ids.filterMap g.get?).map Entity.id = ids := by
    intro ids
    induction ids with
    | nil => intro _; rfl
    | cons id rest ih =>
        intro h
        obtain ⟨hid, hrest⟩ := List.forall_mem_cons.1 h
        obtain ⟨e, he, -⟩ := hg.listed_iff.1 hid
        rw [List.filterMap_cons_some he, List.map_cons, ih hrest,
          (hg.get?_eq_some_iff_mem.1 he).2]
  exact hall _ fun _ h => h

/-- The entities of a type are those of the graph that have it. -/
theorem mem_ofType (hg : g.Coherent) {t : EntityType} {e : Entity} :
    e ∈ g.ofType t ↔ e ∈ g.entities ∧ e.type = t := by
  rw [ofType, List.mem_filterMap]
  constructor
  · rintro ⟨id, hid, he⟩
    obtain ⟨a, ha, hty⟩ := hg.listed_iff.1 hid
    cases he.symm.trans ha
    exact ⟨(hg.get?_eq_some_iff_mem.1 he).1, hty⟩
  · rintro ⟨he, hty⟩
    have hget := hg.get?_eq_some_iff_mem.2 ⟨he, rfl⟩
    exact ⟨e.id, hg.listed_iff.2 ⟨e, hget, hty⟩, hget⟩

/-- The entities of a type come once each, by id. -/
theorem ofType_perm (hg : g.Coherent) (t : EntityType) :
    (g.ofType t).Perm (g.entities.filter fun e => e.type == t) := by
  have hnodup : (g.ofType t).Nodup := by
    refine List.Nodup.of_map Entity.id ?_
    rw [hg.map_id_ofType]
    exact (hg.byType_ascending t).imp String.ne_of_lt
  have hnodup' : (g.entities.filter fun e => e.type == t).Nodup :=
    (List.Nodup.of_map Entity.id hg.ids_nodup).filter _
  refine (List.perm_ext_iff_of_nodup hnodup hnodup').2 fun e => ?_
  rw [hg.mem_ofType, List.mem_filter, beq_iff_eq]

end Coherent

/-- In every reachable graph the ids are distinct and an entity is found under its id and under no
other; every id is listed under the type that its entity has now and under no other, so that the
entities of a type come once each, sorted by id; both ends of every edge are entities, and no two
relations have the same ends and type; a relation is refused exactly if it lacks an end, and then
the graph is as it was. -/
theorem Reachable.parts_agree {g : Graph} (h : Reachable g) :
    ((g.entities.map Entity.id).Nodup
      ∧ ∀ id e, g.get? id = some e ↔ e ∈ g.entities ∧ e.id = id)
    ∧ ((∀ t id, id ∈ g.idsOf t ↔ ∃ e, g.get? id = some e ∧ e.type = t)
      ∧ ∀ t, (g.ofType t).Perm (g.entities.filter fun e => e.type == t)
          ∧ ((g.ofType t).map Entity.id).Pairwise (· < ·))
    ∧ (∀ x ∈ g.edges, ∃ s ∈ g.entities, ∃ t ∈ g.entities,
        g.relationOf? x = some ⟨s.id, t.id, x.type, x.metadata⟩)
    ∧ (g.relations.map Relation.key).Nodup
    ∧ ∀ r, ((g.addRelation r).1 = false
          ↔ (∀ e ∈ g.entities, e.id ≠ r.source) ∨ ∀ e ∈ g.entities, e.id ≠ r.target)
        ∧ ((g.addRelation r).1 = false → (g.addRelation r).2 = g) := by
  have hg := h.coherent
  refine ⟨⟨hg.ids_nodup, fun id e => hg.get?_eq_some_iff_mem⟩, ⟨?_, ?_⟩, ?_,
    hg.relation_keys_nodup, ?_⟩
  · intro t id
    exact hg.listed_iff
  · intro t
    refine ⟨hg.ofType_perm t, ?_⟩
    rw [hg.map_id_ofType]
    exact hg.byType_ascending t
  · -- an edge holds two slots, and each slot holds an entity
    intro x hx
    obtain ⟨r, hr⟩ := hg.exists_relationOf? hx
    obtain ⟨hs, ht, hty, hm⟩ := hg.relationOf?_eq_some_iff.1 hr
    obtain ⟨s, hs, hsid⟩ := hg.place_iff.1 hs
    obtain ⟨t, ht, htid⟩ := hg.place_iff.1 ht
    refine ⟨s, Array.mem_toList_iff.2 (Array.mem_of_getElem? hs), t,
      Array.mem_toList_iff.2 (Array.mem_of_getElem? ht), ?_⟩
    rw [hr, hsid, htid, ← hty, ← hm]
  · -- a relation is refused exactly when one of its ends is no entity
    intro r
    have hlacks : ∀ id, g.contains id = false ↔ ∀ e ∈ g.entities, e.id ≠ id := by
      intro id
      rw [contains, Option.isSome_eq_false_iff, Option.isNone_iff_eq_none]
      exact hg.place?_eq_none_iff
    rw [← hlacks, ← hlacks, Coherent.addRelation_fst, Bool.and_eq_false_iff]
    refine ⟨Iff.rfl, ?_⟩
    intro hfalse
    refine Coherent.relate_of_not g ?_
    rintro ⟨hs, ht⟩
    rw [hs, ht] at hfalse
    rcases hfalse with hfalse | hfalse
    · cases hfalse
    · cases hfalse

/-- An entity that comes back under another type is listed under that one only. -/
theorem parts_agree_retyped :
    let g := (empty.addEntity ⟨0, 0⟩ (Entity.new ⟨0, 0⟩ "a" "A" (.service {}))).addEntity ⟨1, 0⟩
      (Entity.new ⟨1, 0⟩ "a" "A" (.domain {}))
    "a" ∈ g.idsOf .domain ∧ "a" ∉ g.idsOf .service ∧ (g.ofType .domain).length = 1 := by
  intro g
  have hg : Reachable g := .addEntity _ _ (.addEntity _ _ .empty)
  obtain ⟨-, ⟨hlisted, hofType⟩, -⟩ := hg.parts_agree
  have hget : (g.get? "a").map Entity.type = some .domain := by decide
  obtain ⟨e, he, hty⟩ := Option.map_eq_some_iff.1 hget
  refine ⟨(hlisted _ _).2 ⟨e, he, hty⟩, ?_, ?_⟩
  · intro hmem
    obtain ⟨a, ha, hty'⟩ := (hlisted _ _).1 hmem
    cases he.symm.trans ha
    exact nomatch hty.symm.trans hty'
  · rw [(hofType .domain).1.length_eq]
    decide

end CodeAtlas.Graph
