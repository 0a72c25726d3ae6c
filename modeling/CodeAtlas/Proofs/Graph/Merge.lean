import CodeAtlas.Proofs.Graph.Reachable

/-!
# Merging graphs

Of two entities with an id a merge keeps the one changed later, and the first if they were changed
at the same time. Of two relations with a key it keeps the first. On the lists of two coherent
graphs it is the union of items with keys, so that its laws are those of the two joins.
-/

namespace CodeAtlas

namespace Instant

/-- An instant is before another by its seconds, or by its fractions in the same second. -/
theorem before_iff {a b : Instant} :
    a.before b = true ↔ a.seconds < b.seconds ∨ a.seconds = b.seconds ∧ a.nanos < b.nanos := by
  simp [before]

/-- Being before is transitive. -/
theorem before_trans {a b c : Instant} (hab : a.before b = true) (hbc : b.before c = true) :
    a.before c = true := by
  rw [before_iff] at *
  omega

/-- An instant before another is before any third, or that one is before the other. -/
theorem before_cotrans {a c : Instant} (b : Instant) (hac : a.before c = true) :
    a.before b = true ∨ b.before c = true := by
  rw [before_iff] at *
  rw [before_iff]
  omega

/-- No instant is before itself. -/
theorem before_irrefl (a : Instant) : ¬ a.before a = true := by
  rw [before_iff]
  omega

end Instant

namespace Graph

/-- Whether the second entity was changed later. -/
def later (a b : Entity) : Bool := a.updatedAt.before b.updatedAt

/-- Entities are ranked by the times at which they were changed. -/
theorem ranking_later : Keyed.Ranking later where
  irrefl a := Instant.before_irrefl a.updatedAt
  trans := Instant.before_trans
  cotrans b := Instant.before_cotrans b.updatedAt

/-- The entity that was changed later, the first of two that were changed at the same time. -/
def newer : Entity → Entity → Entity := Keyed.pick later

instance : Std.Associative newer := ⟨ranking_later.pick_assoc⟩

instance : Std.IdempotentOp newer := ⟨ranking_later.pick_self⟩

/-- The newer of two entities with one id has it. -/
theorem id_newer (a b : Entity) (h : a.id = b.id) : (newer a b).id = b.id := by
  rw [newer, Keyed.pick]
  split
  · rfl
  · exact h

/-- The order in which no relation is better than another. -/
theorem ranking_none : Keyed.Ranking fun _ _ : Relation => false where
  irrefl _ := Bool.false_ne_true
  trans := nofun
  cotrans _ := nofun

/-- The first of two relations. -/
def earlier : Relation → Relation → Relation := Keyed.pick fun _ _ => false

instance : Std.Associative earlier := ⟨ranking_none.pick_assoc⟩

instance : Std.IdempotentOp earlier := ⟨ranking_none.pick_self⟩

/-- The earlier of two relations with one key has it. -/
theorem key_earlier (r q : Relation) (h : r.key = q.key) : (earlier r q).key = q.key := h

/-! ## What merging does to the lists of a coherent graph -/

namespace Coherent

variable {g other : Graph}

/-- A coherent graph finds an id as its list of entities does. -/
theorem get?_eq_find? (hg : g.Coherent) (id : String) :
    g.get? id = Keyed.find? Entity.id id g.entities := by
  refine Option.ext fun e => ?_
  rw [hg.get?_eq_some_iff_mem, Keyed.find?_eq_some_iff hg.ids_nodup]

/-- A coherent graph contains the ids of its entities. -/
theorem contains_iff_mem (hg : g.Coherent) {id : String} :
    g.contains id = true ↔ id ∈ g.entities.map Entity.id := by
  rw [hg.contains_iff, List.mem_map]
  exact exists_congr fun e => hg.get?_eq_some_iff_mem

/-- On the list of entities, an entity is joined with the one that has its id. -/
theorem entities_mergeEntity (hg : g.Coherent) (e : Entity) :
    (g.mergeEntity e).entities = Keyed.upsert Entity.id newer e g.entities := by
  have hfind := hg.get?_eq_find? e.id
  rw [Graph.mergeEntity]
  cases hget : g.get? e.id with
  | some old =>
      rw [hget] at hfind
      show (if old.updatedAt.before e.updatedAt = true then g.put e else g).entities = _
      by_cases hlater : old.updatedAt.before e.updatedAt = true
      · rw [if_pos hlater, hg.entities_put]
        refine Keyed.upsert_congr fun a ha => ?_
        cases hfind.trans ha
        exact (if_pos hlater).symm
      · rw [if_neg hlater]
        exact (Keyed.upsert_eq_self hfind.symm (if_neg hlater)).symm
  | none =>
      rw [hget] at hfind
      show (g.put e).entities = _
      rw [hg.entities_put]
      refine Keyed.upsert_congr fun a ha => ?_
      cases hfind.trans ha

/-- Merging an entity leaves the relations. -/
theorem relations_mergeEntity (hg : g.Coherent) (e : Entity) :
    (g.mergeEntity e).relations = g.relations := by
  rw [Graph.mergeEntity]
  cases g.get? e.id with
  | some old =>
      show (if old.updatedAt.before e.updatedAt = true then g.put e else g).relations = _
      split
      · exact hg.relations_put e
      · rfl
  | none => exact hg.relations_put e

/-- Merging entities one after the other is a union on the list of entities. -/
theorem foldl_mergeEntity (hg : g.Coherent) (l : List Entity) :
    (l.foldl Graph.mergeEntity g).entities = Keyed.union Entity.id newer g.entities l
      ∧ (l.foldl Graph.mergeEntity g).relations = g.relations := by
  induction l generalizing g with
  | nil => exact ⟨rfl, rfl⟩
  | cons e rest ih =>
      obtain ⟨hentities, hrelations⟩ := ih (hg.mergeEntity e)
      rw [hg.entities_mergeEntity] at hentities
      rw [hg.relations_mergeEntity] at hrelations
      exact ⟨hentities, hrelations⟩

/-- Merging a relation leaves the entities. -/
theorem entities_mergeRelation (g : Graph) (r : Relation) :
    (g.mergeRelation r).entities = g.entities := by
  rw [Graph.mergeRelation]
  split
  · rfl
  · exact entities_relate g r

/-- On the list of relations, a relation between entities of the graph is put behind all others
unless there is one with its key. -/
theorem relations_mergeRelation (hg : g.Coherent) {r : Relation}
    (hends : g.contains r.source = true ∧ g.contains r.target = true) :
    (g.mergeRelation r).relations = Keyed.upsert Relation.key earlier r g.relations := by
  rw [Graph.mergeRelation]
  by_cases hhas : g.hasRelation r.source r.target r.type = true
  · obtain ⟨q, hq, hkey⟩ := hg.hasRelation_iff.1 hhas
    have hfind := (Keyed.find?_eq_some_iff hg.relation_keys_nodup).2 ⟨hq, hkey⟩
    rw [if_pos hhas]
    exact (Keyed.upsert_eq_self hfind rfl).symm
  · rw [if_neg hhas, hg.relations_relate, if_pos hends]
    refine Keyed.upsert_congr fun q hq => ?_
    obtain ⟨hmem, hkey⟩ := Keyed.mem_of_find? hq
    exact absurd (hg.hasRelation_iff.2 ⟨q, hmem, hkey⟩) hhas

/-- Merging relations one after the other is a union on the list of relations. -/
theorem foldl_mergeRelation (hg : g.Coherent) {l : List Relation}
    (hl : ∀ r ∈ l, g.contains r.source = true ∧ g.contains r.target = true) :
    (l.foldl Graph.mergeRelation g).relations = Keyed.union Relation.key earlier g.relations l
      ∧ (l.foldl Graph.mergeRelation g).entities = g.entities := by
  induction l generalizing g with
  | nil => exact ⟨rfl, rfl⟩
  | cons r rest ih =>
      obtain ⟨hr, hrest⟩ := List.forall_mem_cons.1 hl
      have hsame : ∀ id, (g.mergeRelation r).contains id = true ↔ g.contains id = true := by
        intro id
        rw [(hg.mergeRelation r).contains_iff_mem, hg.contains_iff_mem, entities_mergeRelation]
      obtain ⟨hrelations, hentities⟩ := ih (hg.mergeRelation r) fun q hq =>
        ⟨(hsame _).2 (hrest q hq).1, (hsame _).2 (hrest q hq).2⟩
      rw [hg.relations_mergeRelation hr] at hrelations
      rw [entities_mergeRelation] at hentities
      exact ⟨hrelations, hentities⟩

/-- The lists of a merged graph are unions. -/
theorem lists_merge (hg : g.Coherent) (ho : other.Coherent) :
    (g.merge other).entities = Keyed.union Entity.id newer g.entities other.entities
      ∧ (g.merge other).relations
        = Keyed.union Relation.key earlier g.relations other.relations := by
  obtain ⟨hentities, hrelations⟩ := hg.foldl_mergeEntity other.entities
  have hmid : (other.entities.foldl Graph.mergeEntity g).Coherent :=
    coherent_foldl (fun _ e h => h.mergeEntity e) _ hg
  -- all entities of the other graph are there when its relations come
  have hcontains : ∀ id, other.contains id = true →
      (other.entities.foldl Graph.mergeEntity g).contains id = true := by
    intro id hid
    rw [hmid.contains_iff_mem, hentities, Keyed.keys_union id_newer _ ho.ids_nodup]
    by_cases hin : id ∈ g.entities.map Entity.id
    · exact List.mem_append_left _ hin
    · refine List.mem_append_right _ (List.mem_filter.2 ⟨?_, decide_eq_true hin⟩)
      exact ho.contains_iff_mem.1 hid
  obtain ⟨hrelations', hentities'⟩ := hmid.foldl_mergeRelation fun r hr =>
    ⟨hcontains _ (ho.contains_ends hr).1, hcontains _ (ho.contains_ends hr).2⟩
  exact ⟨hentities'.trans hentities, hrelations'.trans (by rw [hrelations])⟩

/-! ## The laws -/

/-- Merging coherent graphs is associative. -/
theorem merge_assoc {a b c : Graph} (ha : a.Coherent) (hb : b.Coherent) (hc : c.Coherent) :
    (a.merge b).merge c = a.merge (b.merge c) := by
  have hab := ha.merge b
  have hbc := hb.merge c
  refine (hab.merge c).ext (ha.merge _) ?_ ?_
  · rw [(hab.lists_merge hc).1, (ha.lists_merge hb).1, (ha.lists_merge hbc).1,
      (hb.lists_merge hc).1, Keyed.union_assoc id_newer ha.ids_nodup hb.ids_nodup hc.ids_nodup]
  · rw [(hab.lists_merge hc).2, (ha.lists_merge hb).2, (ha.lists_merge hbc).2,
      (hb.lists_merge hc).2, Keyed.union_assoc key_earlier ha.relation_keys_nodup
        hb.relation_keys_nodup hc.relation_keys_nodup]

/-- Merging a coherent graph with itself changes nothing. -/
theorem merge_self (hg : g.Coherent) : g.merge g = g := by
  refine (hg.merge g).ext hg ?_ ?_
  · rw [(hg.lists_merge hg).1, Keyed.union_of_subset hg.ids_nodup fun _ => id]
  · rw [(hg.lists_merge hg).2, Keyed.union_of_subset hg.relation_keys_nodup fun _ => id]

/-- Merging a coherent graph into the empty one gives it. -/
theorem empty_merge (hg : g.Coherent) : Graph.empty.merge g = g := by
  have he := coherent_empty
  refine (he.merge g).ext hg ?_ ?_
  · rw [(he.lists_merge hg).1]
    exact Keyed.nil_union id_newer hg.ids_nodup
  · rw [(he.lists_merge hg).2]
    exact Keyed.nil_union key_earlier hg.relation_keys_nodup

/-- Under an id a merged graph has the newer of the entities of both sides. -/
theorem get?_merge (hg : g.Coherent) (ho : other.Coherent) (id : String) :
    (g.merge other).get? id = (g.get? id).merge newer (other.get? id) := by
  rw [(hg.merge other).get?_eq_find?, hg.get?_eq_find?, ho.get?_eq_find?,
    (hg.lists_merge ho).1, Keyed.find?_union id_newer id _ ho.ids_nodup]

/-- Under a key a merged graph has the earlier of the relations of both sides. -/
theorem find?_relations_merge (hg : g.Coherent) (ho : other.Coherent)
    (k : String × String × RelationType) :
    Keyed.find? Relation.key k (g.merge other).relations
      = (Keyed.find? Relation.key k g.relations).merge earlier
          (Keyed.find? Relation.key k other.relations) := by
  rw [(hg.lists_merge ho).2, Keyed.find?_union key_earlier k _ ho.relation_keys_nodup]

end Coherent

/-! ## Merging many graphs -/

/-- Merging a list of graphs into a coherent one gives a coherent one. -/
theorem coherent_foldl_merge {g : Graph} (hg : g.Coherent) (gs : List Graph) :
    (gs.foldl merge g).Coherent :=
  coherent_foldl (fun _ other h => h.merge other) gs hg

section
variable {gs : List Graph} (hgs : ∀ g ∈ gs, g.Coherent)
include hgs

/-- Graphs may be merged with each other before they are merged into another one. -/
theorem foldl_merge_eq {g : Graph} (hg : g.Coherent) :
    gs.foldl merge g = g.merge (gs.foldl merge empty) := by
  induction gs generalizing g with
  | nil => rfl
  | cons h rest ih =>
      obtain ⟨hh, hrest⟩ := List.forall_mem_cons.1 hgs
      have hall := coherent_foldl_merge coherent_empty rest
      rw [List.foldl_cons, List.foldl_cons, hh.empty_merge, ih hrest (hg.merge h), ih hrest hh,
        hg.merge_assoc hh hall]

/-- What is found under an id is the join of what is found in the graphs. -/
theorem get?_foldl_merge (id : String) :
    (gs.foldl merge empty).get? id
      = (gs.map fun g => g.get? id).foldr (Option.merge newer) none := by
  induction gs with
  | nil => rfl
  | cons g rest ih =>
      obtain ⟨hg, hrest⟩ := List.forall_mem_cons.1 hgs
      rw [List.foldl_cons, hg.empty_merge, foldl_merge_eq hrest hg,
        hg.get?_merge (coherent_foldl_merge coherent_empty rest), ih hrest]
      rfl

/-- The relation with a key is the join of those in the graphs. -/
theorem find?_relations_foldl_merge (k : String × String × RelationType) :
    Keyed.find? Relation.key k (gs.foldl merge empty).relations
      = (gs.map fun g => Keyed.find? Relation.key k g.relations).foldr
          (Option.merge earlier) none := by
  induction gs with
  | nil => rfl
  | cons g rest ih =>
      obtain ⟨hg, hrest⟩ := List.forall_mem_cons.1 hgs
      rw [List.foldl_cons, hg.empty_merge, foldl_merge_eq hrest hg,
        hg.find?_relations_merge (coherent_foldl_merge coherent_empty rest), ih hrest]
      rfl

end

/-- Merging graphs is associative and idempotent, and the empty graph is neutral on both sides. In
graphs merged from left to right, the entity of an id is that of the graphs that was changed last,
the leftmost of several; a relation is that of the leftmost graph that has one with its key; and no
id and no key of a relation is lost. -/
theorem merge_laws {a b c : Graph} (ha : Reachable a) (hb : Reachable b)
    (hc : Reachable c) {gs : List Graph} (hgs : ∀ g ∈ gs, Reachable g) :
    (a.merge b).merge c = a.merge (b.merge c)
    ∧ (a.merge a = a ∧ a.merge empty = a ∧ empty.merge a = a)
    ∧ (∀ id e, (gs.foldl merge empty).get? id = some e ↔
        ∃ left g right, gs = left ++ g :: right ∧ g.get? id = some e
          ∧ (∀ h ∈ left, ∀ x, h.get? id = some x → x.updatedAt.before e.updatedAt = true)
          ∧ ∀ h ∈ right, ∀ x, h.get? id = some x → ¬ e.updatedAt.before x.updatedAt = true)
    ∧ (∀ r, r ∈ (gs.foldl merge empty).relations ↔
        ∃ left g right, gs = left ++ g :: right ∧ r ∈ g.relations
          ∧ ∀ h ∈ left, ∀ q ∈ h.relations, q.key ≠ r.key)
    ∧ (∀ g ∈ gs, ∀ e ∈ g.entities, (gs.foldl merge empty).contains e.id = true)
    ∧ ∀ g ∈ gs, ∀ r ∈ g.relations,
        (gs.foldl merge empty).hasRelation r.source r.target r.type = true := by
  have hcoh : ∀ g ∈ gs, g.Coherent := fun g hg => (hgs g hg).coherent
  have hall := coherent_foldl_merge coherent_empty gs
  refine ⟨ha.coherent.merge_assoc hb.coherent hc.coherent,
    ⟨ha.coherent.merge_self, rfl, ha.coherent.empty_merge⟩, ?_, ?_, ?_, ?_⟩
  · -- an entity: the fold picks the latest, at equal times the first
    intro id e
    rw [get?_foldl_merge hcoh]
    exact ranking_later.foldr_merge_eq_some_iff.trans Keyed.Ranking.best_map_iff
  · -- a relation: keys are unique in each graph, so membership is what a search by key finds
    intro r
    have hfind : ∀ {g : Graph}, g.Coherent →
        (Keyed.find? Relation.key r.key g.relations = some r ↔ r ∈ g.relations) := by
      intro g hg
      rw [Keyed.find?_eq_some_iff hg.relation_keys_nodup]
      exact and_iff_left rfl
    rw [← hfind hall, find?_relations_foldl_merge hcoh]
    refine (ranking_none.foldr_merge_eq_some_iff.trans Keyed.Ranking.best_map_iff).trans ?_
    constructor
    · rintro ⟨left, g, right, rfl, hr, hleft, -⟩
      refine ⟨left, g, right, rfl, (Keyed.mem_of_find? hr).1, ?_⟩
      intro h hh q hq hkey
      have hnone : Keyed.find? Relation.key r.key h.relations = some q :=
        (Keyed.find?_eq_some_iff (hcoh h (List.mem_append_left _ hh)).relation_keys_nodup).2
          ⟨hq, hkey⟩
      exact nomatch hleft h hh q hnone
    · rintro ⟨left, g, right, rfl, hr, hleft⟩
      refine ⟨left, g, right, rfl, ?_, ?_, fun _ _ _ _ => Bool.false_ne_true⟩
      · exact (hfind (hcoh g (List.mem_append_right _ List.mem_cons_self))).2 hr
      · intro h hh q hq
        obtain ⟨hmem, hkey⟩ := Keyed.mem_of_find? hq
        exact absurd hkey (hleft h hh q hmem)
  · -- nothing is lost: a fold that found nothing would have met the entity of `g`
    intro g hg e he
    have hget := (hcoh g hg).get?_eq_some_iff_mem.2 ⟨he, rfl⟩
    refine hall.contains_iff.2 (Option.ne_none_iff_exists'.1 ?_)
    rw [get?_foldl_merge hcoh]
    intro hnone
    exact Keyed.foldr_merge_eq_none.1 hnone e (List.mem_map.2 ⟨g, hg, hget⟩)
  · intro g hg r hr
    have hfind := (Keyed.find?_eq_some_iff (hcoh g hg).relation_keys_nodup).2 ⟨hr, rfl⟩
    refine hall.hasRelation_iff.2 ?_
    cases hmerged : Keyed.find? Relation.key r.key (gs.foldl merge empty).relations with
    | some q => exact ⟨q, Keyed.mem_of_find? hmerged⟩
    | none =>
        rw [find?_relations_foldl_merge hcoh] at hmerged
        exact absurd (List.mem_map.2 ⟨g, hg, hfind⟩) (Keyed.foldr_merge_eq_none.1 hmerged r)

/-- Of three graphs that hold an id, the second one has the entity changed last. -/
theorem merge_laws_three :
    let made := fun seconds name => Entity.new ⟨seconds, 0⟩ "a" name (.service {})
    let a := empty.put (made 1 "A")
    let b := empty.put (made 2 "B")
    let c := empty.put (made 2 "C")
    (a.merge b).merge c = a.merge (b.merge c)
      ∧ (((a.merge b).merge c).get? "a").map Entity.name = some "B" := by
  intro made a b c
  have hr : ∀ e, Reachable (empty.put e) := fun e => .ofLists [e] []
  have hgs : ∀ g ∈ [a, b, c], Reachable g := by
    intro g hg
    simp only [List.mem_cons, List.not_mem_nil, or_false] at hg
    rcases hg with rfl | rfl | rfl
    · exact hr _
    · exact hr _
    · exact hr _
  obtain ⟨hassoc, ⟨-, -, hempty⟩, hlast, -⟩ := merge_laws (hr (made 1 "A")) (hr _) (hr _) hgs
  refine ⟨hassoc, ?_⟩
  have hget : ([a, b, c].foldl merge empty).get? "a" = some (made 2 "B") := by
    refine (hlast _ _).2 ⟨[a], b, [c], rfl, rfl, ?_, ?_⟩
    · intro h hh x hx
      cases List.mem_singleton.1 hh
      cases (show some (made 1 "A") = some x from hx)
      decide
    · intro h hh x hx
      cases List.mem_singleton.1 hh
      cases (show some (made 2 "C") = some x from hx)
      decide
  have hfold : [a, b, c].foldl merge empty = (a.merge b).merge c :=
    congrArg (fun g => (g.merge b).merge c) hempty
  rw [← hfold, hget]
  rfl

/-! ## Graphs from lists

A graph is built from any lists of entities and relations: of entities with one id the last one
stays, of relations with one key the last one between entities of the list. A graph that was built
so, or in any other way, is built again from its own lists.
-/

section
variable {g : Graph}

namespace Coherent

/-- Putting entities in gives their union by id, of which the last counts, and leaves the
relations. -/
theorem lists_foldl_put (hg : g.Coherent) (es : List Entity) :
    (es.foldl Graph.put g).Coherent
      ∧ (es.foldl Graph.put g).entities = Keyed.union Entity.id Keyed.last g.entities es
      ∧ (es.foldl Graph.put g).relations = g.relations := by
  induction es generalizing g with
  | nil => exact ⟨hg, rfl, rfl⟩
  | cons e rest ih =>
      obtain ⟨hcoherent, hentities, hrelations⟩ := ih (hg.put e)
      rw [hg.entities_put] at hentities
      rw [hg.relations_put] at hrelations
      exact ⟨hcoherent, hentities, hrelations⟩

/-- Adding a relation leaves the ids that relations may have. -/
theorem hasEnds_relate (g : Graph) (r : Relation) : (g.relate r).hasEnds = g.hasEnds := by
  funext q
  rw [hasEnds, hasEnds, contains, contains, contains, contains, place?, place?, place?, place?,
    (relate_same g r).2.1]

/-- Adding relations gives their union by key, of which the last counts, without those that lack an
end. -/
theorem lists_foldl_relate (hg : g.Coherent) (rs : List Relation) :
    (rs.foldl Graph.relate g).entities = g.entities
      ∧ (rs.foldl Graph.relate g).relations
        = Keyed.union Relation.key Keyed.last g.relations (rs.filter g.hasEnds) := by
  induction rs generalizing g with
  | nil => exact ⟨rfl, rfl⟩
  | cons r rest ih =>
      obtain ⟨hentities, hrelations⟩ := ih (hg.relate r)
      rw [entities_relate] at hentities
      rw [hasEnds_relate, hg.relations_relate] at hrelations
      refine ⟨hentities, hrelations.trans ?_⟩
      rw [List.filter_cons]
      by_cases h : g.contains r.source = true ∧ g.contains r.target = true
      · have hends : g.hasEnds r = true := Bool.and_eq_true_iff.2 h
        rw [if_pos h, if_pos hends]
        rfl
      · have hends : ¬ g.hasEnds r = true := fun h' => h (Bool.and_eq_true_iff.1 h')
        rw [if_neg h, if_neg hends]

end Coherent

/-- Whether both ends of a relation are ids of entities. -/
def bothIn (es : List Entity) (k : String × String × RelationType) : Bool :=
  (es.map Entity.id).contains k.1 && (es.map Entity.id).contains k.2.1

/-- A graph of lists has their unions, the last of each id and of each key. -/
theorem lists_ofLists (es : List Entity) (rs : List Relation) :
    (ofLists es rs).entities = Keyed.union Entity.id Keyed.last [] es
      ∧ (ofLists es rs).relations
        = Keyed.union Relation.key Keyed.last [] (rs.filter fun r => bothIn es r.key) := by
  obtain ⟨hcoherent, hentities, hrelations⟩ := coherent_empty.lists_foldl_put es
  obtain ⟨hentities', hrelations'⟩ := hcoherent.lists_foldl_relate rs
  have hids : ∀ id, (es.foldl put empty).contains id = (es.map Entity.id).contains id := by
    intro id
    rw [Bool.eq_iff_iff, hcoherent.contains_iff_mem, hentities, List.contains_iff_mem]
    constructor
    · intro h
      obtain ⟨e, he, rfl⟩ := List.mem_map.1 h
      exact List.mem_map_of_mem
        ((Keyed.mem_union Keyed.picks_last he).resolve_left List.not_mem_nil)
    · intro h
      obtain ⟨e, he, rfl⟩ := List.mem_map.1 h
      exact Keyed.mem_keys_union_right (Keyed.key_last Entity.id) he _
  have hends : (es.foldl put empty).hasEnds = fun r => bothIn es r.key := by
    funext r
    rw [hasEnds, hids, hids]
    rfl
  refine ⟨hentities'.trans hentities, ?_⟩
  rw [ofLists, hrelations', hrelations, hends]
  rfl

/-- The entities of a graph of lists are among those of the list. -/
theorem mem_of_mem_entities_ofLists {es : List Entity} {rs : List Relation} {e : Entity}
    (h : e ∈ (ofLists es rs).entities) : e ∈ es := by
  rw [(lists_ofLists es rs).1] at h
  exact (Keyed.mem_union Keyed.picks_last h).resolve_left List.not_mem_nil

/-- The relations of a graph of lists are among those of the list. -/
theorem mem_of_mem_relations_ofLists {es : List Entity} {rs : List Relation} {r : Relation}
    (h : r ∈ (ofLists es rs).relations) : r ∈ rs := by
  rw [(lists_ofLists es rs).2] at h
  exact List.mem_of_mem_filter
    ((Keyed.mem_union Keyed.picks_last h).resolve_left List.not_mem_nil)

/-- Of entities with one id the last one stays. -/
theorem get?_ofLists (es : List Entity) (rs : List Relation) (id : String) :
    (ofLists es rs).get? id = es.reverse.find? fun e => e.id = id := by
  rw [(coherent_ofLists es rs).get?_eq_find?, (lists_ofLists es rs).1, Keyed.find?_union_last]
  exact Option.or_none

/-- Of relations with one key the last one stays if both of its ends are there. -/
theorem find?_relations_ofLists (es : List Entity) (rs : List Relation)
    (k : String × String × RelationType) :
    Keyed.find? Relation.key k (ofLists es rs).relations
      = if bothIn es k then Keyed.find? Relation.key k rs.reverse else none := by
  have hkept : Keyed.find? Relation.key k (rs.reverse.filter fun r => bothIn es r.key)
      = if bothIn es k then Keyed.find? Relation.key k rs.reverse else none :=
    Keyed.find?_filter (bothIn es) k rs.reverse
  rw [(lists_ofLists es rs).2, Keyed.find?_union_last, ← List.filter_reverse, hkept]
  exact Option.or_none

/-- A graph is built again from its lists. -/
theorem Coherent.ofLists_lists (hg : g.Coherent) : ofLists g.entities g.relations = g := by
  obtain ⟨hentities, hrelations⟩ := lists_ofLists g.entities g.relations
  have hall : (g.relations.filter fun r => bothIn g.entities r.key) = g.relations := by
    refine List.filter_eq_self.2 fun r hr => ?_
    obtain ⟨hsource, htarget⟩ := hg.contains_ends hr
    exact Bool.and_eq_true_iff.2 ⟨List.contains_iff_mem.2 (hg.contains_iff_mem.1 hsource),
      List.contains_iff_mem.2 (hg.contains_iff_mem.1 htarget)⟩
  refine (coherent_ofLists _ _).ext hg ?_ ?_
  · rw [hentities, Keyed.nil_union (Keyed.key_last Entity.id) hg.ids_nodup]
  · rw [hrelations, hall, Keyed.nil_union (Keyed.key_last Relation.key) hg.relation_keys_nodup]

end

end Graph

end CodeAtlas
