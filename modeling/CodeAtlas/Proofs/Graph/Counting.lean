import CodeAtlas.Proofs.Graph.Components
import CodeAtlas.Proofs.Graph.Querying
import CodeAtlas.Proofs.Json.Sorting
import Mathlib.Algebra.BigOperators.Group.List.Lemmas
import Mathlib.SetTheory.Cardinal.Finite

/-!
# Statistics

The statistics of a graph count what is in its lists. Counts by type have an entry for every type
that occurs and for no other, so they add up to the total. The number of connected parts is that of
the classes into which the relations divide the entities.
-/

namespace CodeAtlas.Graph

/-! ## Counts -/

/-- Some numbers, by label, are those of the items of a list that have a kind with this label: a
kind that occurs has its number, and there is no other entry. -/
structure Counts {α : Type} [DecidableEq α] (label : α → String) (l : List α)
    (counts : List (String × Nat)) : Prop where
  ascending : Json.Ascending counts
  mem_iff : ∀ {k n}, (k, n) ∈ counts ↔ ∃ a ∈ l, label a = k ∧ l.count a = n

section
variable {α : Type} [DecidableEq α] {label : α → String} {all : List α} (hall : all.Nodup)
  (hmem : ∀ a, a ∈ all) (hlabel : Function.Injective label) (l : List α)

/-- Counting goes through the kinds that occur. -/
theorem countByLabel_eq (all : List α) (label : α → String) (l : List α) :
    countByLabel all label l
      = Json.sortMembers ((all.filter fun a => a ∈ l).map fun a => (label a, l.count a)) := by
  rw [countByLabel]
  congr 1
  rw [← List.filterMap_eq_map, List.filterMap_filter]
  refine List.filterMap_congr fun a _ => ?_
  by_cases ha : a ∈ l
  · rw [if_pos (decide_eq_true ha)]
    exact if_neg fun h => List.count_eq_zero.1 h ha
  · rw [if_neg fun h => ha (of_decide_eq_true h)]
    exact if_pos (List.count_eq_zero.2 ha)

include hall hmem hlabel

/-- Counting by label counts every kind that occurs, if all kinds are gone through and no two have
the same label. -/
theorem countByLabel_perm :
    (countByLabel all label l).Perm (l.dedup.map fun a => (label a, l.count a)) := by
  have hkinds : (all.filter fun a => a ∈ l).Perm l.dedup := by
    refine (List.perm_ext_iff_of_nodup (hall.filter _) l.nodup_dedup).2 fun a => ?_
    rw [List.mem_filter, decide_eq_true_iff, List.mem_dedup]
    exact and_iff_right (hmem a)
  have hkeys : (((all.filter fun a => a ∈ l).map fun a => (label a, l.count a)).map
      Prod.fst).Nodup := by
    rw [List.map_map]
    exact (hall.filter _).map hlabel
  rw [countByLabel_eq]
  exact (Json.sortMembers_perm hkeys).trans (hkinds.map _)

/-- What is counted by label is counted once for each label that occurs, in ascending order. -/
theorem counts_countByLabel : Counts label l (countByLabel all label l) where
  ascending := by
    rw [countByLabel_eq]
    exact Json.ascending_sortMembers _
  mem_iff := by
    intro k n
    rw [(countByLabel_perm hall hmem hlabel l).mem_iff, List.mem_map]
    simp only [List.mem_dedup, Prod.mk.injEq]

/-- Counts add up to the number of items. -/
theorem sum_countByLabel : ((countByLabel all label l).map Prod.snd).sum = l.length := by
  rw [((countByLabel_perm hall hmem hlabel l).map Prod.snd).sum_eq, List.map_map]
  exact List.sum_map_count_dedup_eq_length l

end

theorem nodup_all_entityType : EntityType.all.Nodup := by decide

theorem nodup_all_relationType : RelationType.all.Nodup := by decide

/-- Types of entities have different labels. -/
theorem label_injective_entityType : Function.Injective EntityType.label := by
  intro t u h
  revert h
  cases t <;> cases u <;> decide

/-- Every type of relation is in the list of them. -/
theorem mem_all_relationType (t : RelationType) : t ∈ RelationType.all := by
  cases t <;> decide

/-- Types of relations have different labels. -/
theorem label_injective_relationType : Function.Injective RelationType.label := by
  intro t u h
  revert h
  cases t <;> cases u <;> decide

/-! ## Classes -/

/-- There are as many parts as there are classes, if what is named in the same part is in the same
class. -/
theorem Partition.length_eq_card {ids : List String} {parts : List (List String)}
    (h : Partition ids parts) (hids : ids.Nodup) {α : Type} (s : Setoid α) (name : α → String)
    (hname : ∀ {id}, id ∈ ids ↔ ∃ a, name a = id)
    (hs : ∀ {a b}, s a b ↔ Together parts (name a) (name b)) :
    parts.length = Nat.card (Quotient s) := by
  have hfilled : ∀ p : {p // p ∈ parts}, ∃ a, name a ∈ p.1 := by
    rintro ⟨p, hp⟩
    obtain ⟨id, hid⟩ := List.exists_mem_of_ne_nil p (h.filled p hp)
    obtain ⟨a, rfl⟩ := hname.1 (h.perm.mem_iff.1 (List.mem_flatten.2 ⟨p, hp, hid⟩))
    exact ⟨a, hid⟩
  choose member hmember using hfilled
  -- the class of a member of a part
  have hbijective : Function.Bijective fun p => Quotient.mk s (member p) := by
    constructor
    case left =>
      intro p q hpq
      obtain ⟨r, hr, hp, hq⟩ := hs.1 (Quotient.exact hpq)
      exact Subtype.ext ((h.eq_of_mem hids p.2 hr (hmember p) hp).trans
        (h.eq_of_mem hids hr q.2 hq (hmember q)))
    case right =>
      intro c
      obtain ⟨a, rfl⟩ := Quotient.exists_rep c
      obtain ⟨p, hp, ha⟩ := List.mem_flatten.1 (h.perm.mem_iff.2 (hname.2 ⟨a, rfl⟩))
      exact ⟨⟨p, hp⟩, Quotient.sound (hs.2 ⟨p, hp, hmember ⟨p, hp⟩, ha⟩)⟩
  rw [← Nat.card_eq_of_bijective _ hbijective,
    Nat.subtype_card parts.toFinset fun _ => List.mem_toFinset,
      List.toFinset_card_of_nodup (h.nodup hids)]

namespace Coherent

variable {g : Graph}

/-- What relations connect an entity with is an entity. -/
theorem contains_of_eqvGen (hg : g.Coherent) {x y : String} (h : Relation.EqvGen g.Linked x y) :
    g.contains x = true ↔ g.contains y = true := by
  induction h with
  | rel x y hxy =>
      obtain ⟨q, hq, rfl, rfl⟩ := hxy
      obtain ⟨hs, ht⟩ := hg.contains_ends hq
      exact iff_of_true hs ht
  | refl x => exact Iff.rfl
  | symm x y _ ih => exact ih.symm
  | trans x y z _ _ ih ih' => exact ih.trans ih'

end Coherent

/-- Whether a relation leads from an entity of a graph to another. -/
def Adjoins (g : Graph) (a b : {e // e ∈ g.entities}) : Prop := g.Linked a.1.id b.1.id

namespace Coherent

variable {g : Graph}

/-- Entities are connected exactly if their ids are. -/
theorem eqvGen_adjoins (hg : g.Coherent) {a b : {e // e ∈ g.entities}} :
    Relation.EqvGen g.Adjoins a b ↔ Relation.EqvGen g.Linked a.1.id b.1.id := by
  constructor
  · intro h
    induction h with
    | rel a b h => exact .rel _ _ h
    | refl a => exact .refl _
    | symm a b _ ih => exact ih.symm
    | trans a b c _ _ ih ih' => exact ih.trans _ _ _ ih'
  · intro h
    have hall : ∀ {x y}, Relation.EqvGen g.Linked x y → ∀ a b : {e // e ∈ g.entities},
        a.1.id = x → b.1.id = y → Relation.EqvGen g.Adjoins a b := by
      intro x y hxy
      induction hxy with
      | rel x y hxy =>
          rintro a b rfl rfl
          exact .rel _ _ hxy
      | refl x =>
          rintro a b ha hb
          rw [Subtype.ext (hg.eq_of_id a.2 b.2 (ha.trans hb.symm))]
          exact .refl b
      | symm x y _ ih => exact fun a b ha hb => (ih b a hb ha).symm
      | trans x y z hxy _ ih ih' =>
          -- the middle of two steps is an entity, as the ends of a relation are
          rintro a b rfl hb
          obtain ⟨e, he⟩ := hg.contains_iff.1
            ((hg.contains_of_eqvGen hxy).1 (hg.contains_iff_mem.2 (List.mem_map_of_mem a.2)))
          obtain ⟨hmem, hid⟩ := hg.get?_eq_some_iff_mem.1 he
          exact (ih a ⟨e, hmem⟩ rfl hid).trans _ _ _ (ih' ⟨e, hmem⟩ b hid hb)
    exact hall h a b rfl rfl

/-- There are as many parts as classes of connected entities. -/
theorem length_components_eq_card (hg : g.Coherent) :
    g.components.length = Nat.card (Quotient (Relation.EqvGen.setoid g.Adjoins)) := by
  refine hg.partition_components.length_eq_card hg.ids_nodup _ (fun a => a.1.id) ?_ ?_
  · intro id
    rw [List.mem_map]
    exact ⟨fun ⟨e, he, hid⟩ => ⟨⟨e, he⟩, hid⟩, fun ⟨a, hid⟩ => ⟨a.1, a.2, hid⟩⟩
  · intro a b
    rw [hg.together_components (hg.contains_iff_mem.2 (List.mem_map_of_mem a.2))]
    exact hg.eqvGen_adjoins

/-- The entities of a type are counted from the listing. -/
theorem entityCounts_eq (hg : g.Coherent) : g.statistics.entityCounts
    = countByLabel EntityType.all EntityType.label (g.entities.map Entity.type) := by
  have hcount : ∀ t, (g.idsOf t).length = (g.entities.map Entity.type).count t := by
    intro t
    rw [← hg.map_id_ofType, List.length_map, (hg.ofType_perm t).length_eq, List.count_eq_countP,
      List.countP_map, List.countP_eq_length_filter]
    rfl
  rw [statistics]
  simp only [hcount]
  rfl

/-- Every edge is a relation of its type. -/
theorem map_type_relations (hg : g.Coherent) :
    g.relations.map Relation.type = g.edges.map Edge.type := by
  rw [relations, List.map_filterMap, ← List.filterMap_eq_map]
  refine List.filterMap_congr fun x hx => ?_
  obtain ⟨r, hr⟩ := hg.exists_relationOf? hx
  obtain ⟨-, -, htype, -⟩ := hg.relationOf?_eq_some_iff.1 hr
  rw [hr, Option.map_some, htype]
  rfl

end Coherent

/-- The counts of statistics are those of the entities and the relations by their types and add up
to the totals, which are the lengths of the lists of the graph's document. There are as many
connected parts as classes of entities that relations connect in whichever direction. -/
theorem Reachable.statistics_exact {g : Graph} (h : Reachable g) :
    Counts EntityType.label (g.entities.map Entity.type) g.statistics.entityCounts
      ∧ Counts RelationType.label (g.relations.map Relation.type) g.statistics.relationCounts
      ∧ (g.statistics.entityCounts.map Prod.snd).sum = g.statistics.totalEntities
      ∧ (g.statistics.relationCounts.map Prod.snd).sum = g.statistics.totalRelations
      ∧ (∃ entities relations,
          g.toJson = .obj [("entities", .arr entities), ("relations", .arr relations)]
          ∧ entities.length = g.statistics.totalEntities
          ∧ relations.length = g.statistics.totalRelations)
      ∧ g.statistics.connectedComponents
          = Nat.card (Quotient (Relation.EqvGen.setoid g.Adjoins)) := by
  have hg := h.coherent
  have hentities : g.statistics.totalEntities = g.entities.length := Array.length_toList.symm
  -- each edge shows one relation, so the two lists have one length
  have hrelations : g.statistics.totalRelations = g.relations.length := by
    have hlength := congrArg List.length hg.map_type_relations
    rw [List.length_map, List.length_map] at hlength
    exact hlength.symm
  have hcounts : g.statistics.relationCounts = countByLabel RelationType.all RelationType.label
      (g.relations.map Relation.type) := by
    rw [hg.map_type_relations]
    rfl
  rw [hg.entityCounts_eq, hcounts, hentities, hrelations]
  refine ⟨?_, ?_, ?_, ?_, ?_, hg.length_components_eq_card⟩
  case refine_1 =>
    exact counts_countByLabel nodup_all_entityType Listing.mem_all label_injective_entityType _
  case refine_2 =>
    exact counts_countByLabel nodup_all_relationType mem_all_relationType
      label_injective_relationType _
  case refine_3 =>
    rw [sum_countByLabel nodup_all_entityType Listing.mem_all label_injective_entityType,
      List.length_map]
  case refine_4 =>
    rw [sum_countByLabel nodup_all_relationType mem_all_relationType label_injective_relationType,
      List.length_map]
  case refine_5 =>
    exact ⟨_, _, rfl, List.length_map _, List.length_map _⟩

/-- Two relations with opposite directions, one from an entity to itself, and an entity that came
back under another type and that no relation leads to. -/
theorem statistics_exact_retyped :
    let service := fun id => Entity.new ⟨0, 0⟩ id id (.service {})
    let g := (ofLists [service "a", service "b", service "c"]
      [⟨"a", "a", .uses, []⟩, ⟨"a", "b", .calls, []⟩, ⟨"b", "a", .uses, []⟩]).addEntity ⟨1, 0⟩
        (Entity.new ⟨1, 0⟩ "c" "C" (.api {}))
    (("service", 2) ∈ g.statistics.entityCounts ∧ ("api", 1) ∈ g.statistics.entityCounts)
      ∧ (∀ n, ("schema", n) ∉ g.statistics.entityCounts)
      ∧ ("uses", 2) ∈ g.statistics.relationCounts
      ∧ (g.statistics.relationCounts.map Prod.snd).sum = 3
      ∧ Nat.card (Quotient (Relation.EqvGen.setoid g.Adjoins)) = 2 := by
  intro service g
  have hg : Reachable g := .addEntity _ _ (.ofLists _ _)
  obtain ⟨hentities, hrelations, -, hsum, -, hparts⟩ := hg.statistics_exact
  have htypes : g.entities.map Entity.type = [.service, .service, .api] := by decide
  have hlinks : g.relations.map Relation.type = [.uses, .calls, .uses] := by decide
  rw [htypes] at hentities
  rw [hlinks] at hrelations
  refine ⟨⟨hentities.mem_iff.2 ?_, hentities.mem_iff.2 ?_⟩, ?_, hrelations.mem_iff.2 ?_, ?_, ?_⟩
  · exact ⟨.service, by decide, rfl, rfl⟩
  · exact ⟨.api, by decide, rfl, rfl⟩
  · intro n hmem
    obtain ⟨t, ht, hlabel, -⟩ := hentities.mem_iff.1 hmem
    have hnone : ∀ t ∈ [EntityType.service, .service, .api], t.label ≠ "schema" := by decide
    exact hnone t ht hlabel
  · exact ⟨.uses, by decide, rfl, rfl⟩
  · have htotal : g.statistics.totalRelations = 3 := by decide
    exact hsum.trans htotal
  · have hcount : g.statistics.connectedComponents = 2 := by decide
    exact hparts.symm.trans hcount

end CodeAtlas.Graph
