import CodeAtlas.Proofs.Graph.Merge
import Mathlib.Data.List.Nodup
import Mathlib.Data.List.Pairwise
import Mathlib.Logic.Relation

/-!
# Connected parts

The parts that the relations of a graph join are disjoint, none of them is empty, and every id is in
one of them. Two ids are in the same part if relations lead from one to the other, in whichever
direction these point, and only then.
-/

namespace CodeAtlas.Graph

/-- Whether a relation leads from one id to another. -/
def Linked (g : Graph) (a b : String) : Prop := ∃ q ∈ g.relations, q.source = a ∧ q.target = b

/-- Whether two ids are in the same part. -/
def Together (parts : List (List String)) (a b : String) : Prop := ∃ p ∈ parts, a ∈ p ∧ b ∈ p

/-- Some lists have every id in one place, and none of them is empty. -/
structure Partition (ids : List String) (parts : List (List String)) : Prop where
  perm : parts.flatten.Perm ids
  filled : ∀ p ∈ parts, p ≠ []

variable {ids : List String} {parts : List (List String)} {a b c : String}

/-! ## Parts -/

/-- Being together is symmetric. -/
theorem Together.symm (h : Together parts a b) : Together parts b a := by
  obtain ⟨p, hp, ha, hb⟩ := h
  exact ⟨p, hp, hb, ha⟩

/-- Every id alone is a part of the finest partition. -/
theorem partition_singletons (ids : List String) : Partition ids (ids.map fun id => [id]) where
  perm := by rw [← List.flatMap_def, List.flatMap_singleton']
  filled := List.forall_mem_map.2 fun _ _ => List.cons_ne_nil _ _

namespace Partition

/-- An id is together with itself. -/
theorem together_self (h : Partition ids parts) (ha : a ∈ ids) : Together parts a a := by
  obtain ⟨p, hp, hmem⟩ := List.mem_flatten.1 (h.perm.mem_iff.2 ha)
  exact ⟨p, hp, hmem, hmem⟩

/-- No two parts share an id. -/
theorem eq_of_mem (h : Partition ids parts) (hids : ids.Nodup) {p q : List String} (hp : p ∈ parts)
    (hq : q ∈ parts) (ha : a ∈ p) (ha' : a ∈ q) : p = q := by
  obtain ⟨-, hdisjoint⟩ := List.nodup_flatten.1 (h.perm.nodup_iff.2 hids)
  have hsymm : Std.Symm (List.Disjoint (α := String)) := ⟨fun _ _ hd _ h h' => hd h' h⟩
  by_contra hne
  exact hdisjoint.forall hp hq hne ha ha'

/-- Being together is transitive. -/
theorem together_trans (h : Partition ids parts) (hids : ids.Nodup) (hab : Together parts a b)
    (hbc : Together parts b c) : Together parts a c := by
  obtain ⟨p, hp, ha, hb⟩ := hab
  obtain ⟨q, hq, hb', hc⟩ := hbc
  obtain rfl := h.eq_of_mem hids hp hq hb hb'
  exact ⟨p, hp, ha, hc⟩

/-- No part is there twice. -/
theorem nodup (h : Partition ids parts) (hids : ids.Nodup) : parts.Nodup := by
  obtain ⟨-, hdisjoint⟩ := List.nodup_flatten.1 (h.perm.nodup_iff.2 hids)
  refine hdisjoint.imp_of_mem fun {p q} hp _ hd heq => ?_
  subst heq
  obtain ⟨a, ha⟩ := List.exists_mem_of_ne_nil p (h.filled p hp)
  exact hd ha ha

/-- There is one part if all ids are in the same. -/
theorem length_eq_one (h : Partition ids parts) (hids : ids.Nodup) (ha : a ∈ ids)
    (hall : ∀ b ∈ ids, Together parts a b) : parts.length = 1 := by
  obtain ⟨p, hp, hmem⟩ := List.mem_flatten.1 (h.perm.mem_iff.2 ha)
  have hsame : ∀ q ∈ parts, q = p := by
    intro q hq
    obtain ⟨b, hb⟩ := List.exists_mem_of_ne_nil q (h.filled q hq)
    obtain ⟨p', hp', ha', hb'⟩ := hall b (h.perm.mem_iff.1 (List.mem_flatten.2 ⟨q, hq, hb⟩))
    rw [h.eq_of_mem hids hq hp' hb hb', h.eq_of_mem hids hp' hp ha' hmem]
  have hsingle : parts.Perm [p] := by
    refine (List.perm_ext_iff_of_nodup (h.nodup hids) (List.nodup_singleton p)).2 fun q => ?_
    rw [List.mem_singleton]
    exact ⟨hsame q, fun hq => hq ▸ hp⟩
  exact hsingle.length_eq

end Partition

/-! ## Joining parts -/

/-- A relation joins the parts that hold its ends and leaves the others. -/
theorem joinParts_eq (parts : List (List String)) (q : Relation) :
    joinParts parts q = (parts.filter fun p => p.contains q.source || p.contains q.target).flatten
      :: parts.filter fun p => !(p.contains q.source || p.contains q.target) := by
  rw [joinParts, List.partition_eq_filter_filter]
  rfl

/-- Two ids are in the same part behind joining those at the ends of a relation if they were before,
or if both were with an end. -/
theorem together_joinParts {q : Relation} : Together (joinParts parts q) a b
    ↔ Together parts a b ∨ (Together parts a q.source ∨ Together parts a q.target)
      ∧ (Together parts b q.source ∨ Together parts b q.target) := by
  -- the new part is made of all parts that hold an end of `q`
  have hmet : ∀ {x : String}, x ∈ (parts.filter fun p =>
      p.contains q.source || p.contains q.target).flatten
      ↔ Together parts x q.source ∨ Together parts x q.target := by
    intro x
    simp only [List.mem_flatten, List.mem_filter, Bool.or_eq_true, List.contains_iff_mem, Together]
    constructor
    · rintro ⟨p, ⟨hp, hend | hend⟩, hx⟩
      · exact .inl ⟨p, hp, hx, hend⟩
      · exact .inr ⟨p, hp, hx, hend⟩
    · rintro (⟨p, hp, hx, hend⟩ | ⟨p, hp, hx, hend⟩)
      · exact ⟨p, ⟨hp, .inl hend⟩, hx⟩
      · exact ⟨p, ⟨hp, .inr hend⟩, hx⟩
  rw [joinParts_eq, Together]
  constructor
  · rintro ⟨p, hp, ha, hb⟩
    rcases List.mem_cons.1 hp with rfl | hp
    · exact .inr ⟨hmet.1 ha, hmet.1 hb⟩
    · exact .inl ⟨p, (List.mem_filter.1 hp).1, ha, hb⟩
  · rintro (⟨p, hp, ha, hb⟩ | ⟨ha, hb⟩)
    · -- a part that holds an end goes into the new one, the others stay
      by_cases hends : (p.contains q.source || p.contains q.target) = true
      · have hmem : p ∈ parts.filter fun p => p.contains q.source || p.contains q.target :=
          List.mem_filter.2 ⟨hp, hends⟩
        exact ⟨_, List.mem_cons_self, List.mem_flatten.2 ⟨p, hmem, ha⟩,
          List.mem_flatten.2 ⟨p, hmem, hb⟩⟩
      · refine ⟨p, List.mem_cons_of_mem _ (List.mem_filter.2 ⟨hp, ?_⟩), ha, hb⟩
        rw [Bool.eq_false_of_not_eq_true hends]
        rfl
    · exact ⟨_, List.mem_cons_self, hmet.2 ha, hmet.2 hb⟩

/-- Joining parts moves ids, but leaves every one in one place. -/
theorem Partition.joinParts (h : Partition ids parts) {q : Relation} (hq : q.source ∈ ids) :
    Partition ids (joinParts parts q) := by
  rw [joinParts_eq]
  constructor
  case perm =>
    have hperm := (List.filter_append_perm
      (fun p : List String => p.contains q.source || p.contains q.target) parts).flatten
    rw [List.flatten_append] at hperm
    exact hperm.trans h.perm
  case filled =>
    refine List.forall_mem_cons.2 ⟨?_, fun p hp => h.filled p (List.mem_filter.1 hp).1⟩
    obtain ⟨p, hp, hmem⟩ := List.mem_flatten.1 (h.perm.mem_iff.2 hq)
    refine List.ne_nil_of_mem (List.mem_flatten.2 ⟨p, List.mem_filter.2 ⟨hp, ?_⟩, hmem⟩)
    rw [List.contains_iff_mem.2 hmem, Bool.true_or]

section
variable {relations : List Relation}

/-- Joining parts along relations gives a partition. -/
theorem Partition.foldl_joinParts (h : Partition ids parts)
    (hends : ∀ q ∈ relations, q.source ∈ ids ∧ q.target ∈ ids) :
    Partition ids (relations.foldl Graph.joinParts parts) := by
  induction relations generalizing parts with
  | nil => exact h
  | cons q rest ih =>
      obtain ⟨hq, hrest⟩ := List.forall_mem_cons.1 hends
      exact ih (h.joinParts hq.1) hrest

/-- Joining parts separates no ids. -/
theorem Together.foldl_joinParts (h : Together parts a b) (relations : List Relation) :
    Together (relations.foldl joinParts parts) a b := by
  induction relations generalizing parts with
  | nil => exact h
  | cons q rest ih => exact ih (together_joinParts.2 (.inl h))

/-- The ends of every relation are in the same part in the end. -/
theorem Partition.together_ends (h : Partition ids parts)
    (hends : ∀ q ∈ relations, q.source ∈ ids ∧ q.target ∈ ids) :
    ∀ q ∈ relations, Together (relations.foldl Graph.joinParts parts) q.source q.target := by
  induction relations generalizing parts with
  | nil => exact List.forall_mem_nil _
  | cons q rest ih =>
      obtain ⟨hq, hrest⟩ := List.forall_mem_cons.1 hends
      refine List.forall_mem_cons.2 ⟨?_, ih (h.joinParts hq.1) hrest⟩
      refine Together.foldl_joinParts (together_joinParts.2 (.inr ⟨?_, ?_⟩)) rest
      · exact .inl (h.together_self hq.1)
      · exact .inr (h.together_self hq.2)

/-- Joining parts puts no ids together that the relations do not lead to each other. -/
theorem eqvGen_of_together {r : String → String → Prop} (hr : ∀ q ∈ relations, r q.source q.target)
    (hparts : ∀ a b, Together parts a b → Relation.EqvGen r a b)
    (h : Together (relations.foldl joinParts parts) a b) : Relation.EqvGen r a b := by
  induction relations generalizing parts with
  | nil => exact hparts a b h
  | cons q rest ih =>
      obtain ⟨hq, hrest⟩ := List.forall_mem_cons.1 hr
      have hend : ∀ {x : String}, Together parts x q.source ∨ Together parts x q.target →
          Relation.EqvGen r x q.source := by
        rintro x (hx | hx)
        · exact hparts _ _ hx
        · exact (hparts _ _ hx).trans _ _ _ ((Relation.EqvGen.rel _ _ hq).symm)
      refine ih hrest (fun a b hab => ?_) h
      rcases together_joinParts.1 hab with hab | ⟨ha, hb⟩
      · exact hparts a b hab
      · exact (hend ha).trans _ _ _ ((hend hb).symm)

end

/-! ## The parts of a graph -/

namespace Coherent

variable {g : Graph}

/-- The ends of the relations of a coherent graph are ids of its entities. -/
theorem ends_mem (hg : g.Coherent) : ∀ q ∈ g.relations,
    q.source ∈ g.entities.map Entity.id ∧ q.target ∈ g.entities.map Entity.id := by
  intro q hq
  obtain ⟨hs, ht⟩ := hg.contains_ends hq
  exact ⟨hg.contains_iff_mem.1 hs, hg.contains_iff_mem.1 ht⟩

/-- The components are what joining single ids along all relations gives. -/
theorem components_eq (g : Graph) : g.components
    = g.relations.foldl joinParts ((g.entities.map Entity.id).map fun id => [id]) := by
  rw [List.map_map]
  rfl

/-- The components are a partition of the ids. -/
theorem partition_components (hg : g.Coherent) :
    Partition (g.entities.map Entity.id) g.components := by
  rw [components_eq]
  exact (partition_singletons _).foldl_joinParts hg.ends_mem

/-- Two ids are in the same part of a graph exactly if relations connect them. -/
theorem together_components (hg : g.Coherent) (ha : g.contains a = true) :
    Together g.components a b ↔ Relation.EqvGen g.Linked a b := by
  have hids := hg.ids_nodup
  have hparts := hg.partition_components
  constructor
  · intro h
    rw [components_eq] at h
    refine eqvGen_of_together (fun q hq => ⟨q, hq, rfl, rfl⟩) (fun x y hxy => ?_) h
    obtain ⟨p, hp, hx, hy⟩ := hxy
    obtain ⟨id, -, rfl⟩ := List.mem_map.1 hp
    rw [List.mem_singleton.1 hx, List.mem_singleton.1 hy]
    exact .refl id
  · intro h
    -- an id that is not there is connected to itself only
    have hsame : ∀ {x y : String}, Relation.EqvGen g.Linked x y →
        x = y ∨ Together g.components x y := by
      intro x y hxy
      induction hxy with
      | rel x y hq =>
          obtain ⟨q, hq, rfl, rfl⟩ := hq
          right
          rw [components_eq]
          exact (partition_singletons _).together_ends hg.ends_mem q hq
      | refl x => exact .inl rfl
      | symm x y _ ih => exact ih.imp Eq.symm Together.symm
      | trans x y z _ _ ih ih' =>
          rcases ih with rfl | ih
          · exact ih'
          · rcases ih' with rfl | ih'
            · exact .inr ih
            · exact .inr (hparts.together_trans hids ih ih')
    rcases hsame h with rfl | h
    · exact hparts.together_self (hg.contains_iff_mem.1 ha)
    · exact h

/-- A graph is in one part if everything in it is reached from one entity. -/
theorem length_components (hg : g.Coherent) (ha : g.contains a = true)
    (h : ∀ id, g.contains id = true → Relation.ReflTransGen g.Linked a id) :
    g.components.length = 1 := by
  refine hg.partition_components.length_eq_one hg.ids_nodup (hg.contains_iff_mem.1 ha) fun id hid =>
    ?_
  have hreach := h id (hg.contains_iff_mem.2 hid)
  exact (hg.together_components ha).2 (Relation.EqvGen.reflTransGen_le_eqvGen _ a id hreach)

end Coherent

end CodeAtlas.Graph
