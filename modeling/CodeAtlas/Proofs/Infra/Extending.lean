import CodeAtlas.Infra.Diagram
import CodeAtlas.Proofs.Keyed

/-!
# Extending diagrams

A diagram is extended by the resources whose addresses it lacks, and linked anew. Linking looks at
everything but the lists of dependents, so a link on the way is forgotten by the last one, and
extending is associative, also where addresses are repeated. In a linked diagram the dependents of a
resource are the addresses of those that depend on it, unless one in front of it has its address.
-/

namespace CodeAtlas.Infra

namespace Resource

/-- The resource without its dependents. -/
def bare (r : Resource) : Resource := { r with dependents := [] }

@[simp] theorem address_bare (r : Resource) : r.bare.address = r.address := rfl

end Resource

namespace Diagram

open Resource (bare)

/-! ## Linking -/

/-- The dependents of an address are seen without the dependents that resources had. -/
theorem dependentsOf_bare (resources : List Resource) (address : String) :
    dependentsOf (resources.map bare) address = dependentsOf resources address := by
  rw [dependentsOf, dependentsOf, List.flatMap_map]
  rfl

/-- What resources are linked to is seen without the dependents that they had. -/
theorem linkFrom_bare (all resources : List Resource) (seen : List String) :
    linkFrom (all.map bare) seen (resources.map bare) = linkFrom all seen resources := by
  induction resources generalizing seen with
  | nil => rfl
  | cons r rest ih =>
      rw [List.map_cons, linkFrom, linkFrom, Resource.address_bare, dependentsOf_bare, ih]
      rfl

/-- Linking changes nothing but dependents. -/
theorem map_bare_linkFrom (all resources : List Resource) (seen : List String) :
    (linkFrom all seen resources).map bare = resources.map bare := by
  induction resources generalizing seen with
  | nil => rfl
  | cons r rest ih =>
      rw [linkFrom, List.map_cons, List.map_cons, ih]
      rfl

/-- Linking changes dependents only. -/
theorem map_bare_link (d : Diagram) : d.link.resources.map bare = d.resources.map bare :=
  map_bare_linkFrom d.resources d.resources []

/-- Linking does not look at dependents. -/
theorem link_congr {d e : Diagram} (h : d.resources.map bare = e.resources.map bare) :
    d.link = e.link := by
  rw [link, link, ← linkFrom_bare, h, linkFrom_bare]

/-- Linking twice is linking once. -/
theorem link_link (d : Diagram) : d.link.link = d.link := link_congr (map_bare_link d)

/-- Resources behind others are linked with the addresses in front of them seen. -/
theorem linkFrom_append (all front back : List Resource) (seen : List String) :
    linkFrom all seen (front ++ back) = linkFrom all seen front ++
      linkFrom all ((front.map Resource.address).reverse ++ seen) back := by
  induction front generalizing seen with
  | nil => rfl
  | cons r front ih =>
      rw [List.cons_append, linkFrom, linkFrom, ih, List.map_cons, List.reverse_cons,
        List.append_assoc]
      rfl

/-- Linking keeps the number of resources. -/
theorem length_linkFrom (all resources : List Resource) (seen : List String) :
    (linkFrom all seen resources).length = resources.length := by
  rw [← List.length_map bare, map_bare_linkFrom, List.length_map]

/-- In a linked diagram only the first of several resources with one address has dependents. -/
theorem dependents_of_linked {d : Diagram} (h : d.link = d) {front back : List Resource}
    {r : Resource} (hsplit : d.resources = front ++ r :: back) : r.dependents =
      if r.address ∈ front.map Resource.address then []
        else dependentsOf d.resources r.address := by
  have hlinked : linkFrom d.resources [] (front ++ r :: back) = front ++ r :: back := by
    rw [← hsplit]
    exact congrArg resources h
  rw [linkFrom_append, linkFrom, List.append_nil] at hlinked
  obtain ⟨-, hr⟩ := List.append_inj hlinked (length_linkFrom ..)
  have hdependents := congrArg Resource.dependents (List.cons.inj hr).1
  rw [← hdependents]
  simp only [List.contains_iff_mem, List.mem_reverse]

/-- Where no list has an address twice, the dependents are the addresses of the resources that
depend on it. -/
theorem dependentsOf_eq {resources : List Resource} (h : ∀ r ∈ resources, r.dependencies.Nodup)
    (address : String) :
    dependentsOf resources address =
      (resources.filter fun r => r.dependencies.contains address).map Resource.address := by
  induction resources with
  | nil => rfl
  | cons r rest ih =>
      obtain ⟨hr, hrest⟩ := List.forall_mem_cons.1 h
      have hcons : dependentsOf (r :: rest) address =
          ((r.dependencies.filter (· == address)).map fun _ => r.address)
            ++ dependentsOf rest address := rfl
      rw [hcons, ih hrest, List.filter_beq, hr.count]
      by_cases hmem : address ∈ r.dependencies
      · rw [if_pos hmem, List.filter_cons, if_pos (List.contains_iff_mem.2 hmem)]
        rfl
      · rw [if_neg hmem, List.filter_cons, if_neg (mt List.contains_iff_mem.1 hmem)]
        rfl

/-! ## Extending -/

/-- A resource is added in the place of the one with its address, which stays, or behind all. -/
theorem resources_add (d : Diagram) (r : Resource) :
    (d.add r).resources = Keyed.upsert Resource.address Keyed.first r d.resources := by
  have hfound : (d.get? r.address).isSome = true
      ↔ r.address ∈ d.resources.map Resource.address := by
    rw [get?, List.find?_isSome, List.mem_map]
    exact exists_congr fun r' => and_congr_right fun _ => beq_iff_eq
  rw [add, Keyed.upsert_first]
  by_cases h : r.address ∈ d.resources.map Resource.address
  · rw [if_pos h, if_pos (hfound.2 h)]
  · rw [if_neg h, if_neg fun h' => h (hfound.1 h')]

/-- The resources of an extended diagram, apart from links. -/
theorem extend_eq (d e : Diagram) : d.extend e
    = link ⟨Keyed.union Resource.address Keyed.first d.resources e.resources⟩ := by
  have hresources : ∀ (l : List Resource) (d : Diagram), (l.foldl add d).resources
      = Keyed.union Resource.address Keyed.first d.resources l := by
    intro l
    induction l with
    | nil => intro d; rfl
    | cons r rest ih =>
        intro d
        rw [List.foldl_cons, ih, resources_add]
        rfl
  exact link_congr (by rw [hresources])

/-- A diagram is extended by the resources with addresses that it does not have. -/
theorem map_bare_extend (d e : Diagram) : (d.extend e).resources.map bare
    = Keyed.union Resource.address Keyed.first (d.resources.map bare) (e.resources.map bare) := by
  rw [extend_eq, map_bare_link, Keyed.map_union_first _ Resource.address_bare]

/-- What holds of the resources of two diagrams, whatever their dependents, holds of those of the
extended one. -/
theorem forall_extend {P : Resource → Prop} (hbare : ∀ r, P r.bare ↔ P r) {d e : Diagram}
    (hd : ∀ r ∈ d.resources, P r) (he : ∀ r ∈ e.resources, P r) :
    ∀ r ∈ (d.extend e).resources, P r := by
  intro r hr
  have hmem : r.bare ∈ (d.extend e).resources.map bare := List.mem_map_of_mem hr
  rw [map_bare_extend] at hmem
  rcases Keyed.mem_union (fun _ _ => .inl rfl) hmem with hmem | hmem
  · obtain ⟨s, hs, heq⟩ := List.mem_map.1 hmem
    exact (hbare r).1 (heq ▸ (hbare s).2 (hd s hs))
  · obtain ⟨s, hs, heq⟩ := List.mem_map.1 hmem
    exact (hbare r).1 (heq ▸ (hbare s).2 (he s hs))

/-- Extending diagrams is associative. -/
theorem extend_assoc (d e f : Diagram) : (d.extend e).extend f = d.extend (e.extend f) := by
  rw [extend_eq (d.extend e) f, extend_eq d (e.extend f)]
  refine link_congr ?_
  rw [Keyed.map_union_first _ Resource.address_bare, Keyed.map_union_first _ Resource.address_bare,
    map_bare_extend, map_bare_extend, Keyed.union_first_assoc]

end Diagram

end CodeAtlas.Infra
