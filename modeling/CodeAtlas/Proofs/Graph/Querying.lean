import CodeAtlas.Proofs.Graph.Merge

/-!
# Questions about relations

Every question about the relations of a graph is answered from its list of relations, whether it is
looked up at one end, at the other, or in the whole list. A list of entities that answers a question
has each of them once, by id.
-/

namespace CodeAtlas.Graph

variable {g : Graph} {type? : Option RelationType}

/-! ## Relations in order -/

/-- Whether a relation satisfies the filters that are given. -/
def Relation.fits (source? target? : Option String) (type? : Option RelationType) (r : Relation) :
    Bool :=
  source?.all (· == r.source) && target?.all (· == r.target) && type?.all (· == r.type)

/-- Whether a key comes in front of another: by source, then by target, then by type. -/
def KeyBefore (k l : String × String × RelationType) : Prop :=
  k.1 < l.1 ∨ k.1 = l.1 ∧ (k.2.1 < l.2.1 ∨ k.2.1 = l.2.1 ∧ k.2.2.rank < l.2.2.rank)

/-- Types of relations are told by their ranks. -/
theorem rank_injective : Function.Injective RelationType.rank := by
  intro t u h
  revert h
  cases t <;> cases u <;> decide

/-- The order of keys is transitive. -/
theorem keyBefore_trans {k l m : String × String × RelationType} (hkl : KeyBefore k l)
    (hlm : KeyBefore l m) : KeyBefore k m := by
  rw [KeyBefore] at hkl hlm ⊢
  rcases hkl with hkl | ⟨hs, hkl⟩
  · rcases hlm with hlm | ⟨hs', -⟩
    · exact .inl (String.lt_trans hkl hlm)
    · exact .inl (hs' ▸ hkl)
  · rw [hs]
    refine hlm.imp_right fun ⟨hs', hlm⟩ => ⟨hs', ?_⟩
    rcases hkl with hkl | ⟨ht, hkl⟩
    · rcases hlm with hlm | ⟨ht', -⟩
      · exact .inl (String.lt_trans hkl hlm)
      · exact .inl (ht' ▸ hkl)
    · rw [ht]
      exact hlm.imp_right fun ⟨ht', hlm⟩ => ⟨ht', Nat.lt_trans hkl hlm⟩

/-- Of two keys one is before the other, or they are the same. -/
theorem keyBefore_total (k l : String × String × RelationType) :
    KeyBefore k l ∨ k = l ∨ KeyBefore l k := by
  obtain ⟨s, t, u⟩ := k
  obtain ⟨s', t', u'⟩ := l
  rcases Std.lt_trichotomy s s' with hs | rfl | hs
  · exact .inl (.inl hs)
  · rcases Std.lt_trichotomy t t' with ht | rfl | ht
    · exact .inl (.inr ⟨rfl, .inl ht⟩)
    · rcases Nat.lt_trichotomy u.rank u'.rank with hu | hu | hu
      · exact .inl (.inr ⟨rfl, .inr ⟨rfl, hu⟩⟩)
      · exact .inr (.inl (by rw [rank_injective hu]))
      · exact .inr (.inr (.inr ⟨rfl, .inr ⟨rfl, hu⟩⟩))
    · exact .inr (.inr (.inr ⟨rfl, .inl ht⟩))
  · exact .inr (.inr (.inl hs))

/-- A relation is not after another if its key is before the other's or the same. -/
theorem Relation.notAfter_iff (r q : Relation) :
    r.notAfter q = true ↔ KeyBefore r.key q.key ∨ r.key = q.key := by
  have hkey : r.key = q.key
      ↔ r.source = q.source ∧ r.target = q.target ∧ r.type.rank = q.type.rank := by
    rw [key, key, Prod.mk.injEq, Prod.mk.injEq, rank_injective.eq_iff]
  rw [hkey, notAfter, KeyBefore]
  show _ ↔ (r.source < q.source ∨ r.source = q.source ∧ (r.target < q.target
    ∨ r.target = q.target ∧ r.type.rank < q.type.rank)) ∨ _
  by_cases hs : r.source = q.source
  · by_cases ht : r.target = q.target
    · simp [hs, ht, Nat.le_iff_lt_or_eq]
    · simp [hs, ht]
  · simp [hs]

namespace Coherent

/-! ## Places and ids -/

/-- A place has one id. -/
theorem id_unique (hg : g.Coherent) {s t : String} {i : Nat} (hs : g.place? s = some i)
    (ht : g.place? t = some i) : s = t := by
  obtain ⟨e, he, rfl⟩ := hg.place_iff.1 hs
  obtain ⟨e', he', rfl⟩ := hg.place_iff.1 ht
  rw [Option.some.inj (he.symm.trans he')]

/-- The id in a place is the given one exactly if the place is that of the id. -/
theorem beq_place (hg : g.Coherent) {s t : String} {i k : Nat} (hs : g.place? s = some i)
    (ht : g.place? t = some k) : (i == k) = (s == t) := by
  rw [Bool.eq_iff_iff, beq_iff_eq, beq_iff_eq]
  constructor
  · rintro rfl
    exact hg.id_unique hs ht
  · rintro rfl
    exact Option.some.inj (hs.symm.trans ht)

/-- An edge satisfies filters on places exactly if the relation that it is satisfies those on the
ids in these places. -/
theorem fits_eq (hg : g.Coherent) {x : Edge} {r : Relation} (hr : g.relationOf? x = some r)
    {source? target? : Option String} {i? k? : Option Nat}
    (hsource : source?.map g.place? = i?.map some) (htarget : target?.map g.place? = k?.map some) :
    x.fits i? k? type? = r.fits source? target? type? := by
  obtain ⟨hs, ht, hty, -⟩ := hg.relationOf?_eq_some_iff.1 hr
  have hend : ∀ {id? : Option String} {i? : Option Nat} {id : String} {i : Nat},
      id?.map g.place? = i?.map some → g.place? id = some i →
      i?.all (· == i) = id?.all (· == id) := by
    intro id? i? id i hplaces hplace
    cases id? with
    | none =>
        cases i? with
        | none => rfl
        | some k => cases hplaces
    | some id' =>
        cases i? with
        | none => cases hplaces
        | some k => exact hg.beq_place (Option.some.inj hplaces) hplace
  rw [Edge.fits, Relation.fits, hend hsource hs, hend htarget ht, hty]

/-! ## Relations by filters -/

/-- Where edges are looked up makes no difference to those that satisfy the filters. -/
theorem edgesAt_filter_perm (g : Graph) (i? k? : Option Nat) (type? : Option RelationType) :
    ((g.edgesAt i? k?).filter (Edge.fits i? k? type?)).Perm
      (g.edges.filter (Edge.fits i? k? type?)) := by
  have hreversed : ∀ {p q : Edge → Bool}, (∀ x, p x = true → q x = true) →
      ((g.edges.filter q).reverse.filter p).Perm (g.edges.filter p) := by
    intro p q hpq
    have hfilter : (g.edges.filter q).filter p = g.edges.filter p := by
      rw [List.filter_filter]
      refine List.filter_congr fun x _ => ?_
      rw [Bool.eq_iff_iff, Bool.and_eq_true]
      exact and_iff_left_of_imp (hpq x)
    exact hfilter ▸ (List.reverse_perm _).filter p
  cases i? with
  | some i =>
      refine hreversed fun x hx => ?_
      simp only [Edge.fits, Option.all_some, Bool.and_eq_true, beq_iff_eq] at hx
      exact beq_iff_eq.2 hx.1.1.symm
  | none =>
      cases k? with
      | some k =>
          refine hreversed fun x hx => ?_
          simp only [Edge.fits, Option.all_some, Bool.and_eq_true, beq_iff_eq] at hx
          exact beq_iff_eq.2 hx.1.2.symm
      | none => exact List.Perm.refl _

/-- Edges that satisfy filters are the relations that do. -/
theorem filterMap_filter_fits (hg : g.Coherent) {source? target? : Option String}
    {i? k? : Option Nat} (hsource : source?.map g.place? = i?.map some)
    (htarget : target?.map g.place? = k?.map some) :
    (g.edges.filter (Edge.fits i? k? type?)).filterMap g.relationOf?
      = g.relations.filter (Relation.fits source? target? type?) := by
  rw [List.filterMap_filter, relations, List.filter_filterMap]
  refine List.filterMap_congr fun x hx => ?_
  obtain ⟨r, hr⟩ := hg.exists_relationOf? hx
  rw [hr, hg.fits_eq hr hsource htarget]
  rfl

/-- A relation with an end that is not there is none of the graph. -/
theorem filter_fits_eq_nil (hg : g.Coherent) {source? target? : Option String} {id : String}
    (hid : g.contains id = false) (h : source? = some id ∨ target? = some id) :
    g.relations.filter (Relation.fits source? target? type?) = [] := by
  refine List.filter_eq_nil_iff.2 fun r hr hfits => ?_
  obtain ⟨hs, ht⟩ := hg.contains_ends hr
  rw [Relation.fits, Bool.and_eq_true, Bool.and_eq_true] at hfits
  rcases h with rfl | rfl
  · rw [← eq_of_beq hfits.1.1, hid] at hs
    exact Bool.false_ne_true hs
  · rw [← eq_of_beq hfits.1.2, hid] at ht
    exact Bool.false_ne_true ht

/-- The relations that satisfy filters are those of the list of relations that do. -/
theorem relationsWhere_perm (hg : g.Coherent) (source? target? : Option String)
    (type? : Option RelationType) : (g.relationsWhere source? target? type?).Perm
      (g.relations.filter (Relation.fits source? target? type?)) := by
  have hunknown : ∀ {id : String}, g.place? id = none → g.contains id = false := by
    intro id hid
    rw [contains, hid]
    rfl
  have hfound : ∀ {i? k? : Option Nat}, source?.map g.place? = i?.map some →
      target?.map g.place? = k?.map some →
      (((g.edgesAt i? k?).filter (Edge.fits i? k? type?)).filterMap g.relationOf?
        |>.mergeSort Relation.notAfter).Perm
      (g.relations.filter (Relation.fits source? target? type?)) := by
    intro i? k? hsource htarget
    rw [← hg.filterMap_filter_fits hsource htarget]
    exact (List.mergeSort_perm _ _).trans ((edgesAt_filter_perm g i? k? type?).filterMap _)
  rw [relationsWhere]
  split
  · -- an end that is no entity has no relation
    next hs =>
    obtain ⟨id, rfl, hid⟩ := Option.map_eq_some_iff.1 hs
    rw [hg.filter_fits_eq_nil (hunknown hid) (.inl rfl)]
  · next ht _ =>
    obtain ⟨id, rfl, hid⟩ := Option.map_eq_some_iff.1 ht
    rw [hg.filter_fits_eq_nil (hunknown hid) (.inr rfl)]
  · -- both ends are known or left open, and the edges found there are those that fit
    next hs ht =>
    have hjoin : ∀ {o : Option (Option Nat)}, o ≠ some none → o = o.join.map some := by
      intro o ho
      cases o with
      | none => rfl
      | some i? =>
          cases i? with
          | none => exact absurd rfl ho
          | some i => rfl
    exact hfound (hjoin hs) (hjoin ht)

/-- The relations that satisfy filters come in order, each once. -/
theorem pairwise_relationsWhere (hg : g.Coherent) (source? target? : Option String)
    (type? : Option RelationType) :
    (g.relationsWhere source? target? type?).Pairwise fun r q => KeyBefore r.key q.key := by
  have hperm := hg.relationsWhere_perm source? target? type?
  have hnodup : ((g.relationsWhere source? target? type?).map Relation.key).Nodup :=
    (hperm.map Relation.key).nodup_iff.2
      (hg.relation_keys_nodup.sublist (List.filter_sublist.map _))
  rw [relationsWhere] at hnodup ⊢
  split at hnodup
  · exact List.Pairwise.nil
  · exact List.Pairwise.nil
  · exact Keyed.pairwise_mergeSort_of_nodup Relation.notAfter_iff keyBefore_trans keyBefore_total
      (((List.mergeSort_perm _ _).map Relation.key).nodup_iff.1 hnodup)

/-- There is a relation exactly if one is found when all of its key is asked for. -/
theorem hasRelation_iff_relationsWhere (hg : g.Coherent) {s t : String} {type : RelationType} :
    g.hasRelation s t type = true
      ↔ g.relationsWhere (some s) (some t) (some type) ≠ [] := by
  have hperm := hg.relationsWhere_perm (some s) (some t) (some type)
  have hfits : ∀ {r : Relation}, r.fits (some s) (some t) (some type) = true
      ↔ r.key = (s, t, type) := by
    intro r
    rw [Relation.fits, Bool.and_eq_true, Bool.and_eq_true, Relation.key, Prod.mk.injEq,
      Prod.mk.injEq, and_assoc, eq_comm (a := r.source), eq_comm (a := r.target),
      eq_comm (a := r.type)]
    exact and_congr beq_iff_eq (and_congr beq_iff_eq beq_iff_eq)
  rw [hg.hasRelation_iff]
  constructor
  · rintro ⟨r, hr, hkey⟩ hnil
    have hmem := hperm.mem_iff.2 (List.mem_filter.2 ⟨hr, hfits.2 hkey⟩)
    rw [hnil] at hmem
    exact List.not_mem_nil hmem
  · intro hne
    obtain ⟨r, hr⟩ := List.exists_mem_of_ne_nil _ hne
    obtain ⟨hmem, hkey⟩ := List.mem_filter.1 (hperm.mem_iff.1 hr)
    exact ⟨r, hmem, hfits.1 hkey⟩

end Coherent

/-! ## Related entities -/

/-- Whether a relation of the given type, or of any, leads from one id to another. -/
def Leads (g : Graph) (type? : Option RelationType) (s t : String) : Prop :=
  ∃ r ∈ g.relations, type?.all (· == r.type) = true ∧ r.source = s ∧ r.target = t

/-- Whether a relation leads, in a direction, from an id to another one. -/
def Connects (g : Graph) (type? : Option RelationType) (d : Direction) (id other : String) : Prop :=
  match d with
  | .outgoing => g.Leads type? id other
  | .incoming => g.Leads type? other id
  | .both => g.Leads type? id other ∨ g.Leads type? other id

/-- A list has the entities of a graph with a property, each once, by id. -/
structure ListsById (g : Graph) (p : Entity → Prop) (l : List Entity) : Prop where
  mem_iff : ∀ {e}, e ∈ l ↔ e ∈ g.entities ∧ p e
  ascending : (l.map Entity.id).Pairwise (· < ·)

namespace ListsById

variable {p q : Entity → Prop} {l more : List Entity}

/-- What lists the entities with a property lists those with an equivalent one. -/
theorem congr (h : g.ListsById p l) (hpq : ∀ {e}, e ∈ g.entities → (p e ↔ q e)) :
    g.ListsById q l where
  mem_iff := h.mem_iff.trans (and_congr_right hpq)
  ascending := h.ascending

/-- The entities with one more property. -/
theorem filter (h : g.ListsById p l) (f : Entity → Bool) :
    g.ListsById (fun e => p e ∧ f e = true) (l.filter f) where
  mem_iff := by
    intro e
    rw [List.mem_filter, h.mem_iff, and_assoc]
  ascending := h.ascending.sublist (List.filter_sublist.map _)

/-- Entities that are sorted by id. -/
theorem sortById (hmem : ∀ {e}, e ∈ l ↔ e ∈ g.entities ∧ p e) (hl : (l.map Entity.id).Nodup) :
    g.ListsById p (sortById l) where
  mem_iff := by
    intro e
    rw [Graph.sortById, List.mem_mergeSort]
    exact hmem
  ascending := List.pairwise_map.2 (Keyed.pairwise_mergeSort_lt hl)

end ListsById

/-- Adding entities whose ids are not there is a union. -/
theorem joinById_eq (l more : List Entity) :
    joinById l more = sortById (Keyed.union Entity.id Keyed.first l more) := by
  have hstep : (fun (l : List Entity) e => if l.any (·.id == e.id) then l else l ++ [e])
      = fun l e => Keyed.upsert Entity.id Keyed.first e l := by
    funext l e
    have hany : l.any (·.id == e.id) = true ↔ e.id ∈ l.map Entity.id := by
      rw [List.any_eq_true, List.mem_map]
      exact exists_congr fun a => and_congr_right fun _ => beq_iff_eq
    rw [Keyed.upsert_first]
    simp only [hany]
  rw [joinById, hstep]
  rfl

namespace Coherent

/-- An entity of a graph is determined by its id. -/
theorem eq_of_id (hg : g.Coherent) {a b : Entity} (ha : a ∈ g.entities) (hb : b ∈ g.entities)
    (h : a.id = b.id) : a = b := by
  have ha := hg.get?_eq_some_iff_mem.2 ⟨ha, rfl⟩
  have hb := hg.get?_eq_some_iff_mem.2 ⟨hb, rfl⟩
  exact Option.some.inj (ha.symm.trans (h ▸ hb))

/-- The entities with one of two properties, those with both once. -/
theorem joinById (hg : g.Coherent) {p q : Entity → Prop} {l more : List Entity}
    (hl : g.ListsById p l) (hmore : g.ListsById q more) :
    g.ListsById (fun e => p e ∨ q e) (joinById l more) := by
  have hnodup : (l.map Entity.id).Nodup := hl.ascending.imp String.ne_of_lt
  rw [joinById_eq]
  refine ListsById.sortById ?_ (Keyed.nodup_union (Keyed.key_first Entity.id) hnodup more)
  intro e
  constructor
  · intro he
    rcases Keyed.mem_union (fun _ _ => .inl rfl) he with he | he
    · exact (hl.mem_iff.1 he).imp_right .inl
    · exact (hmore.mem_iff.1 he).imp_right .inr
  · rintro ⟨he, hp | hq⟩
    · exact (Keyed.prefix_union_first Entity.id l more).subset (hl.mem_iff.2 ⟨he, hp⟩)
    · have hmem := hmore.mem_iff.2 ⟨he, hq⟩
      have hid := Keyed.mem_keys_union_right (Keyed.key_first Entity.id) hmem l
      obtain ⟨a, ha, haid⟩ := List.mem_map.1 hid
      -- what is there under the id of the entity is the entity
      have hin : a ∈ g.entities := by
        rcases Keyed.mem_union (fun _ _ => .inl rfl) ha with ha | ha
        · exact (hl.mem_iff.1 ha).1
        · exact (hmore.mem_iff.1 ha).1
      exact hg.eq_of_id hin he haid ▸ ha

/-- The entities of a type come by id. -/
theorem listsById_ofType (hg : g.Coherent) (t : EntityType) :
    g.ListsById (fun e => e.type = t) (g.ofType t) where
  mem_iff := hg.mem_ofType
  ascending := by
    rw [hg.map_id_ofType]
    exact hg.byType_ascending t

/-- Edges between two places are relations between the ids in them. -/
theorem exists_edge_iff (hg : g.Coherent) {P : RelationType → Prop} {s t : String} {i k : Nat}
    (hs : g.place? s = some i) (ht : g.place? t = some k) :
    (∃ x ∈ g.edges, P x.type ∧ x.source = i ∧ x.target = k)
      ↔ ∃ r ∈ g.relations, P r.type ∧ r.source = s ∧ r.target = t := by
  constructor
  · rintro ⟨x, hx, hp, rfl, rfl⟩
    obtain ⟨r, hr⟩ := hg.exists_relationOf? hx
    obtain ⟨hrs, hrt, hty, -⟩ := hg.relationOf?_eq_some_iff.1 hr
    exact ⟨r, List.mem_filterMap.2 ⟨x, hx, hr⟩, hty ▸ hp, hg.id_unique hrs hs, hg.id_unique hrt ht⟩
  · rintro ⟨r, hr, hp, rfl, rfl⟩
    obtain ⟨x, hx, hr⟩ := List.mem_filterMap.1 hr
    obtain ⟨hrs, hrt, hty, -⟩ := hg.relationOf?_eq_some_iff.1 hr
    exact ⟨x, hx, hty ▸ hp, Option.some.inj (hrs.symm.trans hs),
      Option.some.inj (hrt.symm.trans ht)⟩

/-- The places next to that of an id are those of the ids that relations lead to. -/
theorem mem_neighbours_iff (hg : g.Coherent) {id other : String} {i k : Nat} {d : Direction}
    (hi : g.place? id = some i) (hk : g.place? other = some k) :
    k ∈ g.neighbours i type? d ↔ g.Connects type? d id other := by
  have htargets : k ∈ ((g.leaving i).filter fun x => type?.all (· == x.type)).map (·.target)
      ↔ g.Leads type? id other := by
    rw [Leads, ← hg.exists_edge_iff (P := fun t => type?.all (· == t) = true) hi hk]
    simp only [leaving, List.mem_map, List.mem_filter, List.mem_reverse, beq_iff_eq]
    constructor
    · rintro ⟨x, ⟨⟨hx, hs⟩, hty⟩, ht⟩
      exact ⟨x, hx, hty, hs, ht⟩
    · rintro ⟨x, hx, hty, hs, ht⟩
      exact ⟨x, ⟨⟨hx, hs⟩, hty⟩, ht⟩
  have hsources : k ∈ ((g.entering i).filter fun x => type?.all (· == x.type)).map (·.source)
      ↔ g.Leads type? other id := by
    rw [Leads, ← hg.exists_edge_iff (P := fun t => type?.all (· == t) = true) hk hi]
    simp only [entering, List.mem_map, List.mem_filter, List.mem_reverse, beq_iff_eq]
    constructor
    · rintro ⟨x, ⟨⟨hx, ht⟩, hty⟩, hs⟩
      exact ⟨x, hx, hty, hs, ht⟩
    · rintro ⟨x, hx, hty, hs, ht⟩
      exact ⟨x, ⟨⟨hx, ht⟩, hty⟩, hs⟩
  cases d with
  | outgoing => exact htargets
  | incoming => exact hsources
  | both =>
      show k ∈ _ ++ _ ↔ _
      rw [List.mem_append, htargets, hsources]
      rfl

/-- A graph contains both ends of what leads from one to the other. -/
theorem contains_of_leads (hg : g.Coherent) {s t : String} (h : g.Leads type? s t) :
    g.contains s = true ∧ g.contains t = true := by
  obtain ⟨r, hr, -, rfl, rfl⟩ := h
  exact hg.contains_ends hr

/-- A graph contains an id that is connected to another. -/
theorem contains_of_connects (hg : g.Coherent) {d : Direction} {id other : String}
    (h : g.Connects type? d id other) : g.contains id = true := by
  cases d with
  | outgoing => exact (hg.contains_of_leads h).1
  | incoming => exact (hg.contains_of_leads h).2
  | both =>
      rcases h with h | h
      · exact (hg.contains_of_leads h).1
      · exact (hg.contains_of_leads h).2

/-- An entity has a place, and its id leads to it. -/
theorem exists_place (hg : g.Coherent) {e : Entity} (he : e ∈ g.entities) :
    ∃ k : Nat, g.nodes[k]? = some e ∧ g.place? e.id = some k := by
  obtain ⟨k, hk⟩ := Array.mem_iff_getElem?.1 (Array.mem_toList_iff.1 he)
  exact ⟨k, hk, hg.place_iff.2 ⟨e, hk, rfl⟩⟩

/-- The entities related to one are those that its relations lead to, each once. -/
theorem listsById_related (hg : g.Coherent) (id : String) (type? : Option RelationType)
    (d : Direction) : g.ListsById (fun e => g.Connects type? d id e.id) (g.related id type? d) := by
  rw [related]
  cases hp : g.place? id with
  | none =>
      refine ⟨fun {e} => iff_of_false List.not_mem_nil ?_, List.Pairwise.nil⟩
      rintro ⟨-, h⟩
      have hid := hg.contains_of_connects h
      rw [contains, hp] at hid
      exact Bool.false_ne_true hid
  | some i =>
      refine ListsById.sortById ?_ ?_
      · intro e
        rw [List.mem_filterMap]
        constructor
        · rintro ⟨k, hk, he⟩
          have hplace := hg.place_iff.2 ⟨e, he, rfl⟩
          exact ⟨Array.mem_toList_iff.2 (Array.mem_of_getElem? he),
            (hg.mem_neighbours_iff hp hplace).1 (List.mem_eraseDups.1 hk)⟩
        · rintro ⟨he, h⟩
          obtain ⟨k, hk, hplace⟩ := hg.exists_place he
          exact ⟨k, List.mem_eraseDups.2 ((hg.mem_neighbours_iff hp hplace).2 h), hk⟩
      · rw [List.map_filterMap]
        refine List.Nodup.filterMap ?_ (Keyed.nodup_eraseDups _)
        intro k k' other hk hk'
        -- an id has one place
        have hplace : ∀ {k : Nat}, other ∈ Option.map Entity.id g.nodes[k]? →
            g.place? other = some k := by
          intro k hk
          obtain ⟨e, he, rfl⟩ := Option.map_eq_some_iff.1 hk
          exact hg.place_iff.2 ⟨e, he, rfl⟩
        exact Option.some.inj ((hplace hk).symm.trans (hplace hk'))

/-- A relation of a type leads from one id to another exactly if the graph has it. -/
theorem leads_iff_hasRelation (hg : g.Coherent) {s t : String} {type : RelationType} :
    g.Leads (some type) s t ↔ g.hasRelation s t type = true := by
  rw [hg.hasRelation_iff, Leads]
  refine exists_congr fun r => and_congr_right fun _ => ?_
  rw [Relation.key, Prod.mk.injEq, Prod.mk.injEq, Option.all_some, beq_iff_eq]
  constructor
  · rintro ⟨hty, hs, ht⟩
    exact ⟨hs, ht, hty.symm⟩
  · rintro ⟨hs, ht, hty⟩
    exact ⟨hty.symm, hs, ht⟩

/-- The interfaces of a service. -/
theorem listsById_serviceApis (hg : g.Coherent) (id : String) :
    g.ListsById (fun e => e.type = .api ∧ (g.hasRelation id e.id .exposes = true
      ∨ (e.api? >>= (·.serviceId)) = some id)) (g.serviceApis id) := by
  have hexposed := (hg.listsById_related id (some .exposes) .outgoing).filter fun e =>
    e.type == .api
  have howned := (hg.listsById_ofType .api).filter fun e => (e.api? >>= (·.serviceId)) == some id
  refine (hg.joinById hexposed howned).congr fun {e} _ => ?_
  have hleads : g.Leads (some .exposes) id e.id ↔ g.hasRelation id e.id .exposes = true :=
    hg.leads_iff_hasRelation
  show g.Leads (some .exposes) id e.id ∧ _ ∨ _ ↔ _
  rw [hleads, beq_iff_eq, beq_iff_eq]
  tauto

/-- The services of a domain. -/
theorem listsById_domainServices (hg : g.Coherent) (id : String) :
    g.ListsById (fun e => e.type = .service ∧ (g.hasRelation id e.id .contains = true
      ∨ g.hasRelation e.id id .belongsTo = true)) (g.domainServices id) := by
  have hcontained := hg.listsById_related id (some .contains) .outgoing
  have hbelonging := hg.listsById_related id (some .belongsTo) .incoming
  refine ((hg.joinById hcontained hbelonging).filter fun e => e.type == .service).congr
    fun {e} _ => ?_
  show (g.Leads (some .contains) id e.id ∨ g.Leads (some .belongsTo) e.id id) ∧ _ ↔ _
  rw [hg.leads_iff_hasRelation, hg.leads_iff_hasRelation, beq_iff_eq]
  exact and_comm

/-- What an entity depends on. -/
theorem listsById_dependenciesOf (hg : g.Coherent) (id : String) :
    g.ListsById (fun e => g.hasRelation id e.id .dependsOn = true) (g.dependenciesOf id) :=
  (hg.listsById_related id (some .dependsOn) .outgoing).congr fun _ => hg.leads_iff_hasRelation

/-- What depends on an entity. -/
theorem listsById_dependentsOf (hg : g.Coherent) (id : String) :
    g.ListsById (fun e => g.hasRelation e.id id .dependsOn = true) (g.dependentsOf id) :=
  (hg.listsById_related id (some .dependsOn) .incoming).congr fun _ => hg.leads_iff_hasRelation

end Coherent

/-- Every question about relations agrees with the list of relations. The relations that satisfy
filters are those of the list that do, in order; there are none if an id is given that is not there.
There is a relation exactly if one is found when its source, target and type are given. The entities
related to one in a direction are those at the other ends of such relations, each once, by id; so
are the interfaces that a service exposes or that name it as theirs, the services that a domain
contains or that belong to it, and what something depends on or what depends on it. -/
theorem Reachable.queries_exact {g : Graph} (h : Reachable g) :
    (∀ source? target? type?,
      (g.relationsWhere source? target? type?).Perm
          (g.relations.filter (Relation.fits source? target? type?))
        ∧ (g.relationsWhere source? target? type?).Pairwise fun r q => KeyBefore r.key q.key)
    ∧ (∀ source? target? type? id, g.contains id = false → source? = some id ∨ target? = some id →
        g.relationsWhere source? target? type? = [])
    ∧ (∀ s t type, g.hasRelation s t type = true
        ↔ g.relationsWhere (some s) (some t) (some type) ≠ [])
    ∧ (∀ id type? d,
        g.ListsById (fun e => g.Connects type? d id e.id) (g.related id type? d))
    ∧ (∀ id, g.ListsById (fun e => e.type = .api ∧ (g.hasRelation id e.id .exposes = true
        ∨ (e.api? >>= (·.serviceId)) = some id)) (g.serviceApis id))
    ∧ (∀ id, g.ListsById (fun e => e.type = .service ∧ (g.hasRelation id e.id .contains = true
        ∨ g.hasRelation e.id id .belongsTo = true)) (g.domainServices id))
    ∧ (∀ id, g.ListsById (fun e => g.hasRelation id e.id .dependsOn = true) (g.dependenciesOf id))
    ∧ ∀ id, g.ListsById (fun e => g.hasRelation e.id id .dependsOn = true) (g.dependentsOf id) := by
  have hg := h.coherent
  refine ⟨?_, ?_, ?_, hg.listsById_related, hg.listsById_serviceApis, hg.listsById_domainServices,
    hg.listsById_dependenciesOf, hg.listsById_dependentsOf⟩
  · intro source? target? type?
    exact ⟨hg.relationsWhere_perm source? target? type?,
      hg.pairwise_relationsWhere source? target? type?⟩
  · intro source? target? type? id hid hgiven
    have hperm := hg.relationsWhere_perm source? target? type?
    rw [hg.filter_fits_eq_nil hid hgiven] at hperm
    exact hperm.eq_nil
  · intro s t type
    exact hg.hasRelation_iff_relationsWhere

/-- A relation from an entity to itself, two between the same ends, and an interface that came back
under another type: it belongs to the service without being exposed. -/
theorem queries_exact_loop :
    let service := fun id => Entity.new ⟨0, 0⟩ id id (.service {})
    let g := (ofLists [service "a", service "b"]
      [⟨"a", "a", .uses, []⟩, ⟨"a", "b", .calls, []⟩, ⟨"a", "b", .uses, []⟩]).addEntity ⟨1, 0⟩
        (Entity.new ⟨1, 0⟩ "b" "B" (.api { serviceId := some "a" }))
    (g.relationsWhere (some "a") (some "b") none).length = 2
      ∧ g.relationsWhere none (some "x") none = []
      ∧ (∃ e ∈ g.related "a" (some .uses) .both, e.id = "a")
      ∧ ∃ e ∈ g.serviceApis "a", e.id = "b" := by
  intro service g
  have hg : Reachable g := .addEntity _ _ (.ofLists _ _)
  obtain ⟨hwhere, hunknown, -, hrelated, hapis, -⟩ := hg.queries_exact
  have hfound : ∀ {id : String} {e : Entity}, g.get? id = some e → e ∈ g.entities ∧ e.id = id :=
    fun he => hg.coherent.get?_eq_some_iff_mem.1 he
  have ha : (g.get? "a").isSome = true := by decide
  have hb : (g.get? "b").map (fun e => (e.type, e.api? >>= (·.serviceId)))
      = some (.api, some "a") := by decide
  obtain ⟨a, ha⟩ := Option.isSome_iff_exists.1 ha
  obtain ⟨b, hb, howned⟩ := Option.map_eq_some_iff.1 hb
  rw [Prod.mk.injEq] at howned
  refine ⟨?_, hunknown _ _ _ "x" (by decide) (.inr rfl), ⟨a, ?_, (hfound ha).2⟩,
    ⟨b, ?_, (hfound hb).2⟩⟩
  · rw [(hwhere _ _ _).1.length_eq]
    decide
  · have hloop : g.hasRelation "a" "a" .uses = true := by decide
    refine (hrelated "a" (some .uses) .both).mem_iff.2 ⟨(hfound ha).1, .inl ?_⟩
    rw [(hfound ha).2]
    exact hg.coherent.leads_iff_hasRelation.2 hloop
  · exact (hapis "a").mem_iff.2 ⟨(hfound hb).1, howned.1, .inr howned.2⟩

end CodeAtlas.Graph
