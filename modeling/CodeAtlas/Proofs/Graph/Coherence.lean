import CodeAtlas.Graph.Basic
import CodeAtlas.Proofs.Json.Sorting
import CodeAtlas.Proofs.Keyed
import Mathlib.Data.List.Sort

/-!
# Coherent graphs

A listing of ids is full if it has every type once, in order. Adding an id and removing one change
the ids of a single type, keep them ascending and keep the listing full. A full listing is
determined by the ids of each type.

A graph is coherent if its parts agree: the index gives the place of every entity, the listing has
every id under the type of its entity, edges end in places of entities, and no two edges have the
same ends and type. Putting an entity keeps a graph coherent. On the list of entities it takes the
place of the one with its id, and it is found under that id.
-/

namespace CodeAtlas.Graph

/-! ## Listings -/

namespace Listing

/-- An id is new, or it was there. -/
theorem mem_insertId {x id : String} {ids : List String} :
    x ∈ insertId id ids ↔ x = id ∨ x ∈ ids := by
  induction ids with
  | nil => simp [insertId]
  | cons y rest ih =>
      rw [insertId]
      split
      · exact List.mem_cons
      · split
        · next h => simp [h]
        · rw [List.mem_cons, ih, List.mem_cons]
          exact or_left_comm

/-- Putting an id in its place keeps the ids ascending. -/
theorem pairwise_insertId {ids : List String} (h : ids.Pairwise (· < ·)) (id : String) :
    (insertId id ids).Pairwise (· < ·) := by
  induction ids with
  | nil => exact List.pairwise_singleton _ _
  | cons y rest ih =>
      obtain ⟨hlow, hrest⟩ := List.pairwise_cons.1 h
      rw [insertId]
      split
      · next hlt =>
        refine List.pairwise_cons.2 ⟨?_, h⟩
        intro x hx
        rcases List.mem_cons.1 hx with rfl | hx
        · exact hlt
        · exact String.lt_trans hlt (hlow x hx)
      · next hlt =>
        split
        · exact h
        · next hne =>
          refine List.pairwise_cons.2 ⟨?_, ih hrest⟩
          intro x hx
          rcases mem_insertId.1 hx with rfl | hx
          · exact (Std.lt_trichotomy y x).resolve_right fun h' =>
              h'.elim (fun e => hne e.symm) hlt
          · exact hlow x hx

/-- Every type is there once, in order. -/
def Full (l : Listing) : Prop := l.map Prod.fst = EntityType.all

theorem full_empty : Full empty := rfl

/-- All types are listed. -/
theorem mem_all (t : EntityType) : t ∈ EntityType.all := by
  cases t <;> decide

/-- What is found under a type when the ids of one type are changed. -/
theorem lookup_onType (t : EntityType) (change : List String → List String) (l : Listing)
    (t' : EntityType) :
    (onType t change l).lookup t'
      = (l.lookup t').map fun ids => if t' = t then change ids else ids := by
  induction l with
  | nil => rfl
  | cons m rest ih =>
      obtain ⟨u, ids⟩ := m
      have ih' : List.lookup t' (List.map (fun m : EntityType × List String =>
          (m.1, if m.1 = t then change m.2 else m.2)) rest)
          = (rest.lookup t').map fun ids => if t' = t then change ids else ids := ih
      rw [onType, List.map_cons, List.lookup_cons, List.lookup_cons]
      by_cases h : t' = u
      · subst h
        simp
      · rw [beq_false_of_ne h]
        exact ih'

/-- In a full listing something is found under every type. -/
theorem Full.exists_lookup {l : Listing} (hl : l.Full) (t : EntityType) :
    ∃ ids, l.lookup t = some ids := by
  have ht : t ∈ l.map Prod.fst := by
    rw [hl]
    exact mem_all t
  clear hl
  induction l with
  | nil => exact nomatch ht
  | cons m rest ih =>
      obtain ⟨u, ids⟩ := m
      rw [List.lookup_cons]
      by_cases h : t = u
      · exact ⟨ids, by rw [beq_iff_eq.2 h]⟩
      · rw [beq_false_of_ne h]
        exact ih ((List.mem_cons.1 ht).resolve_left h)

/-- Changing the ids of one type leaves those of other types. -/
theorem Full.idsOf_onType {l : Listing} (hl : l.Full) (t : EntityType)
    (change : List String → List String) (t' : EntityType) :
    (onType t change l).idsOf t' = if t' = t then change (l.idsOf t') else l.idsOf t' := by
  obtain ⟨ids, h⟩ := hl.exists_lookup t'
  rw [idsOf, idsOf, lookup_onType, h]
  rfl

/-- Changing the ids of one type keeps the types. -/
theorem Full.onType {l : Listing} (hl : l.Full) (t : EntityType)
    (change : List String → List String) : (onType t change l).Full := by
  rw [Full, Listing.onType, List.map_map]
  exact hl

/-- The ids behind adding one. -/
theorem Full.mem_idsOf_add {l : Listing} (hl : l.Full) {t t' : EntityType} {id x : String} :
    x ∈ (l.add t id).idsOf t' ↔ (x = id ∧ t' = t) ∨ x ∈ l.idsOf t' := by
  rw [add, hl.idsOf_onType]
  by_cases h : t' = t
  · rw [if_pos h, mem_insertId]
    simp [h]
  · rw [if_neg h]
    simp [h]

/-- The ids behind removing one. -/
theorem Full.mem_idsOf_remove {l : Listing} (hl : l.Full) {t t' : EntityType} {id x : String} :
    x ∈ (l.remove t id).idsOf t' ↔ x ∈ l.idsOf t' ∧ ¬ (x = id ∧ t' = t) := by
  rw [remove, hl.idsOf_onType]
  by_cases h : t' = t
  · rw [if_pos h, List.mem_filter]
    simp [h]
  · rw [if_neg h]
    simp [h]

/-- The ids of every type ascend. -/
def Ascending (l : Listing) : Prop := ∀ t, (l.idsOf t).Pairwise (· < ·)

theorem ascending_empty : Ascending empty := by
  intro t
  cases t <;> exact List.Pairwise.nil

/-- Adding an id keeps the ids ascending. -/
theorem Ascending.add {l : Listing} (h : l.Ascending) (hl : l.Full) (t : EntityType) (id : String) :
    (l.add t id).Ascending := by
  intro t'
  rw [Listing.add, hl.idsOf_onType]
  split
  · exact pairwise_insertId (h t') id
  · exact h t'

/-- Removing an id keeps the ids ascending. -/
theorem Ascending.remove {l : Listing} (h : l.Ascending) (hl : l.Full) (t : EntityType)
    (id : String) : (l.remove t id).Ascending := by
  intro t'
  rw [Listing.remove, hl.idsOf_onType]
  split
  · exact (h t').filter _
  · exact h t'

/-- A full listing is the list of its types with their ids. -/
theorem Full.eq_map {l : Listing} (hl : l.Full) :
    l = EntityType.all.map fun t => (t, l.idsOf t) := by
  have hnodup : (l.map Prod.fst).Nodup := by
    rw [hl]
    decide
  rw [← hl]
  clear hl
  induction l with
  | nil => rfl
  | cons m rest ih =>
      obtain ⟨u, ids⟩ := m
      obtain ⟨hout, hrest⟩ := List.nodup_cons.1 hnodup
      rw [List.map_cons, List.map_cons]
      congr 1
      · simp [idsOf]
      · refine (ih hrest).trans (List.map_congr_left ?_)
        intro t ht
        have hne : t ≠ u := fun e => hout (e ▸ ht)
        rw [idsOf, idsOf, List.lookup_cons, beq_false_of_ne hne]

/-- Full listings that agree on every type are the same. -/
theorem Full.ext {l l' : Listing} (hl : l.Full) (hl' : l'.Full) (h : ∀ t, l.idsOf t = l'.idsOf t) :
    l = l' := by
  rw [hl.eq_map, hl'.eq_map]
  simp only [h]

end Listing

/-! ## Coherence -/

/-- What no two edges share. -/
def Edge.key (x : Edge) : Nat × Nat × RelationType := (x.source, x.target, x.type)

/-- An edge has a key if it is its own. -/
theorem Edge.hasKey_iff {x : Edge} {s t : Nat} {type : RelationType} :
    x.hasKey s t type = true ↔ x.key = (s, t, type) := by
  simp [Edge.hasKey, Edge.key, and_assoc]

/-- The parts of a graph agree. -/
structure Coherent (g : Graph) : Prop where
  index_ascending : Json.Ascending g.index
  place_iff : ∀ {id : String} {i : Nat},
    g.place? id = some i ↔ ∃ e, g.nodes[i]? = some e ∧ e.id = id
  full : g.byType.Full
  byType_ascending : g.byType.Ascending
  listed_iff : ∀ {t : EntityType} {id : String},
    id ∈ g.idsOf t ↔ ∃ e, g.get? id = some e ∧ e.type = t
  ends : ∀ x ∈ g.edges, x.source < g.nodes.size ∧ x.target < g.nodes.size
  keys_nodup : (g.edges.map Edge.key).Nodup

/-- The graph without entities is coherent. -/
theorem coherent_empty : Coherent empty where
  index_ascending := Json.ascending_nil
  place_iff := by simp [empty, place?]
  full := Listing.full_empty
  byType_ascending := Listing.ascending_empty
  listed_iff := by
    intro t id
    have hids : empty.idsOf t = [] := by cases t <;> rfl
    have hget : empty.get? id = none := rfl
    simp [hids, hget]
  ends := by
    intro x hx
    exact nomatch hx
  keys_nodup := List.Pairwise.nil

/-! ## Finding entities -/

namespace Coherent

variable {g : Graph}

/-- An entity that is found is in the place that the index gives. -/
theorem get?_eq_some_iff (hg : g.Coherent) {id : String} {e : Entity} :
    g.get? id = some e ↔ ∃ i : Nat, g.nodes[i]? = some e ∧ e.id = id := by
  rw [get?]
  constructor
  · intro h
    obtain ⟨i, hi, he⟩ := Option.bind_eq_some_iff.1 h
    obtain ⟨e', he', hid⟩ := hg.place_iff.1 hi
    have : e' = e := Option.some.inj (he'.symm.trans he)
    exact ⟨i, he, this ▸ hid⟩
  · rintro ⟨i, he, hid⟩
    exact Option.bind_eq_some_iff.2 ⟨i, hg.place_iff.2 ⟨e, he, hid⟩, he⟩

/-- The entity that is found under an id is the one of the graph that has it. -/
theorem get?_eq_some_iff_mem (hg : g.Coherent) {id : String} {e : Entity} :
    g.get? id = some e ↔ e ∈ g.entities ∧ e.id = id := by
  rw [hg.get?_eq_some_iff, entities, Array.mem_toList_iff, Array.mem_iff_getElem?]
  constructor
  · rintro ⟨i, he, hid⟩
    exact ⟨⟨i, he⟩, hid⟩
  · rintro ⟨⟨i, he⟩, hid⟩
    exact ⟨i, he, hid⟩

/-- No two entities have the same id. -/
theorem ids_nodup (hg : g.Coherent) : (g.entities.map Entity.id).Nodup := by
  rw [List.nodup_iff_injective_getElem]
  rintro ⟨i, hi⟩ ⟨j, hj⟩ h
  have hplace : ∀ (k : Nat) (hk : k < (g.entities.map Entity.id).length),
      g.place? ((g.entities.map Entity.id)[k]) = some k := by
    intro k hk
    have hk' : k < g.nodes.size := by simpa [entities] using hk
    refine hg.place_iff.2 ⟨g.nodes[k], Array.getElem?_eq_getElem hk', ?_⟩
    simp [entities]
  have h' : some i = some j := by
    rw [← hplace i hi, ← hplace j hj]
    exact congrArg g.place? h
  exact Fin.ext (Option.some.inj h')

/-- An id that is there has a place and an entity in it. -/
theorem contains_iff (hg : g.Coherent) {id : String} :
    g.contains id = true ↔ ∃ e, g.get? id = some e := by
  rw [contains, Option.isSome_iff_exists]
  constructor
  · rintro ⟨i, hi⟩
    obtain ⟨e, he, hid⟩ := hg.place_iff.1 hi
    exact ⟨e, hg.get?_eq_some_iff.2 ⟨i, he, hid⟩⟩
  · rintro ⟨e, he⟩
    obtain ⟨i, he, hid⟩ := hg.get?_eq_some_iff.1 he
    exact ⟨i, hg.place_iff.2 ⟨e, he, hid⟩⟩

/-- An id without a place has no entity. -/
theorem place?_eq_none_iff (hg : g.Coherent) {id : String} :
    g.place? id = none ↔ ∀ e ∈ g.entities, e.id ≠ id := by
  constructor
  · intro h e he hid
    obtain ⟨i, hi, -⟩ := hg.get?_eq_some_iff.1 (hg.get?_eq_some_iff_mem.2 ⟨he, hid⟩)
    have := hg.place_iff.2 ⟨e, hi, hid⟩
    exact nomatch h.symm.trans this
  · intro h
    cases hp : g.place? id with
    | none => rfl
    | some i =>
        obtain ⟨e, he, hid⟩ := hg.place_iff.1 hp
        have hmem : e ∈ g.entities := Array.mem_toList_iff.2 (Array.mem_of_getElem? he)
        exact absurd hid (h e hmem)

end Coherent

/-! ## Putting an entity -/

namespace Coherent

variable {g : Graph}

/-- What is in the places of a graph when an entity takes the place of another. -/
theorem getElem?_replaceAt {i : Nat} (hi : i < g.nodes.size) (e : Entity) (k : Nat) :
    (g.replaceAt i e).nodes[k]? = if k = i then some e else g.nodes[k]? := by
  have hnodes : (g.replaceAt i e).nodes = g.nodes.setIfInBounds i e := rfl
  rw [hnodes]
  by_cases h : k = i
  · rw [if_pos h, h, Array.getElem?_setIfInBounds_self_of_lt hi]
  · rw [if_neg h, Array.getElem?_setIfInBounds_ne (Ne.symm h)]

/-- An entity is found under its id behind putting it, under other ids what was found before. -/
theorem get?_put (hg : g.Coherent) (e : Entity) (id : String) :
    (g.put e).get? id = if id = e.id then some e else g.get? id := by
  cases hp : g.place? e.id with
  | some i =>
      -- an entity with this id stands in a slot, which the new one takes over
      obtain ⟨old, hold, hid⟩ := hg.place_iff.1 hp
      have hi : i < g.nodes.size := (Array.getElem?_eq_some_iff.1 hold).1
      have hput : (g.put e).get? id
          = g.place? id >>= fun k => (g.replaceAt i e).nodes[k]? := by
        rw [put, hp]
        rfl
      rw [hput]
      by_cases h : id = e.id
      · rw [if_pos h, h, hp]
        exact (getElem?_replaceAt hi e i).trans (if_pos rfl)
      · rw [if_neg h, get?]
        cases hk : g.place? id with
        | none => rfl
        | some k =>
            obtain ⟨a, ha, hid'⟩ := hg.place_iff.1 hk
            have hne : k ≠ i := by
              rintro rfl
              rw [Option.some.inj (ha.symm.trans hold)] at hid'
              exact h (hid'.symm.trans hid)
            exact (getElem?_replaceAt hi e k).trans (if_neg hne)
  | none =>
      -- the id is new: the entity goes to the end, and every other slot stays where it is
      have hput : (g.put e).get? id
          = (Json.insertMember e.id g.nodes.size g.index).lookup id >>= fun k =>
              (g.nodes.push e)[k]? := by
        rw [put, hp]
        rfl
      rw [hput, Json.lookup_insertMember]
      by_cases h : id = e.id
      · rw [if_pos h, if_pos h]
        exact Array.getElem?_push_size
      · rw [if_neg h, if_neg h, get?, place?]
        cases hk : g.index.lookup id with
        | none => rfl
        | some k =>
            obtain ⟨a, ha, -⟩ := hg.place_iff.1 hk
            have hlt : k < g.nodes.size := (Array.getElem?_eq_some_iff.1 ha).1
            exact (Array.getElem?_push).trans (if_neg hlt.ne)

/-- The ids listed under a type behind putting an entity: its own under its type and under no other,
and the others as before. -/
theorem mem_idsOf_put (hg : g.Coherent) (e : Entity) {t : EntityType} {x : String} :
    x ∈ (g.put e).idsOf t ↔ (x = e.id ∧ t = e.type) ∨ (x ∈ g.idsOf t ∧ x ≠ e.id) := by
  cases hp : g.place? e.id with
  | some i =>
      obtain ⟨old, hold, hid⟩ := hg.place_iff.1 hp
      have hget : g.get? e.id = some old := hg.get?_eq_some_iff.2 ⟨i, hold, hid⟩
      have hold_type : e.id ∈ g.idsOf t ↔ t = old.type := by
        rw [hg.listed_iff, hget]
        exact ⟨fun ⟨a, ha, hat⟩ => Option.some.inj ha ▸ hat.symm, fun h => ⟨old, rfl, h.symm⟩⟩
      -- a changed type moves the id from one list to another; an equal one leaves the lists alone
      by_cases hty : old.type = e.type
      · have hput : (g.put e).idsOf t = (g.byType.add e.type e.id).idsOf t := by
          rw [put, hp]
          simp only [idsOf, replaceAt, hold, if_pos hty]
        rw [hput, hg.full.mem_idsOf_add]
        by_cases hx : x = e.id
        · subst hx
          have : e.id ∈ g.byType.idsOf t ↔ t = old.type := hold_type
          rw [this, hty]
          simp
        · simp [hx, idsOf]
      · have hput : (g.put e).idsOf t
            = ((g.byType.remove old.type e.id).add e.type e.id).idsOf t := by
          rw [put, hp]
          simp only [idsOf, replaceAt, hold, if_neg hty]
        have hfull : (g.byType.remove old.type e.id).Full := hg.full.onType _ _
        rw [hput, hfull.mem_idsOf_add, hg.full.mem_idsOf_remove]
        by_cases hx : x = e.id
        · subst hx
          have : e.id ∈ g.byType.idsOf t ↔ t = old.type := hold_type
          rw [this]
          simp
        · simp [hx, idsOf]
  | none =>
      -- no entity had the id, so by coherence no list held it
      have hput : (g.put e).idsOf t = (g.byType.add e.type e.id).idsOf t := by
        rw [put, hp]
        rfl
      have hout : e.id ∉ g.idsOf t := by
        intro h
        obtain ⟨a, ha, -⟩ := hg.listed_iff.1 h
        obtain ⟨i, ha, hid⟩ := hg.get?_eq_some_iff.1 ha
        exact nomatch hp.symm.trans (hg.place_iff.2 ⟨a, ha, hid⟩)
      rw [hput, hg.full.mem_idsOf_add]
      refine or_congr_right ⟨fun h => ⟨h, ?_⟩, And.left⟩
      rintro rfl
      exact hout h

/-- Behind putting an entity the listing has every id under the type of its entity. -/
theorem listed_put (hg : g.Coherent) (e : Entity) {t : EntityType} {id : String} :
    id ∈ (g.put e).idsOf t ↔ ∃ a, (g.put e).get? id = some a ∧ a.type = t := by
  rw [hg.mem_idsOf_put, hg.get?_put, hg.listed_iff]
  by_cases h : id = e.id
  · simp [h, eq_comm]
  · simp [h]

/-- An entity in the place of the one with its id keeps the graph coherent. -/
theorem put_of_some (hg : g.Coherent) {e : Entity} {i : Nat} (hp : g.place? e.id = some i) :
    (g.put e).Coherent := by
  have hlisted := @listed_put g hg e
  obtain ⟨old, hold, hid⟩ := hg.place_iff.1 hp
  have hi : i < g.nodes.size := (Array.getElem?_eq_some_iff.1 hold).1
  have hput : g.put e = g.replaceAt i e := by rw [put, hp]
  rw [hput] at hlisted ⊢
  -- the listing loses the id where it was, if that is another type, and gets it where it is
  have hbyType : ∃ l : Listing, l.Full ∧ l.Ascending
      ∧ (g.replaceAt i e).byType = l.add e.type e.id := by
    by_cases hty : old.type = e.type
    · exact ⟨g.byType, hg.full, hg.byType_ascending, by simp only [replaceAt, hold, if_pos hty]⟩
    · exact ⟨g.byType.remove old.type e.id, hg.full.onType _ _,
        hg.byType_ascending.remove hg.full _ _, by simp only [replaceAt, hold, if_neg hty]⟩
  obtain ⟨l, hfull, hasc, hl⟩ := hbyType
  refine
    { index_ascending := hg.index_ascending
      place_iff := ?_
      full := hl ▸ hfull.onType _ _
      byType_ascending := hl ▸ hasc.add hfull _ _
      listed_iff := hlisted
      ends := ?_
      keys_nodup := hg.keys_nodup }
  · intro id k
    have hplace : (g.replaceAt i e).place? id = g.place? id := rfl
    rw [hplace, getElem?_replaceAt hi, hg.place_iff]
    by_cases hk : k = i
    · subst hk
      simp [hold, hid]
    · simp [hk]
  · intro x hx
    have hsize : (g.replaceAt i e).nodes.size = g.nodes.size := Array.size_setIfInBounds
    rw [hsize]
    exact hg.ends x hx

/-- An entity with a new id behind all others keeps the graph coherent. -/
theorem put_of_none (hg : g.Coherent) {e : Entity} (hp : g.place? e.id = none) :
    (g.put e).Coherent := by
  have hlisted := @listed_put g hg e
  have hput : g.put e = g.append e := by rw [put, hp]
  rw [hput] at hlisted ⊢
  refine
    { index_ascending := hg.index_ascending.insertMember _ _
      place_iff := ?_
      full := hg.full.onType _ _
      byType_ascending := hg.byType_ascending.add hg.full _ _
      listed_iff := hlisted
      ends := ?_
      keys_nodup := hg.keys_nodup }
  · intro id k
    have hplace : (g.append e).place? id = if id = e.id then some g.nodes.size else g.place? id :=
      Json.lookup_insertMember ..
    have hnodes : (g.append e).nodes[k]? = if k = g.nodes.size then some e else g.nodes[k]? :=
      Array.getElem?_push
    rw [hplace, hnodes]
    -- only the new id is found in the new slot
    by_cases hid : id = e.id
    · subst hid
      rw [if_pos rfl]
      by_cases hk : k = g.nodes.size
      · simp [hk]
      · rw [if_neg hk, ← hg.place_iff, hp]
        simp [Ne.symm hk]
    · rw [if_neg hid, hg.place_iff]
      by_cases hk : k = g.nodes.size
      · simp [hk, Ne.symm hid]
      · rw [if_neg hk]
  · intro x hx
    have hsize : (g.append e).nodes.size = g.nodes.size + 1 := Array.size_push ..
    have := hg.ends x hx
    omega

/-- Putting an entity keeps the graph coherent. -/
theorem put (hg : g.Coherent) (e : Entity) : (g.put e).Coherent := by
  cases hp : g.place? e.id with
  | some i => exact hg.put_of_some hp
  | none => exact hg.put_of_none hp

/-- On the list of entities, an entity takes the place of the one with its id. -/
theorem entities_put (hg : g.Coherent) (e : Entity) :
    (g.put e).entities = Keyed.upsert Entity.id Keyed.last e g.entities := by
  cases hp : g.place? e.id with
  | some i =>
      obtain ⟨old, hold, hid⟩ := hg.place_iff.1 hp
      have hput : (g.put e).entities = g.entities.set i e := by
        rw [Graph.put, hp]
        exact Array.toList_setIfInBounds ..
      have hold' : g.entities[i]? = some old := by
        rw [entities, Array.getElem?_toList]
        exact hold
      rw [hput, Keyed.upsert_eq_set hg.ids_nodup hold' hid]
      rfl
  | none =>
      have hput : (g.put e).entities = g.entities ++ [e] := by
        rw [Graph.put, hp]
        exact Array.toList_push ..
      rw [hput, Keyed.upsert_eq_append (hg.place?_eq_none_iff.1 hp)]

/-- An id keeps its place when an entity is put. -/
theorem place?_put (g : Graph) (e : Entity) {id : String} {i : Nat}
    (h : g.place? id = some i) : (g.put e).place? id = some i := by
  rw [Graph.put]
  cases hp : g.place? e.id with
  | some k => exact h
  | none =>
      have hne : id ≠ e.id := by
        rintro rfl
        exact nomatch hp.symm.trans h
      exact (Json.lookup_insertMember ..).trans ((if_neg hne).trans h)

end Coherent

end CodeAtlas.Graph
