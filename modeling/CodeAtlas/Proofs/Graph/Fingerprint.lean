import CodeAtlas.Graph.Fingerprint
import CodeAtlas.Proofs.Graph.Reading
import CodeAtlas.Proofs.Keyed

/-!
# What a fingerprint tells apart

The text of which the digest is taken is the same for entities in another order and at other times,
and for no others: it is read back to the entities without their times, sorted by id. Of the digest
the first 16 digits are kept, so fingerprints are equal just if the short digests of two texts are.
-/

namespace CodeAtlas.Graph

open Json

namespace Entity

/-- The entity with its times left out. -/
def untimed (e : Entity) : Entity :=
  { e with base := { e.base with createdAt := ⟨0, 0⟩, updatedAt := ⟨0, 0⟩ } }

@[simp] theorem id_untimed (e : Entity) : e.untimed.id = e.id := rfl

/-- Whether a member of an entity counts for the fingerprint. -/
def isLasting (m : String × Json) : Bool := m.1 != "created_at" && m.1 != "updated_at"

/-- The members that count for the fingerprint, sorted. -/
def lasting (e : Entity) : List (String × Json) :=
  sortMembers (sortedMembers (e.members.filter isLasting))

/-- Without its times an entity is an object of the members that last. -/
theorem timeless_eq (e : Entity) : e.timeless = .obj e.lasting := rfl

/-- The times are no members that last. -/
theorem filter_isLasting_untimed (e : Entity) :
    e.untimed.members.filter isLasting = e.members.filter isLasting := by
  simp [members, EntityBase.members, isLasting, untimed, type]

/-- The times of an entity do not count. -/
theorem timeless_untimed (e : Entity) : e.untimed.timeless = e.timeless := by
  rw [timeless_eq, timeless_eq, lasting, lasting, filter_isLasting_untimed]

theorem valid_zero : Instant.Valid ⟨0, 0⟩ := ⟨by decide, by decide, by decide⟩

/-- Without its times a tidy entity is tidy. -/
theorem Tidy.untimed {e : Entity} (h : e.Tidy) : e.untimed.Tidy where
  ascending := h.ascending
  sorted := h.sorted
  createdAt := valid_zero
  updatedAt := valid_zero
  detail := h.detail

/-- The members that count, with other ones in the place of the times. -/
def completed (l : List (String × Json)) : List (String × Json) :=
  ("created_at", instantToJson ⟨0, 0⟩) :: ("updated_at", instantToJson ⟨0, 0⟩) :: l

/-- A member that is kept is one that lasts. -/
theorem isLasting_of_mem {e : Entity} {m : String × Json} (h : m ∈ e.lasting) :
    isLasting m = true := by
  have hmem := mem_of_mem_sortMembers h
  rw [sortedMembers_eq_map] at hmem
  obtain ⟨x, hx, rfl⟩ := List.mem_map.1 hmem
  exact (List.mem_filter.1 hx).2

/-- No key is repeated in the completed members. -/
theorem nodup_completed (e : Entity) : ((completed e.lasting).map Prod.fst).Nodup := by
  have hout : ∀ k, (k != "created_at" && k != "updated_at") = false →
      k ∉ e.lasting.map Prod.fst := by
    intro k hk hmem
    obtain ⟨m, hm, rfl⟩ := List.mem_map.1 hmem
    exact Bool.false_ne_true (hk.symm.trans (isLasting_of_mem hm))
  refine List.nodup_cons.2 ⟨?_, List.nodup_cons.2 ⟨hout _ rfl, ?_⟩⟩
  · intro h
    rcases List.mem_cons.1 h with h | h
    · exact absurd h (by decide)
    · exact hout _ rfl h
  · exact (ascending_sortMembers _).nodup_keys

/-- A member of an entity has one value. -/
theorem value_unique {e : Entity} {name : String} {v w : Json} (hv : (name, v) ∈ e.members)
    (hw : (name, w) ∈ e.members) : v = w :=
  Option.some.inj ((lookup_of_mem e.nodup_names hv).symm.trans (lookup_of_mem e.nodup_names hw))

/-- What is left of an entity still shows all of its members but the times. -/
theorem shows_completed (e : Entity) : Shows (completed e.lasting) e.untimed.members := by
  rintro ⟨name, v⟩ hm
  by_cases hcreated : name = "created_at"
  · have hmem : ("created_at", instantToJson ⟨0, 0⟩) ∈ e.untimed.members := by
      simp [members, EntityBase.members, untimed]
    subst hcreated
    left
    rw [value_unique hm hmem, completed, lookup_cons_eq, if_pos rfl]
  · by_cases hupdated : name = "updated_at"
    · have hmem : ("updated_at", instantToJson ⟨0, 0⟩) ∈ e.untimed.members := by
        simp [members, EntityBase.members, untimed]
      subst hupdated
      left
      rw [value_unique hm hmem, completed, lookup_cons_eq, if_neg hcreated, lookup_cons_eq,
        if_pos rfl]
    · have hlasting : isLasting (name, v) = true := by simp [isLasting, hcreated, hupdated]
      have hmem : (name, v) ∈ e.members.filter isLasting := by
        rw [← filter_isLasting_untimed]
        exact List.mem_filter.2 ⟨hm, hlasting⟩
      have hnodup : ((e.members.filter isLasting).map Prod.fst).Nodup :=
        e.nodup_names.sublist (List.filter_sublist.map _)
      have hfound : Found e.lasting name v := shows_sorted hnodup _ hmem
      rwa [Found, completed, lookup_cons_eq, if_neg hcreated, lookup_cons_eq, if_neg hupdated]

/-- Tidy entities with one text agree in all but their times. -/
theorem untimed_eq_of_timeless {e e' : Entity} (he : e.Tidy) (he' : e'.Tidy)
    (h : e.timeless = e'.timeless) : e.untimed = e'.untimed := by
  rw [timeless_eq, timeless_eq] at h
  have hread := ofJson?_of_shows he.untimed (shows_completed e) (nodup_completed e)
  have hread' := ofJson?_of_shows he'.untimed (shows_completed e') (nodup_completed e')
  rw [Json.obj.inj h] at hread
  exact Option.some.inj (hread.symm.trans hread')

/-- Without its times an entity without fractions in its notes is a plain document. -/
theorem plain_timeless {e : Entity} (h : ∀ j ∈ e.freeForm, Plain j) : Plain e.timeless := by
  have hplain : Plain (.obj (e.members.filter isLasting)) :=
    .obj fun m hm => plain_members h m (List.mem_of_mem_filter hm)
  exact hplain.sorted

end Entity

/-! ## The text of entities -/

/-- Entities sorted by id, without their times, depend on neither the order nor the times. -/
theorem sortById_untimed {l m : List Entity} (hl : (l.map Entity.id).Nodup)
    (h : (l.map Entity.untimed).Perm (m.map Entity.untimed)) :
    (sortById l).map Entity.untimed = (sortById m).map Entity.untimed := by
  have hids : ∀ l : List Entity, (l.map Entity.untimed).map Entity.id = l.map Entity.id := by
    intro l
    rw [List.map_map]
    rfl
  have hm : (m.map Entity.id).Nodup := by
    have hperm := h.map Entity.id
    rw [hids, hids] at hperm
    exact hperm.nodup_iff.1 hl
  have hsorted : ∀ {l : List Entity}, (l.map Entity.id).Nodup →
      ((sortById l).map Entity.untimed).Pairwise fun a b => a.id < b.id :=
    fun hl => List.pairwise_map.2 (Keyed.pairwise_mergeSort_lt hl)
  have hperm : ((sortById l).map Entity.untimed).Perm ((sortById m).map Entity.untimed) :=
    ((List.mergeSort_perm l _).map _).trans (h.trans ((List.mergeSort_perm m _).map _).symm)
  refine hperm.eq_of_pairwise ?_ (hsorted hl) (hsorted hm)
  intro a b _ _ hab hba
  exact absurd hba (String.lt_asymm hab)

/-- The text of which the digest is taken is the same for entities in another order and at other
times. -/
theorem canonicalText_congr {l m : List Entity} (hl : (l.map Entity.id).Nodup)
    (h : (l.map Entity.untimed).Perm (m.map Entity.untimed)) :
    canonicalText l = canonicalText m := by
  have htimeless : ∀ l : List Entity,
      l.map Entity.timeless = (l.map Entity.untimed).map Entity.timeless := by
    intro l
    rw [List.map_map]
    exact List.map_congr_left fun e _ => e.timeless_untimed.symm
  rw [canonicalText, canonicalText, htimeless (sortById l), htimeless (sortById m),
    sortById_untimed hl h]

/-- Lists of tidy entities whose documents without times are the same are so without times. -/
theorem map_untimed_of_timeless {l m : List Entity} (hl : ∀ e ∈ l, e.Tidy) (hm : ∀ e ∈ m, e.Tidy)
    (h : l.map Entity.timeless = m.map Entity.timeless) :
    l.map Entity.untimed = m.map Entity.untimed := by
  induction l generalizing m with
  | nil => rw [List.map_eq_nil_iff.1 h.symm]
  | cons e rest ih =>
      cases m with
      | nil => exact nomatch h
      | cons e' rest' =>
          obtain ⟨hhead, htail⟩ := List.cons.inj h
          obtain ⟨he, hrest⟩ := List.forall_mem_cons.1 hl
          obtain ⟨he', hrest'⟩ := List.forall_mem_cons.1 hm
          rw [List.map_cons, List.map_cons, Entity.untimed_eq_of_timeless he he' hhead,
            ih hrest hrest' htail]

/-- Tidy entities without floating point numbers have the same text only if they agree, in some
order, in all but their times. -/
theorem perm_of_canonicalText {l m : List Entity} (hl : ∀ e ∈ l, e.Tidy) (hm : ∀ e ∈ m, e.Tidy)
    (hl' : ∀ e ∈ l, ∀ j ∈ e.freeForm, Plain j) (hm' : ∀ e ∈ m, ∀ j ∈ e.freeForm, Plain j)
    (h : canonicalText l = canonicalText m) :
    (l.map Entity.untimed).Perm (m.map Entity.untimed) := by
  have hplain : ∀ {l : List Entity}, (∀ e ∈ l, ∀ j ∈ e.freeForm, Plain j) →
      Plain (.arr ((sortById l).map Entity.timeless)) := by
    intro l hl
    refine .arr (List.forall_mem_map.2 fun e he => Entity.plain_timeless (hl e ?_))
    exact (List.mergeSort_perm l _).mem_iff.1 he
  have htidy : ∀ {l : List Entity}, (∀ e ∈ l, e.Tidy) → ∀ e ∈ sortById l, e.Tidy :=
    fun hl e he => hl e ((List.mergeSort_perm _ _).mem_iff.1 he)
  have htimeless := Json.arr.inj (write_injective (hplain hl') (hplain hm') h)
  have huntimed := map_untimed_of_timeless (htidy hl) (htidy hm) htimeless
  have hperm : ∀ l : List Entity, (l.map Entity.untimed).Perm ((sortById l).map Entity.untimed) :=
    fun l => ((List.mergeSort_perm l _).map _).symm
  exact (hperm l).trans (huntimed ▸ (hperm m).symm)

/-! ## The digest of the text -/

/-- What is kept of the SHA-256 digest of a text: its first 16 hexadecimal digits. -/
def shortDigest (text : List Char) : List Char := (Digest.hexText (Text.encode text)).toList.take 16

/-- A fingerprint is the short digest of the text. -/
theorem toList_fingerprint (entities : List Entity) :
    (fingerprint entities).toList = shortDigest (canonicalText entities) := by
  rw [fingerprint, String.toList_ofList, shortDigest]
  rfl

/-- Fingerprints are equal just if the short digests of the texts are. -/
theorem fingerprint_eq_iff {l m : List Entity} :
    fingerprint l = fingerprint m
      ↔ shortDigest (canonicalText l) = shortDigest (canonicalText m) := by
  rw [← toList_fingerprint, ← toList_fingerprint, String.toList_inj]

end CodeAtlas.Graph
