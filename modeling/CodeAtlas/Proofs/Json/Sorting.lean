import CodeAtlas.Json.Basic
import CodeAtlas.Proofs.Json.Printing
import Mathlib.Data.List.Sort

/-!
# Sorted members and documents

Members are sorted if their keys ascend, so that no key is repeated. Putting a member in its place
keeps them sorted and changes what is found under its key and under no other. Sorted members are
determined by what is found in them.

A document is sorted if the keys of all its objects ascend. Sorting gives a sorted document, changes
no sorted one, and finds under every key of an object what was there, sorted, if no key is repeated.
-/

namespace CodeAtlas.Json

variable {α : Type}

/-! ## Ascending keys -/

/-- The keys of the members ascend. -/
def Ascending (l : List (String × α)) : Prop := (l.map Prod.fst).Pairwise (· < ·)

theorem ascending_nil : Ascending ([] : List (String × α)) := List.Pairwise.nil

/-- Members ascend if the first key is below all others and these ascend. -/
theorem ascending_cons {k : String} {v : α} {l : List (String × α)} :
    Ascending ((k, v) :: l) ↔ (∀ k' ∈ l.map Prod.fst, k < k') ∧ Ascending l :=
  List.pairwise_cons

/-- The first member is found under its key, the others under other keys. -/
theorem lookup_cons_eq (k k' : String) (v : α) (l : List (String × α)) :
    ((k', v) :: l).lookup k = if k = k' then some v else l.lookup k := by
  rw [List.lookup_cons]
  by_cases h : k = k'
  · rw [if_pos h, beq_iff_eq.2 h]
  · rw [if_neg h, beq_false_of_ne h]

/-- A key is new, or it was there. -/
theorem mem_keys_insertMember {k key : String} {v : α} {l : List (String × α)} :
    k ∈ (insertMember key v l).map Prod.fst ↔ k = key ∨ k ∈ l.map Prod.fst := by
  induction l with
  | nil => simp [insertMember]
  | cons m rest ih =>
      obtain ⟨k', v'⟩ := m
      rw [insertMember]
      split
      · simp
      · split
        · next h => simp [h]
        · rw [List.map_cons, List.mem_cons, ih, List.map_cons, List.mem_cons]
          exact or_left_comm

/-- Under the key of a new member it is found, under other keys what was found before. -/
theorem lookup_insertMember (k key : String) (v : α) (l : List (String × α)) :
    (insertMember key v l).lookup k = if k = key then some v else l.lookup k := by
  induction l with
  | nil => rw [insertMember, lookup_cons_eq]
  | cons m rest ih =>
      obtain ⟨k', v'⟩ := m
      rw [insertMember]
      split
      · rw [lookup_cons_eq]
      · split
        · next h =>
          subst h
          rw [lookup_cons_eq, lookup_cons_eq]
          by_cases hk : k = key
          · rw [if_pos hk, if_pos hk]
          · rw [if_neg hk, if_neg hk, if_neg hk]
        · next h =>
          rw [lookup_cons_eq, lookup_cons_eq, ih]
          by_cases hk : k = k'
          · rw [if_pos hk, if_neg fun e => h (e.symm.trans hk), if_pos hk]
          · rw [if_neg hk, if_neg hk]

/-- Of two members with one key only the last counts. -/
theorem insertMember_insertMember (key : String) (v w : α) (l : List (String × α)) :
    insertMember key v (insertMember key w l) = insertMember key v l := by
  induction l with
  | nil =>
      show insertMember key v [(key, w)] = [(key, v)]
      rw [insertMember, if_neg (String.lt_irrefl key), if_pos rfl]
  | cons m rest ih =>
      obtain ⟨k, x⟩ := m
      by_cases hlt : key < k
      · rw [insertMember, if_pos hlt, insertMember, if_neg (String.lt_irrefl key), if_pos rfl,
          insertMember, if_pos hlt]
      · by_cases heq : key = k
        · subst heq
          rw [insertMember, if_neg hlt, if_pos rfl, insertMember, if_neg hlt, if_pos rfl,
            insertMember, if_neg hlt, if_pos rfl]
        · simp [insertMember, hlt, heq, ih]

/-- Putting a member in its place leaves the members with other keys. -/
theorem filter_insertMember (key : String) (v : α) (l : List (String × α)) :
    (insertMember key v l).filter (fun m => m.1 != key) = l.filter fun m => m.1 != key := by
  induction l with
  | nil => exact List.filter_cons_of_neg (by simp)
  | cons m rest ih =>
      obtain ⟨k, x⟩ := m
      rw [insertMember]
      split
      · exact List.filter_cons_of_neg (by simp)
      · split
        · next h =>
          rw [List.filter_cons_of_neg (by simp), List.filter_cons_of_neg (by simp [h])]
        · rw [List.filter_cons, List.filter_cons, ih]

/-- Putting a member in its place keeps the keys ascending. -/
theorem Ascending.insertMember {l : List (String × α)} (hl : Ascending l) (key : String) (v : α) :
    Ascending (insertMember key v l) := by
  induction l with
  | nil => exact List.pairwise_singleton _ _
  | cons m rest ih =>
      obtain ⟨k', v'⟩ := m
      obtain ⟨hlow, hrest⟩ := ascending_cons.1 hl
      rw [Json.insertMember]
      split
      · next h =>
        refine ascending_cons.2 ⟨?_, hl⟩
        intro x hx
        rcases List.mem_cons.1 hx with rfl | hx
        · exact h
        · exact String.lt_trans h (hlow x hx)
      · next h =>
        split
        · next he => exact ascending_cons.2 ⟨he ▸ hlow, hrest⟩
        · next he =>
          refine ascending_cons.2 ⟨?_, ih hrest⟩
          intro x hx
          rcases mem_keys_insertMember.1 hx with rfl | hx
          · exact (Std.lt_trichotomy k' x).resolve_right fun h' =>
              h'.elim (fun e => he e.symm) h
          · exact hlow x hx

/-- A key that is found is one of the keys. -/
theorem mem_keys_of_lookup {k : String} {v : α} {l : List (String × α)} (h : l.lookup k = some v) :
    k ∈ l.map Prod.fst := by
  induction l with
  | nil => cases h
  | cons m rest ih =>
      obtain ⟨k', v'⟩ := m
      rw [lookup_cons_eq] at h
      by_cases hk : k = k'
      · exact hk ▸ List.mem_cons_self
      · rw [if_neg hk] at h
        exact List.mem_cons_of_mem _ (ih h)

/-- No key of ascending members is repeated. -/
theorem Ascending.nodup_keys {l : List (String × α)} (hl : Ascending l) :
    (l.map Prod.fst).Nodup :=
  hl.imp String.ne_of_lt

/-- No member of ascending members is repeated. -/
theorem Ascending.nodup {l : List (String × α)} (hl : Ascending l) : l.Nodup :=
  hl.nodup_keys.of_map

/-- In ascending members each member is found under its key. -/
theorem Ascending.lookup_eq_some_iff {l : List (String × α)} (hl : Ascending l)
    {k : String} {v : α} :
    l.lookup k = some v ↔ (k, v) ∈ l := by
  induction l with
  | nil => simp
  | cons m rest ih =>
      obtain ⟨k', v'⟩ := m
      obtain ⟨hlow, hrest⟩ := ascending_cons.1 hl
      rw [lookup_cons_eq]
      by_cases hk : k = k'
      · subst hk
        have hout : (k, v) ∉ rest := fun h =>
          String.lt_irrefl k (hlow k (List.mem_map_of_mem h))
        simp [hout, eq_comm]
      · simp [hk, ih hrest]

/-- Ascending members in which the same is found are the same. -/
theorem Ascending.eq_of_lookup {l l' : List (String × α)} (hl : Ascending l) (hl' : Ascending l')
    (h : ∀ k, l.lookup k = l'.lookup k) : l = l' := by
  have hmem : ∀ m, m ∈ l ↔ m ∈ l' := by
    rintro ⟨k, v⟩
    rw [← hl.lookup_eq_some_iff, ← hl'.lookup_eq_some_iff, h]
  have hperm : l.Perm l' := (List.perm_ext_iff_of_nodup hl.nodup hl'.nodup).2 hmem
  refine hperm.eq_of_pairwise ?_ (List.pairwise_map.1 hl) (List.pairwise_map.1 hl')
  intro a b _ _ hab hba
  exact absurd hba (String.lt_asymm hab)

/-! ## Members -/

/-- A member behind an insertion is the one that was put in or was there. -/
theorem mem_insertMember {key : String} {value : α} {l : List (String × α)} {m : String × α}
    (h : m ∈ insertMember key value l) : m = (key, value) ∨ m ∈ l := by
  induction l with
  | nil => exact .inl (List.mem_singleton.1 h)
  | cons m' rest ih =>
      obtain ⟨k, v⟩ := m'
      rw [insertMember] at h
      split at h
      · exact List.mem_cons.1 h
      · split at h
        · rcases List.mem_cons.1 h with h | h
          · exact .inl h
          · exact .inr (List.mem_cons_of_mem _ h)
        · rcases List.mem_cons.1 h with h | h
          · exact .inr (h ▸ List.mem_cons_self)
          · exact (ih h).imp_right (List.mem_cons_of_mem _)

/-- A member behind several insertions is one of those put in or was there. -/
theorem mem_foldl_insertMember {l acc : List (String × α)} {m : String × α}
    (h : m ∈ l.foldl (fun sorted (k, v) => insertMember k v sorted) acc) : m ∈ l ∨ m ∈ acc := by
  induction l generalizing acc with
  | nil => exact .inr h
  | cons m' rest ih =>
      rcases ih h with h | h
      · exact .inl (List.mem_cons_of_mem _ h)
      · rcases mem_insertMember h with h | h
        · exact .inl (h ▸ List.mem_cons_self)
        · exact .inr h

/-- Sorting puts no members in. -/
theorem mem_of_mem_sortMembers {l : List (String × α)} {m : String × α} (h : m ∈ sortMembers l) :
    m ∈ l :=
  (mem_foldl_insertMember h).resolve_right List.not_mem_nil

/-- Putting members in keeps the keys ascending. -/
theorem ascending_foldl_insertMember (l : List (String × α)) {acc : List (String × α)}
    (h : Ascending acc) :
    Ascending (l.foldl (fun sorted (k, v) => insertMember k v sorted) acc) := by
  induction l generalizing acc with
  | nil => exact h
  | cons m rest ih => exact ih (h.insertMember m.1 m.2)

/-- Sorting keeps the keys. -/
theorem mem_keys_sortMembers {k : String} {l : List (String × α)} :
    k ∈ (sortMembers l).map Prod.fst ↔ k ∈ l.map Prod.fst := by
  have hfold : ∀ {l acc : List (String × α)},
      k ∈ (l.foldl (fun sorted (k, v) => insertMember k v sorted) acc).map Prod.fst
        ↔ k ∈ l.map Prod.fst ∨ k ∈ acc.map Prod.fst := by
    intro l
    induction l with
    | nil => exact fun {acc} => (or_iff_right List.not_mem_nil).symm
    | cons m rest ih =>
        intro acc
        rw [List.foldl_cons, ih, mem_keys_insertMember, List.map_cons, List.mem_cons,
          or_left_comm, or_assoc]
  exact hfold.trans (or_iff_left List.not_mem_nil)

/-- Sorted members have ascending keys. -/
theorem ascending_sortMembers (l : List (String × α)) : Ascending (sortMembers l) :=
  ascending_foldl_insertMember l ascending_nil

/-- What is no key is not found. -/
theorem lookup_eq_none {k : String} {l : List (String × α)} (h : k ∉ l.map Prod.fst) :
    l.lookup k = none := by
  cases hl : l.lookup k with
  | none => rfl
  | some v => exact absurd (mem_keys_of_lookup hl) h

/-- If no key is repeated the members that are put in are found, and then those that were there. -/
theorem lookup_foldl_insertMember {l : List (String × α)} (hl : (l.map Prod.fst).Nodup)
    (acc : List (String × α)) (k : String) :
    (l.foldl (fun sorted (k, v) => insertMember k v sorted) acc).lookup k
      = (l.lookup k).or (acc.lookup k) := by
  induction l generalizing acc with
  | nil => rfl
  | cons m rest ih =>
      obtain ⟨k', v⟩ := m
      obtain ⟨hnew, hrest⟩ := List.nodup_cons.1 hl
      have hstep := ih hrest (insertMember k' v acc)
      rw [List.foldl_cons, hstep, lookup_insertMember, lookup_cons_eq]
      by_cases hk : k = k'
      · subst hk
        rw [lookup_eq_none hnew, if_pos rfl, if_pos rfl]
        rfl
      · rw [if_neg hk, if_neg hk]

/-- Sorting members whose keys are not repeated changes nothing under any key. -/
theorem lookup_sortMembers {l : List (String × α)} (hl : (l.map Prod.fst).Nodup) (k : String) :
    (sortMembers l).lookup k = l.lookup k := by
  rw [sortMembers, lookup_foldl_insertMember hl, List.lookup_nil, Option.or_none]

/-- A member with a new key is put among the others. -/
theorem insertMember_perm {key : String} (value : α) {l : List (String × α)}
    (h : key ∉ l.map Prod.fst) : (insertMember key value l).Perm ((key, value) :: l) := by
  induction l with
  | nil => exact List.Perm.refl _
  | cons m rest ih =>
      obtain ⟨k, v⟩ := m
      have hne : key ≠ k := fun hkey => h (List.mem_cons.2 (.inl hkey))
      have hout : key ∉ rest.map Prod.fst := fun hmem => h (List.mem_cons_of_mem _ hmem)
      rw [insertMember, if_neg hne]
      split
      · exact List.Perm.refl _
      · exact ((ih hout).cons (k, v)).trans (List.Perm.swap ..)

/-- If no key is repeated putting members in only moves them. -/
theorem foldl_insertMember_perm {l acc : List (String × α)} (h : ((l ++ acc).map Prod.fst).Nodup) :
    (l.foldl (fun sorted (k, v) => insertMember k v sorted) acc).Perm (l ++ acc) := by
  induction l generalizing acc with
  | nil => exact List.Perm.refl _
  | cons m rest ih =>
      have hout : m.1 ∉ acc.map Prod.fst := by
        intro hmem
        refine (List.nodup_cons.1 h).1 ?_
        show m.1 ∈ (rest ++ acc).map Prod.fst
        rw [List.map_append]
        exact List.mem_append_right _ hmem
      have hput := insertMember_perm m.2 hout
      have hmove : (rest ++ insertMember m.1 m.2 acc).Perm (m :: rest ++ acc) :=
        (hput.append_left rest).trans List.perm_middle
      exact (ih ((hmove.map Prod.fst).nodup_iff.2 h)).trans hmove

/-- Sorting members whose keys are not repeated leaves none of them out. -/
theorem sortMembers_perm {l : List (String × α)} (hl : (l.map Prod.fst).Nodup) :
    (sortMembers l).Perm l := by
  have hnil : ((l ++ []).map Prod.fst).Nodup := by rwa [List.append_nil]
  have hperm := foldl_insertMember_perm hnil
  rw [List.append_nil] at hperm
  exact hperm

/-- Members with ascending keys are left as they are. -/
theorem sortMembers_of_ascending {l : List (String × α)} (hl : Ascending l) : sortMembers l = l :=
  (ascending_sortMembers l).eq_of_lookup hl (lookup_sortMembers hl.nodup_keys)

/-! ## Documents -/

/-- Documents in which the keys of every object ascend. -/
inductive Sorted : Json → Prop
  | null : Sorted .null
  | bool (b : Bool) : Sorted (.bool b)
  | num (n : Json.Number) : Sorted (.num n)
  | str (s : String) : Sorted (.str s)
  | arr {items : List Json} (h : ∀ j ∈ items, Sorted j) : Sorted (.arr items)
  | obj {members : List (String × Json)} (hkeys : Ascending members)
      (h : ∀ m ∈ members, Sorted m.2) : Sorted (.obj members)

/-- Items are sorted one by one. -/
theorem sortedItems_eq_map (items : List Json) : sortedItems items = items.map sorted := by
  induction items with
  | nil => rfl
  | cons item items ih => rw [sortedItems, ih, List.map_cons]

/-- Members are sorted value by value. -/
theorem sortedMembers_eq_map (members : List (String × Json)) :
    sortedMembers members = members.map fun m => (m.1, m.2.sorted) := by
  induction members with
  | nil => rfl
  | cons m members ih =>
      obtain ⟨key, value⟩ := m
      rw [sortedMembers, ih, List.map_cons]

/-- Sorting does not change a sorted document. -/
theorem Sorted.sorted_eq {j : Json} (h : Sorted j) : j.sorted = j := by
  induction h with
  | null => rfl
  | bool b => rfl
  | num n => rfl
  | str s => rfl
  | @arr items _ ih =>
      have hitems : items.map sorted = items := (List.map_congr_left ih).trans (List.map_id _)
      rw [sorted, sortedItems_eq_map, hitems]
  | @obj members hkeys _ ih =>
      have hmembers : sortedMembers members = members := by
        rw [sortedMembers_eq_map]
        refine (List.map_congr_left ?_).trans (List.map_id _)
        intro m hm
        rw [ih m hm]
        rfl
      rw [sorted, ofMembers, hmembers, sortMembers_of_ascending hkeys]

mutual

/-- Sorting gives a sorted document. -/
theorem sorted_sorted : ∀ j : Json, Sorted j.sorted
  | .null => .null
  | .bool b => .bool b
  | .num n => .num n
  | .str s => .str s
  | .arr items => .arr (sorted_sortedItems items)
  | .obj members =>
      .obj (ascending_sortMembers _) fun m hm =>
        sorted_sortedMembers members m (mem_of_mem_sortMembers hm)

/-- The items of a sorted list are sorted. -/
theorem sorted_sortedItems : ∀ (items : List Json), ∀ j ∈ sortedItems items, Sorted j
  | [] => nofun
  | item :: items => List.forall_mem_cons.2 ⟨sorted_sorted item, sorted_sortedItems items⟩

/-- The values of sorted members are sorted. -/
theorem sorted_sortedMembers : ∀ (members : List (String × Json)),
    ∀ m ∈ sortedMembers members, Sorted m.2
  | [] => nofun
  | (_, value) :: members =>
      List.forall_mem_cons.2 ⟨sorted_sorted value, sorted_sortedMembers members⟩

end

/-- Sorting keeps numbers as they are. -/
theorem Plain.sorted {j : Json} (h : Plain j) : Plain j.sorted := by
  induction h with
  | null => exact .null
  | bool b => exact .bool b
  | int h => exact .int h
  | str s => exact .str s
  | @arr items _ ih =>
      rw [Json.sorted, sortedItems_eq_map]
      exact .arr (List.forall_mem_map.2 ih)
  | @obj members _ ih =>
      refine .obj ?_
      intro m hm
      have hmem := mem_of_mem_sortMembers hm
      rw [sortedMembers_eq_map] at hmem
      obtain ⟨m', hm', rfl⟩ := List.mem_map.1 hmem
      exact ih m' hm'

end CodeAtlas.Json
