import CodeAtlas.Json.Decode
import CodeAtlas.Proofs.Json.Sorting

/-!
# Reading what was written of a field

A field that was written is read back from the members of a record, wherever it stands among them
and whether its value was sorted since or not.
-/

namespace CodeAtlas.Json

variable {α : Type}

/-- What is read in a document is the same when it is sorted. -/
structure Reads (read? : Json → Option α) (j : Json) (a : α) : Prop where
  plain : read? j = some a
  sorted : read? j.sorted = some a

/-- A member is found, as it was written or sorted. -/
def Found (r : List (String × Json)) (name : String) (j : Json) : Prop :=
  r.lookup name = some j ∨ r.lookup name = some j.sorted

/-- All members are found, as they were written or sorted. -/
def Shows (r members : List (String × Json)) : Prop := ∀ m ∈ members, Found r m.1 m.2

/-! ## Values -/

theorem reads_str (s : String) : Reads str? (.str s) s := ⟨rfl, rfl⟩

theorem reads_bool (b : Bool) : Reads bool? (.bool b) b := ⟨rfl, rfl⟩

/-- A natural number of 64 bits is read back. -/
theorem reads_nat {n : Nat} (h : n < Nat.pow 2 64) : Reads word? (.nat n) n := by
  have hread : word? (.nat n) = some n := if_pos h
  exact ⟨hread, hread⟩

/-- Items that are read back one by one are read back as a list. -/
theorem mapM_of_forall {β : Type} {f : β → Option α} {g : α → β} {l : List α}
    (h : ∀ a ∈ l, f (g a) = some a) : (l.map g).mapM f = some l := by
  induction l with
  | nil => rfl
  | cons a l ih =>
      obtain ⟨ha, hl⟩ := List.forall_mem_cons.1 h
      rw [List.map_cons, List.mapM_cons, ha, ih hl]
      rfl

/-- An array is read if all of its items are. -/
theorem reads_list {read? : Json → Option α} {write : α → Json} {l : List α}
    (h : ∀ a ∈ l, Reads read? (write a) a) : Reads (list? read?) (.arr (l.map write)) l := by
  constructor
  · exact mapM_of_forall fun a ha => (h a ha).plain
  · rw [Json.sorted, sortedItems_eq_map, List.map_map]
    exact mapM_of_forall (g := Json.sorted ∘ write) fun a ha => (h a ha).sorted

/-- An object whose keys ascend is read if all of its values are. -/
theorem reads_members {read? : Json → Option α} {write : α → Json} {l : List (String × α)}
    (hl : Ascending l) (h : ∀ m ∈ l, Reads read? (write m.2) m.2) :
    Reads (members? read?) (.obj (l.map fun m => (m.1, write m.2))) l := by
  have hread : ∀ f : α → Json, (∀ m ∈ l, read? (f m.2) = some m.2) →
      members? read? (.obj (l.map fun m => (m.1, f m.2))) = some l := by
    intro f hf
    have hmembers : (l.map fun m => (m.1, f m.2)).mapM
        (fun m : String × Json => (read? m.2).map (m.1, ·)) = some l := by
      refine mapM_of_forall fun m hm => ?_
      rw [hf m hm]
      rfl
    rw [members?, hmembers, Option.map_some, sortMembers_of_ascending hl]
  constructor
  · exact hread write fun m hm => (h m hm).plain
  · -- the keys ascend already, so only the values are sorted
    have hkeys : Ascending (l.map fun m => (m.1, (write m.2).sorted)) := by
      rw [Ascending, List.map_map]
      exact hl
    rw [Json.sorted, ofMembers, sortedMembers_eq_map, List.map_map]
    refine (congrArg (members? read? ∘ Json.obj) (sortMembers_of_ascending hkeys)).trans ?_
    exact hread (fun a => (write a).sorted) fun m hm => (h m hm).sorted

/-- Strings are read back as a list. -/
theorem reads_strings (l : List String) : Reads strings? (.strings l) l :=
  reads_list fun s _ => reads_str s

/-- What is not null is not null when sorted. -/
theorem sorted_ne_null {j : Json} (h : j ≠ .null) : j.sorted ≠ .null := by
  cases j with
  | null => exact absurd rfl h
  | _ => exact nofun

/-- An optional value that is not null is read. -/
theorem optional?_of_ne {read? : Json → Option α} {j : Json} {a : α} (hj : j ≠ .null)
    (ha : read? j = some a) : optional? read? j = some (some a) := by
  unfold optional?
  split
  · exact absurd rfl hj
  · rw [ha]
    rfl

/-- A value that is not null is read as an optional one. -/
theorem reads_some {read? : Json → Option α} {j : Json} {a : α} (hj : j ≠ .null)
    (h : Reads read? j a) : Reads (optional? read?) j (some a) :=
  ⟨optional?_of_ne hj h.plain, optional?_of_ne (sorted_ne_null hj) h.sorted⟩

/-- An optional value is read back, absent or not. -/
theorem reads_optional {read? : Json → Option α} {write : α → Json} {a? : Option α}
    (h : ∀ a, a? = some a → write a ≠ .null ∧ Reads read? (write a) a) :
    Reads (optional? read?) (ofOption write a?) a? := by
  cases a? with
  | none => exact ⟨rfl, rfl⟩
  | some a =>
      obtain ⟨hne, hread⟩ := h a rfl
      exact reads_some hne hread

/-- An optional string is read back. -/
theorem reads_ofString? (s? : Option String) : Reads (optional? str?) (ofString? s?) s? :=
  reads_optional fun s _ => ⟨nofun, reads_str s⟩

/-- A document of any form is read sorted. -/
theorem reads_sorted {j : Json} (h : Sorted j) : Reads (fun j => some j.sorted) j j := by
  constructor
  · rw [h.sorted_eq]
  · rw [h.sorted_eq, h.sorted_eq]

/-! ## Fields -/

variable {r : List (String × Json)} {name : String} {j : Json} {a : α} {read? : Json → Option α}

/-- A field that is found is read as its value. -/
theorem Found.lookup_bind (h : Found r name j) (hj : Reads read? j a) :
    ∃ j', r.lookup name = some j' ∧ read? j' = some a := by
  rcases h with h | h
  · exact ⟨_, h, hj.plain⟩
  · exact ⟨_, h, hj.sorted⟩

/-- A required field that is found is read. -/
theorem Found.field? (h : Found r name j) (hj : Reads read? j a) :
    field? read? r name = some a := by
  obtain ⟨j', hlookup, hread⟩ := h.lookup_bind hj
  rw [Json.field?, hlookup]
  exact hread

/-- A field with a default that is found is read. -/
theorem Found.defaultField? (h : Found r name j) (hj : Reads read? j a) (value : α) :
    defaultField? read? value r name = some a := by
  obtain ⟨j', hlookup, hread⟩ := h.lookup_bind hj
  rw [Json.defaultField?, hlookup]
  exact hread

/-- An optional field that is found is read. -/
theorem Found.optionalField? {a? : Option α} (h : Found r name j)
    (hj : Reads (optional? read?) j a?) : optionalField? read? r name = some a? := by
  obtain ⟨j', hlookup, hread⟩ := h.lookup_bind hj
  rw [Json.optionalField?, hlookup]
  exact hread

/-! ## Where values come from -/

/-- A word is below the bound of words. -/
theorem lt_of_word? {n : Nat} (h : word? j = some n) : n < Nat.pow 2 64 := by
  obtain ⟨m, -, hm⟩ := Option.bind_eq_some_iff.1 h
  split at hm
  · next hlt =>
    cases hm
    exact hlt
  · cases hm

/-- A field that holds a word holds one below the bound. -/
theorem lt_of_wordField? {n : Nat} (h : field? word? r name = some n) : n < Nat.pow 2 64 := by
  obtain ⟨j, -, hj⟩ := Option.bind_eq_some_iff.1 h
  exact lt_of_word? hj

/-- A required field that is read holds something readable. -/
theorem exists_of_field? (h : field? read? r name = some a) : ∃ j, read? j = some a := by
  obtain ⟨j, -, hj⟩ := Option.bind_eq_some_iff.1 h
  exact ⟨j, hj⟩

/-- A field with a default holds something readable, or is the default. -/
theorem exists_of_defaultField? {value : α} (h : defaultField? read? value r name = some a) :
    (∃ j, read? j = some a) ∨ a = value := by
  rw [defaultField?] at h
  split at h
  · next j _ => exact .inl ⟨j, h⟩
  · exact .inr (Option.some.inj h).symm

/-- An optional field that is present holds something readable that is not null. -/
theorem exists_of_optionalField? (h : optionalField? read? r name = some (some a)) :
    ∃ j, j ≠ .null ∧ read? j = some a := by
  unfold optionalField? optional? at h
  split at h
  · exact nomatch h
  · next j hj =>
    obtain ⟨b, hb, heq⟩ := Option.map_eq_some_iff.1 h
    cases heq
    exact ⟨_, hj, hb⟩

/-- The items of a list that is read are read one by one. -/
theorem exists_of_mapM {β : Type} {f : β → Option α} {items : List β} {l : List α}
    (h : items.mapM f = some l) : ∀ a ∈ l, ∃ b ∈ items, f b = some a := by
  induction items generalizing l with
  | nil =>
      cases h
      exact nofun
  | cons item items ih =>
      rw [List.mapM_cons] at h
      obtain ⟨a, ha, hbind⟩ := Option.bind_eq_some_iff.1 h
      obtain ⟨rest, hrest, heq⟩ := Option.bind_eq_some_iff.1 hbind
      cases heq
      refine List.forall_mem_cons.2 ⟨⟨item, List.mem_cons_self, ha⟩, fun a' ha' => ?_⟩
      obtain ⟨b, hb, heq⟩ := ih hrest a' ha'
      exact ⟨b, List.mem_cons_of_mem _ hb, heq⟩

/-- The items of a document that is read as a list are readable. -/
theorem exists_of_list? {j : Json} {l : List α} (h : list? read? j = some l) :
    ∀ a ∈ l, ∃ j, read? j = some a := by
  intro a ha
  unfold list? at h
  split at h
  · obtain ⟨b, -, hb⟩ := exists_of_mapM h a ha
    exact ⟨b, hb⟩
  · exact nomatch h

/-- What is read in an object is sorted, and every value in it was read. -/
theorem exists_of_members? {j : Json} {l : List (String × α)} (h : members? read? j = some l) :
    Ascending l ∧ ∀ m ∈ l, ∃ j, read? j = some m.2 := by
  unfold members? at h
  split at h
  · obtain ⟨read, hread, rfl⟩ := Option.map_eq_some_iff.1 h
    refine ⟨ascending_sortMembers read, fun m hm => ?_⟩
    obtain ⟨b, -, hb⟩ := exists_of_mapM hread m (mem_of_mem_sortMembers hm)
    obtain ⟨a, ha, rfl⟩ := Option.map_eq_some_iff.1 hb
    exact ⟨b.2, ha⟩
  · exact nomatch h

/-! ## Records -/

/-- If no key is repeated a pair of a list is found by its key. -/
theorem lookup_of_mem {l : List (String × α)} (hl : (l.map Prod.fst).Nodup) {m : String × α}
    (hm : m ∈ l) : l.lookup m.1 = some m.2 := by
  induction l with
  | nil => cases hm
  | cons m' rest ih =>
      obtain ⟨k', v⟩ := m'
      obtain ⟨hnew, hrest⟩ := List.nodup_cons.1 hl
      rw [lookup_cons_eq]
      rcases List.mem_cons.1 hm with rfl | hmem
      · exact if_pos rfl
      · have hkey : m.1 ∈ rest.map Prod.fst := List.mem_map_of_mem hmem
        have hne : m.1 ≠ k' := fun heq => hnew (heq ▸ hkey)
        rw [if_neg hne]
        exact ih hrest hmem

/-- A record shows its own members. -/
theorem shows_self {members : List (String × Json)} (h : (members.map Prod.fst).Nodup) :
    Shows members members := fun _ hm => .inl (lookup_of_mem h hm)

/-- Sorting the values keeps the keys. -/
theorem keys_sortedMembers (members : List (String × Json)) :
    (sortedMembers members).map Prod.fst = members.map Prod.fst := by
  rw [sortedMembers_eq_map, List.map_map]
  rfl

/-- A sorted record shows the members it had before. -/
theorem shows_sorted {members : List (String × Json)} (h : (members.map Prod.fst).Nodup) :
    Shows (sortMembers (sortedMembers members)) members := by
  intro m hm
  have hkeys : ((sortedMembers members).map Prod.fst).Nodup := by rwa [keys_sortedMembers]
  have hmem : (m.1, m.2.sorted) ∈ sortedMembers members := by
    rw [sortedMembers_eq_map]
    exact List.mem_map_of_mem hm
  right
  rw [lookup_sortMembers hkeys]
  exact lookup_of_mem hkeys hmem

/-- If no key is repeated none of any names is. -/
theorem unrepeated_of_nodup {members : List (String × Json)} (h : (members.map Prod.fst).Nodup)
    (names : List String) : unrepeated names members = true := by
  refine List.all_eq_true.2 ?_
  intro name _
  rw [decide_eq_true_eq]
  induction members with
  | nil => exact Nat.zero_le _
  | cons m rest ih =>
      obtain ⟨hnew, hrest⟩ := List.nodup_cons.1 h
      by_cases hm : m.1 == name
      · have hnone : rest.filter (fun m => m.1 == name) = [] := by
          refine List.filter_eq_nil_iff.2 ?_
          intro m' hm' heq
          refine hnew ?_
          rw [eq_of_beq hm, ← eq_of_beq heq]
          exact List.mem_map_of_mem hm'
        rw [List.filter_cons_of_pos (by simpa using hm), hnone]
        exact Nat.le_refl _
      · rw [List.filter_cons_of_neg (by simpa using hm)]
        exact ih hrest

/-- A record is read if it is read from all members that show its own and no others. -/
theorem reads_exactRecord {members : List (String × Json)} {names : List String} {optional : Nat}
    {read? : List (String × Json) → Option α} (hkeys : (members.map Prod.fst).Nodup)
    (h : ∀ r, Shows r members → (∀ name, name ∉ members.map Prod.fst → r.lookup name = none) →
      read? r = some a) :
    Reads (fun j => record? names optional j >>= read?) (.obj members) a := by
  constructor
  · show (if unrepeated names members then some members else none) >>= read? = some a
    rw [unrepeated_of_nodup hkeys, if_pos rfl]
    exact h _ (shows_self hkeys) fun _ => lookup_eq_none
  · have hkeys' := (ascending_sortMembers (sortedMembers members)).nodup_keys
    show (if unrepeated names (sortMembers (sortedMembers members)) then
      some (sortMembers (sortedMembers members)) else none) >>= read? = some a
    rw [unrepeated_of_nodup hkeys', if_pos rfl]
    refine h _ (shows_sorted hkeys) fun name hname => ?_
    rw [← keys_sortedMembers] at hkeys hname
    rw [lookup_sortMembers hkeys, lookup_eq_none hname]

/-- A record is read if it is read from all members that show its own. -/
theorem reads_record {members : List (String × Json)} {names : List String} {optional : Nat}
    {read? : List (String × Json) → Option α} (hkeys : (members.map Prod.fst).Nodup)
    (h : ∀ r, Shows r members → read? r = some a) :
    Reads (fun j => record? names optional j >>= read?) (.obj members) a :=
  reads_exactRecord hkeys fun r hr _ => h r hr

section
variable {members : List (String × Json)}

/-- A string is read from a record that shows it. -/
theorem strField?_of_shows (h : Shows r members) (name s : String) (hm : (name, .str s) ∈ members) :
    field? str? r name = some s := (h _ hm).field? (reads_str s)

/-- An optional string is read from a record that shows it. -/
theorem optionalStr?_of_shows (h : Shows r members) (name : String) (s? : Option String)
    (hm : (name, ofString? s?) ∈ members) : optionalField? str? r name = some s? :=
  (h _ hm).optionalField? (reads_ofString? s?)

/-- Strings are read from a record that shows them. -/
theorem strings?_of_shows (h : Shows r members) (name : String) (l : List String)
    (hm : (name, .strings l) ∈ members) : field? strings? r name = some l :=
  (h _ hm).field? (reads_strings l)

/-- A word is read from a record that shows it. -/
theorem word?_of_shows (h : Shows r members) (name : String) {n : Nat} (hn : n < Nat.pow 2 64)
    (hm : (name, .nat n) ∈ members) : field? word? r name = some n :=
  (h _ hm).field? (reads_nat hn)

end

end CodeAtlas.Json
