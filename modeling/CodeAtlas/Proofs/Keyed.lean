import Mathlib.Data.List.Induction
import Mathlib.Data.List.Nodup

/-!
# Lists of items with keys

An item is joined with the one in the list that has its key, in its place, or comes behind all
others. Putting the items of one list after another into a list is the union of the two: the keys
are those of the first list and then the new ones, and under a key is the join of what the two
lists have under it. A list without repeated keys is determined by its keys and by what is under
them, so the laws of the join carry over to the union.
-/

namespace CodeAtlas.Keyed

variable {α κ : Type} [DecidableEq κ]

/-- The first item with a key. -/
def find? (key : α → κ) (k : κ) (l : List α) : Option α := l.find? fun a => key a = k

/-- Joins an item with the one that has its key, or puts it behind all others. -/
def upsert (key : α → κ) (join : α → α → α) (b : α) : List α → List α
  | [] => [b]
  | a :: rest => if key a = key b then join a b :: rest else a :: upsert key join b rest

/-- The first list with the items of the second, one after the other. -/
def union (key : α → κ) (join : α → α → α) (l m : List α) : List α :=
  m.foldl (fun l b => upsert key join b l) l

/-- The join in which the item that comes last wins. -/
def last (_a b : α) : α := b

variable {key : α → κ} {join : α → α → α}

/-! ## Joins that pick the best item -/

/-- Joining items gives none only if there are none. -/
theorem foldr_merge_eq_none {join : α → α → α} {l : List (Option α)} :
    l.foldr (Option.merge join) none = none ↔ ∀ a, some a ∉ l := by
  induction l with
  | nil => simp
  | cons o rest ih =>
      rw [List.foldr_cons, Option.merge_eq_none_iff, ih]
      constructor
      · rintro ⟨rfl, hrest⟩ a ha
        rcases List.mem_cons.1 ha with ha | ha
        · exact nomatch ha
        · exact hrest a ha
      · intro h
        refine ⟨?_, fun a ha => h a (List.mem_cons_of_mem _ ha)⟩
        cases o with
        | none => rfl
        | some a => exact absurd List.mem_cons_self (h a)

/-- The join in which the second item wins if it is better. -/
def pick (better : α → α → Bool) (a b : α) : α := if better a b then b else a

/-- What an order has to fulfil for the best item to be well defined, up to items of one rank. -/
structure Ranking (better : α → α → Bool) : Prop where
  irrefl : ∀ a, ¬ better a a = true
  trans : ∀ {a b c}, better a b = true → better b c = true → better a c = true
  cotrans : ∀ {a c} b, better a c = true → better a b = true ∨ better b c = true

namespace Ranking

variable {better : α → α → Bool}

/-- Of an item and itself the item is picked. -/
theorem pick_self (hb : Ranking better) (a : α) : pick better a a = a := if_neg (hb.irrefl a)

/-- Picking the better of items is associative. -/
theorem pick_assoc (hb : Ranking better) (a b c : α) :
    pick better (pick better a b) c = pick better a (pick better b c) := by
  rw [pick, pick, pick, pick]
  by_cases hab : better a b = true
  · rw [if_pos hab]
    by_cases hbc : better b c = true
    · rw [if_pos hbc, if_pos (hb.trans hab hbc)]
    · rw [if_neg hbc, if_pos hab]
  · rw [if_neg hab]
    by_cases hbc : better b c = true
    · rw [if_pos hbc]
    · have hac : ¬ better a c = true := by
        intro hac
        rcases hb.cotrans b hac with h | h
        · exact hab h
        · exact hbc h
      rw [if_neg hbc, if_neg hab, if_neg hac]

/-- The best of some items, the leftmost of several: it is better than those before it, and none
behind it is better. -/
def Best (better : α → α → Bool) (l : List (Option α)) (a : α) : Prop :=
  ∃ left right, l = left ++ some a :: right ∧ (∀ b, some b ∈ left → better b a = true)
    ∧ ∀ b, some b ∈ right → ¬ better a b = true

/-- No item is better than the best. -/
theorem Best.not_better (hb : Ranking better) {l : List (Option α)} {a b : α}
    (ha : Best better l a) (h : some b ∈ l) : ¬ better a b = true := by
  obtain ⟨left, right, rfl, hleft, hright⟩ := ha
  rcases List.mem_append.1 h with h | h
  · intro hab
    exact hb.irrefl a (hb.trans hab (hleft b h))
  · rcases List.mem_cons.1 h with h | h
    · cases h
      exact hb.irrefl a
    · exact hright b h

/-- There is one best item at most. -/
theorem Best.unique {l : List (Option α)} {a b : α} (ha : Best better l a) (hb : Best better l b) :
    a = b := by
  obtain ⟨left, right, rfl, hleft, hright⟩ := ha
  obtain ⟨left', right', heq, hleft', hright'⟩ := hb
  -- of two in different places, the one in front would be both better and not better
  rcases List.append_eq_append_iff.1 heq with ⟨mid, rfl, hmid⟩ | ⟨mid, rfl, hmid⟩
  · cases mid with
    | nil => exact Option.some.inj (List.cons.inj hmid).1
    | cons o mid =>
        obtain ⟨rfl, rfl⟩ := List.cons.inj hmid
        refine absurd (hleft' a ?_) (hright b ?_)
        · exact List.mem_append_right _ List.mem_cons_self
        · exact List.mem_append_right _ List.mem_cons_self
  · cases mid with
    | nil => exact (Option.some.inj (List.cons.inj hmid).1).symm
    | cons o mid =>
        obtain ⟨rfl, rfl⟩ := List.cons.inj hmid
        refine absurd (hleft b ?_) (hright' a ?_)
        · exact List.mem_append_right _ List.mem_cons_self
        · exact List.mem_append_right _ List.mem_cons_self

/-- Joining some items one after the other gives the best. -/
theorem foldr_merge_eq_some_iff (hb : Ranking better) {l : List (Option α)} {a : α} :
    l.foldr (Option.merge (pick better)) none = some a ↔ Best better l a := by
  -- first that what the fold picks is best, by induction on the list; the converse is uniqueness
  have hbest : ∀ {l : List (Option α)} {a : α},
      l.foldr (Option.merge (pick better)) none = some a → Best better l a := by
    intro l
    induction l with
    | nil => intro a h; exact nomatch h
    | cons o rest ih =>
        intro a h
        rw [List.foldr_cons, Option.merge_eq_some_iff] at h
        rcases h with ⟨rfl, hnone⟩ | ⟨rfl, hsome⟩ | ⟨b, c, rfl, hsome, hpick⟩
        · refine ⟨[], rest, rfl, nofun, ?_⟩
          intro b hmem
          exact absurd hmem (foldr_merge_eq_none.1 hnone b)
        · obtain ⟨left, right, rfl, hleft, hright⟩ := ih hsome
          refine ⟨none :: left, right, rfl, ?_, hright⟩
          intro b hmem
          rcases List.mem_cons.1 hmem with hmem | hmem
          · exact nomatch hmem
          · exact hleft b hmem
        · -- both the head and the rest give an element, and `pick` keeps the better
          rw [pick] at hpick
          by_cases hbc : better b c = true
          · rw [if_pos hbc] at hpick
            subst hpick
            obtain ⟨left, right, rfl, hleft, hright⟩ := ih hsome
            refine ⟨some b :: left, right, rfl, ?_, hright⟩
            intro x hmem
            rcases List.mem_cons.1 hmem with hmem | hmem
            · cases hmem
              exact hbc
            · exact hleft x hmem
          · -- the head is kept: by cotransitivity nothing in the rest beats it
            rw [if_neg hbc] at hpick
            subst hpick
            refine ⟨[], rest, rfl, nofun, ?_⟩
            intro x hmem hbx
            rcases hb.cotrans c hbx with h | h
            · exact hbc h
            · exact Best.not_better hb (ih hsome) hmem h
  refine ⟨hbest, fun h => ?_⟩
  cases hfold : l.foldr (Option.merge (pick better)) none with
  | none =>
      obtain ⟨left, right, rfl, -⟩ := h
      exact absurd (List.mem_append_right _ List.mem_cons_self) (foldr_merge_eq_none.1 hfold a)
  | some b => rw [(hbest hfold).unique h]

/-- The best of what some things have. -/
theorem best_map_iff {β : Type} {f : β → Option α} {l : List β} {a : α} :
    Best better (l.map f) a ↔ ∃ left x right, l = left ++ x :: right ∧ f x = some a
      ∧ (∀ y ∈ left, ∀ b, f y = some b → better b a = true)
      ∧ ∀ y ∈ right, ∀ b, f y = some b → ¬ better a b = true := by
  constructor
  · rintro ⟨left, right, hl, hleft, hright⟩
    obtain ⟨l₁, l₂, rfl, rfl, hl₂⟩ := List.map_eq_append_iff.1 hl
    obtain ⟨x, l₃, rfl, hx, rfl⟩ := List.map_eq_cons_iff.1 hl₂
    refine ⟨l₁, x, l₃, rfl, hx, ?_, ?_⟩
    · intro y hy b hb
      exact hleft b (hb ▸ List.mem_map_of_mem hy)
    · intro y hy b hb
      exact hright b (hb ▸ List.mem_map_of_mem hy)
  · rintro ⟨left, x, right, rfl, hx, hleft, hright⟩
    refine ⟨left.map f, right.map f, by rw [List.map_append, List.map_cons, hx], ?_, ?_⟩
    · intro b hb
      obtain ⟨y, hy, hyb⟩ := List.mem_map.1 hb
      exact hleft y hy b hyb
    · intro b hb
      obtain ⟨y, hy, hyb⟩ := List.mem_map.1 hb
      exact hright y hy b hyb

end Ranking

/-! ## Finding -/

/-- A key is looked up at the first item or behind it. -/
theorem find?_cons (k : κ) (a : α) (l : List α) :
    find? key k (a :: l) = if key a = k then some a else find? key k l := by
  rw [find?, List.find?_cons]
  by_cases h : key a = k
  · rw [if_pos h, decide_eq_true h]
  · rw [if_neg h, decide_eq_false h]
    rfl

/-- A key is not found if no item has it. -/
theorem find?_eq_none {k : κ} {l : List α} : find? key k l = none ↔ k ∉ l.map key := by
  rw [find?, List.find?_eq_none, List.mem_map]
  constructor
  · rintro h ⟨a, ha, hk⟩
    exact h a ha (decide_eq_true hk)
  · intro h a ha hk
    exact h ⟨a, ha, of_decide_eq_true hk⟩

/-- What is found under a key is in the list and has it. -/
theorem mem_of_find? {k : κ} {a : α} {l : List α} (h : find? key k l = some a) :
    a ∈ l ∧ key a = k := by
  have hk := List.find?_some h
  exact ⟨List.mem_of_find?_eq_some h, of_decide_eq_true hk⟩

/-- In a list without repeated keys an item is found under its key. -/
theorem find?_eq_some_iff {l : List α} (hl : (l.map key).Nodup) {k : κ} {a : α} :
    find? key k l = some a ↔ a ∈ l ∧ key a = k := by
  refine ⟨mem_of_find?, ?_⟩
  rintro ⟨ha, rfl⟩
  induction l with
  | nil => exact nomatch ha
  | cons x rest ih =>
      obtain ⟨hout, hrest⟩ := List.nodup_cons.1 hl
      rw [find?_cons]
      rcases List.mem_cons.1 ha with rfl | ha
      · rw [if_pos rfl]
      · have hne : key x ≠ key a := by
          intro h
          exact hout (h ▸ List.mem_map_of_mem ha)
        rw [if_neg hne, ih hrest ha]

/-- A list without repeated keys is determined by its keys and what is under them. -/
theorem eq_of_find? {l m : List α} (hkeys : l.map key = m.map key) (hl : (l.map key).Nodup)
    (h : ∀ k ∈ l.map key, find? key k l = find? key k m) : l = m := by
  induction l generalizing m with
  | nil => exact (List.map_eq_nil_iff.1 hkeys.symm).symm
  | cons a rest ih =>
      cases m with
      | nil => exact nomatch hkeys
      | cons b rest' =>
          obtain ⟨hab, hkeys⟩ := List.cons.inj hkeys
          obtain ⟨hout, hrest⟩ := List.nodup_cons.1 hl
          have hhead := h (key a) List.mem_cons_self
          rw [find?_cons, find?_cons, if_pos rfl, if_pos hab.symm] at hhead
          rw [Option.some.inj hhead, ih hkeys hrest]
          intro k hk
          have hne : key a ≠ k := by
            rintro rfl
            exact hout hk
          have htail := h k (List.mem_cons_of_mem _ hk)
          rwa [find?_cons, find?_cons, if_neg hne, if_neg (hab ▸ hne)] at htail

/-! ## Putting one item -/

/-- In the place of the item with its key, an item is joined with that one. -/
theorem upsert_eq_set {b old : α} {l : List α} {i : Nat} (hl : (l.map key).Nodup)
    (hi : l[i]? = some old) (hkey : key old = key b) :
    upsert key join b l = l.set i (join old b) := by
  induction l generalizing i with
  | nil => exact nomatch hi
  | cons x rest ih =>
      obtain ⟨hout, hrest⟩ := List.nodup_cons.1 hl
      rw [upsert]
      cases i with
      | zero => rw [Option.some.inj hi, if_pos hkey, List.set_cons_zero]
      | succ i =>
          have hold : old ∈ rest := List.mem_of_getElem? hi
          have hne : key x ≠ key b := by
            intro h
            refine hout ?_
            rw [h, ← hkey]
            exact List.mem_map_of_mem hold
          rw [if_neg hne, List.set_cons_succ, ih hrest hi]

/-- Items with other keys stay in front. -/
theorem upsert_append {b : α} {l : List α} (h : ∀ a ∈ l, key a ≠ key b) (n : List α) :
    upsert key join b (l ++ n) = l ++ upsert key join b n := by
  induction l with
  | nil => rfl
  | cons a rest ih =>
      obtain ⟨ha, hrest⟩ := List.forall_mem_cons.1 h
      rw [List.cons_append, upsert, if_neg ha, ih hrest, List.cons_append]

/-- An item whose key is new comes behind all others. -/
theorem upsert_eq_append {b : α} {l : List α} (h : ∀ a ∈ l, key a ≠ key b) :
    upsert key join b l = l ++ [b] := by
  have hnil : upsert key join b (l ++ []) = l ++ upsert key join b [] := upsert_append h []
  rwa [List.append_nil] at hnil

/-- A union leaves items in front whose keys are not among those put in. -/
theorem union_append {l m : List α} (h : ∀ b ∈ m, ∀ a ∈ l, key a ≠ key b) (n : List α) :
    union key join (l ++ n) m = l ++ union key join n m := by
  induction m generalizing n with
  | nil => rfl
  | cons b rest ih =>
      obtain ⟨hb, hrest⟩ := List.forall_mem_cons.1 h
      have hstep : union key join (l ++ n) (b :: rest)
          = union key join (upsert key join b (l ++ n)) rest := rfl
      rw [hstep, upsert_append hb, ih hrest]
      rfl

/-- Nothing changes if the item that is there wins. -/
theorem upsert_eq_self {a b : α} {l : List α} (h : find? key (key b) l = some a)
    (hjoin : join a b = a) : upsert key join b l = l := by
  induction l with
  | nil => exact nomatch h
  | cons x rest ih =>
      rw [find?_cons] at h
      rw [upsert]
      by_cases hx : key x = key b
      · rw [if_pos hx] at h ⊢
        rw [Option.some.inj h, hjoin]
      · rw [if_neg hx] at h ⊢
        rw [ih h]

/-- Only the join with the item that is there counts. -/
theorem upsert_congr {join' : α → α → α} {b : α} {l : List α}
    (h : ∀ a, find? key (key b) l = some a → join a b = join' a b) :
    upsert key join b l = upsert key join' b l := by
  induction l with
  | nil => rfl
  | cons x rest ih =>
      rw [upsert, upsert]
      by_cases hx : key x = key b
      · have hfound : find? key (key b) (x :: rest) = some x := by rw [find?_cons, if_pos hx]
        rw [if_pos hx, if_pos hx, h x hfound]
      · rw [if_neg hx, if_neg hx, ih]
        intro a ha
        refine h a ?_
        rw [find?_cons, if_neg hx, ha]

/-- Putting items that are there changes nothing, if the join of an item with itself is that
item. -/
theorem union_of_subset [Std.IdempotentOp join] {l m : List α} (hl : (l.map key).Nodup)
    (h : ∀ b ∈ m, b ∈ l) : union key join l m = l := by
  induction m with
  | nil => rfl
  | cons b rest ih =>
      obtain ⟨hb, hrest⟩ := List.forall_mem_cons.1 h
      have hstep : upsert key join b l = l :=
        upsert_eq_self ((find?_eq_some_iff hl).2 ⟨hb, rfl⟩) (Std.IdempotentOp.idempotent b)
      show union key join (upsert key join b l) rest = l
      rw [hstep, ih hrest]

/-! ## Keys and what is under them -/

section
variable (hkey : ∀ a b : α, key a = key b → key (join a b) = key b)
include hkey

/-- The keys behind putting an item. -/
theorem keys_upsert (b : α) (l : List α) :
    (upsert key join b l).map key
      = if key b ∈ l.map key then l.map key else l.map key ++ [key b] := by
  induction l with
  | nil => rfl
  | cons a rest ih =>
      rw [upsert, List.map_cons]
      by_cases h : key a = key b
      · rw [if_pos h, List.map_cons, hkey a b h, if_pos (h ▸ List.mem_cons_self), h]
      · rw [if_neg h, List.map_cons, ih]
        by_cases hmem : key b ∈ rest.map key
        · rw [if_pos hmem, if_pos (List.mem_cons_of_mem _ hmem)]
        · have hout := List.not_mem_cons_of_ne_of_not_mem (Ne.symm h) hmem
          rw [if_neg hmem, if_neg hout, List.cons_append]

/-- Putting an item in repeats no key. -/
theorem nodup_upsert (b : α) {l : List α} (hl : (l.map key).Nodup) :
    ((upsert key join b l).map key).Nodup := by
  rw [keys_upsert hkey]
  split
  · exact hl
  · next h =>
    refine List.nodup_append.2 ⟨hl, List.nodup_singleton _, ?_⟩
    rintro k hk k' hk' rfl
    exact h (List.mem_singleton.1 hk' ▸ hk)

/-- A union repeats no key. -/
theorem nodup_union {l : List α} (hl : (l.map key).Nodup) (m : List α) :
    ((union key join l m).map key).Nodup := by
  induction m generalizing l with
  | nil => exact hl
  | cons b rest ih => exact ih (nodup_upsert hkey b hl)

/-- Under the key of the item is its join with what was there. -/
theorem find?_upsert (k : κ) (b : α) (l : List α) :
    find? key k (upsert key join b l)
      = (find? key k l).merge join (if key b = k then some b else none) := by
  induction l with
  | nil =>
      rw [upsert, find?_cons]
      exact Option.merge_none_left.symm
  | cons a rest ih =>
      rw [upsert, find?_cons]
      by_cases hab : key a = key b
      · rw [if_pos hab, find?_cons, hkey a b hab, hab]
        by_cases hk : key b = k
        · rw [if_pos hk, if_pos hk, if_pos hk, Option.merge_some_some]
        · rw [if_neg hk, if_neg hk, if_neg hk, Option.merge_none_right]
      · rw [if_neg hab, find?_cons]
        by_cases hk : key a = k
        · rw [if_pos hk, if_pos hk, if_neg fun h => hab (hk.trans h.symm),
            Option.merge_none_right]
        · rw [if_neg hk, if_neg hk, ih]

/-- The keys of a union are those of the first list and then the new ones. -/
theorem keys_union (l : List α) {m : List α} (hm : (m.map key).Nodup) :
    (union key join l m).map key = l.map key ++ (m.map key).filter (· ∉ l.map key) := by
  induction m generalizing l with
  | nil => exact (List.append_nil _).symm
  | cons b rest ih =>
      obtain ⟨hout, hrest⟩ := List.nodup_cons.1 hm
      have hstep : union key join l (b :: rest) = union key join (upsert key join b l) rest := rfl
      rw [hstep, ih _ hrest, keys_upsert hkey, List.map_cons, List.filter_cons]
      by_cases hb : key b ∈ l.map key
      · rw [if_pos hb, if_neg fun h => (of_decide_eq_true h : key b ∉ l.map key) hb]
      · rw [if_neg hb, if_pos (decide_eq_true hb), List.append_assoc, List.singleton_append]
        congr 2
        refine List.filter_congr fun k hk => ?_
        -- the key of the item put first is not among those of the rest
        have hne : k ≠ key b := by
          rintro rfl
          exact hout hk
        simp only [List.mem_append, List.mem_singleton, hne, or_false]

/-- Under a key of a union is the join of what the two lists have under it. -/
theorem find?_union (k : κ) (l : List α) {m : List α} (hm : (m.map key).Nodup) :
    find? key k (union key join l m) = (find? key k l).merge join (find? key k m) := by
  induction m generalizing l with
  | nil => exact Option.merge_none_right.symm
  | cons b rest ih =>
      obtain ⟨hout, hrest⟩ := List.nodup_cons.1 hm
      have hstep : union key join l (b :: rest) = union key join (upsert key join b l) rest := rfl
      rw [hstep, ih _ hrest, find?_upsert hkey, find?_cons]
      by_cases hk : key b = k
      · have hrest' : find? key k rest = none := find?_eq_none.2 (hk ▸ hout)
        rw [if_pos hk, if_pos hk, hrest', Option.merge_none_right]
      · rw [if_neg hk, if_neg hk, Option.merge_none_right]

/-- A list is the union of nothing and itself. -/
theorem nil_union {l : List α} (hl : (l.map key).Nodup) : union key join [] l = l := by
  have hkeys : (union key join [] l).map key = l.map key := by
    rw [keys_union hkey [] hl, List.map_nil, List.nil_append]
    exact List.filter_eq_self.2 fun k _ => decide_eq_true List.not_mem_nil
  refine eq_of_find? hkeys (hkeys ▸ hl) ?_
  intro k _
  rw [find?_union hkey k [] hl]
  exact Option.merge_none_left

/-- Unions are associative if joins are. -/
theorem union_assoc [Std.Associative join] {l m n : List α} (hl : (l.map key).Nodup)
    (hm : (m.map key).Nodup) (hn : (n.map key).Nodup) :
    union key join (union key join l m) n = union key join l (union key join m n) := by
  have hmn := nodup_union hkey hm n
  have hkeys : (union key join (union key join l m) n).map key
      = (union key join l (union key join m n)).map key := by
    rw [keys_union hkey _ hn, keys_union hkey l hmn, keys_union hkey l hm, keys_union hkey m hn,
      List.filter_append, List.append_assoc, List.filter_filter]
    congr 2
    refine List.filter_congr fun k _ => ?_
    simp only [List.mem_append, List.mem_filter, decide_not, Bool.decide_or, Bool.decide_and,
      Bool.not_or, Bool.not_and]
    by_cases hkl : k ∈ l.map key <;> simp [hkl]
  refine eq_of_find? hkeys (nodup_union hkey (nodup_union hkey hl m) n) ?_
  intro k _
  rw [find?_union hkey k _ hn, find?_union hkey k l hm, find?_union hkey k l hmn,
    find?_union hkey k m hn]
  exact Std.Associative.assoc _ _ _

/-- Putting items keeps the keys that are there. -/
theorem mem_keys_union_left {k : κ} {l : List α} (hk : k ∈ l.map key) (m : List α) :
    k ∈ (union key join l m).map key := by
  induction m generalizing l with
  | nil => exact hk
  | cons b rest ih =>
      refine ih ?_
      rw [keys_upsert hkey]
      split
      · exact hk
      · exact List.mem_append_left _ hk

/-- The keys of all items that are put are there. -/
theorem mem_keys_union_right {b : α} {m : List α} (hb : b ∈ m) (l : List α) :
    key b ∈ (union key join l m).map key := by
  induction m generalizing l with
  | nil => exact nomatch hb
  | cons c rest ih =>
      rcases List.mem_cons.1 hb with rfl | hb
      · refine mem_keys_union_left hkey (l := upsert key join b l) ?_ rest
        rw [keys_upsert hkey]
        split
        · next h => exact h
        · exact List.mem_append_right _ (List.mem_singleton_self _)
      · exact ih hb _

/-- Items whose keys are there leave the keys. -/
theorem keys_union_of_mem {l m : List α} (h : ∀ b ∈ m, key b ∈ l.map key) :
    (union key join l m).map key = l.map key := by
  induction m generalizing l with
  | nil => rfl
  | cons b rest ih =>
      obtain ⟨hb, hrest⟩ := List.forall_mem_cons.1 h
      have hstep : (upsert key join b l).map key = l.map key := by
        rw [keys_upsert hkey, if_pos hb]
      exact (ih fun c hc => hstep ▸ hrest c hc).trans hstep

end

/-! ## Members -/

/-- A join gives one of the two items. -/
def Picks (join : α → α → α) : Prop := ∀ a b, join a b = a ∨ join a b = b

/-- An item behind a change is the one put in or was there. -/
theorem mem_upsert {join : α → α → α} (hjoin : Picks join) {a b : α} {l : List α}
    (h : a ∈ upsert key join b l) : a = b ∨ a ∈ l := by
  induction l with
  | nil => exact .inl (List.mem_singleton.1 h)
  | cons c rest ih =>
      rw [upsert] at h
      split at h
      · rcases List.mem_cons.1 h with h | h
        · rcases hjoin c b with heq | heq
          · exact .inr (h.trans heq ▸ List.mem_cons_self)
          · exact .inl (h.trans heq)
        · exact .inr (List.mem_cons_of_mem _ h)
      · rcases List.mem_cons.1 h with rfl | h
        · exact .inr List.mem_cons_self
        · exact (ih h).imp_right (List.mem_cons_of_mem _)

/-- An item of a union is one of the first list or of the second. -/
theorem mem_union {join : α → α → α} (hjoin : Picks join) {a : α} {l m : List α}
    (h : a ∈ union key join l m) : a ∈ l ∨ a ∈ m := by
  induction m generalizing l with
  | nil => exact .inl h
  | cons b rest ih =>
      rcases ih (l := upsert key join b l) h with h | h
      · rcases mem_upsert hjoin h with rfl | h
        · exact .inr List.mem_cons_self
        · exact .inl h
      · exact .inr (List.mem_cons_of_mem _ h)

theorem picks_last : Picks (last (α := α)) := fun _ _ => .inr rfl

/-- Items that are kept for their keys are found under these. -/
theorem find?_filter (q : κ → Bool) (k : κ) (l : List α) :
    find? key k (l.filter fun a => q (key a)) = if q k then find? key k l else none := by
  induction l with
  | nil => exact (ite_self none).symm
  | cons a rest ih =>
      rw [List.filter_cons, find?_cons]
      by_cases hk : key a = k
      · rw [if_pos hk, hk]
        cases hq : q k with
        | true => rw [if_pos rfl, find?_cons, if_pos hk, if_pos rfl]
        | false => rw [if_neg Bool.false_ne_true, if_neg Bool.false_ne_true, ih, hq,
            if_neg Bool.false_ne_true]
      · rw [if_neg hk]
        split
        · rw [find?_cons, if_neg hk, ih]
        · exact ih

/-! ## The last item wins -/

theorem key_last {β : Type} (f : α → β) (a b : α) (_ : f a = f b) : f (last a b) = f b := rfl

/-- Under a key is the last item that was put with it, or else what was there. -/
theorem find?_union_last (k : κ) (l m : List α) :
    find? key k (union key last l m) = (find? key k m.reverse).or (find? key k l) := by
  induction m generalizing l with
  | nil => rfl
  | cons b rest ih =>
      have hstep : union key last l (b :: rest) = union key last (upsert key last b l) rest := rfl
      have hreverse : find? key k (b :: rest).reverse
          = (find? key k rest.reverse).or (if key b = k then some b else none) := by
        rw [List.reverse_cons, find?, List.find?_append]
        congr 1
        exact find?_cons k b []
      rw [hstep, ih, find?_upsert (key_last key), hreverse, Option.or_assoc]
      congr 1
      by_cases hk : key b = k
      · rw [if_pos hk]
        cases find? key k l <;> rfl
      · rw [if_neg hk]
        cases find? key k l <;> rfl

/-- Putting the same items again changes nothing. -/
theorem union_last_twice {l : List α} (hl : (l.map key).Nodup) (m : List α) :
    union key last (union key last l m) m = union key last l m := by
  have hkeys := keys_union_of_mem (key_last key) (l := union key last l m) (m := m)
    fun b hb => mem_keys_union_right (key_last key) hb l
  refine eq_of_find? hkeys (hkeys ▸ nodup_union (key_last key) hl m) ?_
  intro k _
  rw [find?_union_last, find?_union_last, ← Option.or_assoc, Option.or_self]

/-- Behind putting items that are determined by their keys there are these and the items with other
keys. -/
theorem mem_union_last_iff {l m : List α} (hl : (l.map key).Nodup)
    (hm : ∀ a ∈ m, ∀ b ∈ m, key a = key b → a = b) {a : α} :
    a ∈ union key last l m ↔ a ∈ m ∨ a ∈ l ∧ key a ∉ m.map key := by
  have hfind : a ∈ union key last l m ↔ find? key (key a) (union key last l m) = some a := by
    rw [find?_eq_some_iff (nodup_union (key_last key) hl m)]
    exact (and_iff_left rfl).symm
  rw [hfind, find?_union_last]
  by_cases hk : key a ∈ m.map key
  · obtain ⟨b, hb, hba⟩ := List.mem_map.1 hk
    obtain ⟨c, hc⟩ : ∃ c, find? key (key a) m.reverse = some c := by
      refine Option.ne_none_iff_exists'.1 fun hnone => find?_eq_none.1 hnone ?_
      rw [List.map_reverse, List.mem_reverse]
      exact hk
    obtain ⟨hmem, hkey⟩ := mem_of_find? hc
    have hmem := List.mem_reverse.1 hmem
    rw [hc, Option.some_or, Option.some.injEq]
    constructor
    · rintro rfl
      exact .inl hmem
    · rintro (ha | ⟨-, hnot⟩)
      · exact hm c hmem a ha hkey
      · exact absurd hk hnot
  · have hnone : find? key (key a) m.reverse = none := by
      rw [find?_eq_none, List.map_reverse, List.mem_reverse]
      exact hk
    rw [hnone, Option.none_or, find?_eq_some_iff hl, and_iff_left rfl, and_iff_left hk]
    exact (or_iff_right fun h => hk (List.mem_map_of_mem h)).symm

/-! ## Items each once -/

section
variable {β : Type} [BEq β] [LawfulBEq β]

/-- Without repetitions an item counts at the end of a list if it is not in front. -/
theorem eraseDups_append_singleton (l : List β) (b : β) : (l ++ [b]).eraseDups
    = if b ∈ l then l.eraseDups else l.eraseDups ++ [b] := by
  rw [List.eraseDups_append]
  by_cases h : b ∈ l
  · rw [if_pos h]
    simp [List.removeAll, h]
  · rw [if_neg h]
    have hnew : [b].removeAll l = [b] := by simp [List.removeAll, h]
    rw [hnew]
    rfl

/-- A list without repetitions has none. -/
theorem nodup_eraseDups (l : List β) : l.eraseDups.Nodup := by
  induction l using List.reverseRecOn with
  | nil => exact List.nodup_nil
  | append_singleton l b ih =>
      rw [eraseDups_append_singleton]
      split
      · exact ih
      · next h =>
        refine List.nodup_append.2 ⟨ih, List.nodup_singleton b, fun a ha c hc heq => h ?_⟩
        rw [← List.mem_singleton.1 hc, ← heq]
        exact List.mem_eraseDups.1 ha

/-- Nothing is left out of a list that repeats nothing. -/
theorem eraseDups_of_nodup {l : List β} (h : l.Nodup) : l.eraseDups = l := by
  induction l using List.reverseRecOn with
  | nil => rfl
  | append_singleton l b ih =>
      obtain ⟨hl, -, hnew⟩ := List.nodup_append.1 h
      have hb : b ∉ l := fun hmem => hnew b hmem b (List.mem_singleton_self b) rfl
      rw [eraseDups_append_singleton, if_neg hb, ih hl]

/-- Repeats may be left out before or after items that do not count. -/
theorem eraseDups_filter (p : β → Bool) (l : List β) :
    (l.filter p).eraseDups = l.eraseDups.filter p := by
  induction l using List.reverseRecOn with
  | nil => rfl
  | append_singleton l b ih =>
      rw [List.filter_append, eraseDups_append_singleton]
      cases hp : p b with
      | false =>
          have hout : [b].filter p = [] := by rw [List.filter_singleton, hp]; rfl
          rw [hout, List.append_nil, ih]
          split
          · rfl
          · rw [List.filter_append, hout, List.append_nil]
      | true =>
          have hin : [b].filter p = [b] := by rw [List.filter_singleton, hp]; rfl
          have hmem : b ∈ l.filter p ↔ b ∈ l := by
            rw [List.mem_filter, hp]
            exact and_iff_left rfl
          rw [hin, eraseDups_append_singleton, ih]
          by_cases hb : b ∈ l
          · rw [if_pos (hmem.2 hb), if_pos hb]
          · rw [if_neg fun h => hb (hmem.1 h), if_neg hb, List.filter_append, hin]

end

/-- What is found under some keys, put one after the other, is what is found under each key once. -/
theorem nil_union_filterMap {get : κ → Option α} (hget : ∀ {k a}, get k = some a → key a = k)
    (ks : List κ) : union key last [] (ks.filterMap get) = ks.eraseDups.filterMap get := by
  -- the last key is found at a key that was there before, at a new one, or not at all
  induction ks using List.reverseRecOn with
  | nil => rfl
  | append_singleton ks k ih =>
      have hsplit : union key last [] ((ks ++ [k]).filterMap get)
          = union key last (union key last [] (ks.filterMap get)) ([k].filterMap get) := by
        rw [List.filterMap_append, union, List.foldl_append]
        rfl
      rw [hsplit, ih, eraseDups_append_singleton]
      cases hk : get k with
      | none =>
          have hnone : [k].filterMap get = [] := List.filterMap_cons_none hk
          rw [hnone]
          split
          · rfl
          · rw [List.filterMap_append, hnone, List.append_nil]
            rfl
      | some a =>
          have hsome : [k].filterMap get = [a] := List.filterMap_cons_some hk
          have hkeys : ∀ b ∈ ks.eraseDups.filterMap get, get (key b) = some b := by
            intro b hb
            obtain ⟨k', -, hb⟩ := List.mem_filterMap.1 hb
            rw [hget hb]
            exact hb
          rw [hsome]
          show upsert key last a (ks.eraseDups.filterMap get) = _
          by_cases hmem : k ∈ ks
          · -- what is found again is what is there
            have ha : a ∈ ks.eraseDups.filterMap get :=
              List.mem_filterMap.2 ⟨k, List.mem_eraseDups.2 hmem, hk⟩
            rw [if_pos hmem]
            cases hfind : find? key (key a) (ks.eraseDups.filterMap get) with
            | none => exact absurd (List.mem_map_of_mem ha) (find?_eq_none.1 hfind)
            | some b =>
                obtain ⟨hb, hkey⟩ := mem_of_find? hfind
                have hab : a = b := by
                  have hb := hkeys b hb
                  rw [hkey, hget hk, hk] at hb
                  exact Option.some.inj hb
                exact upsert_eq_self hfind hab
          · -- a new key is not among the keys of what was found, so it goes to the end
            rw [if_neg hmem, List.filterMap_append, hsome]
            refine upsert_eq_append fun b hb heq => hmem ?_
            obtain ⟨k', hk', hb⟩ := List.mem_filterMap.1 hb
            rw [← hget hk, ← heq, hget hb]
            exact List.mem_eraseDups.1 hk'

/-! ## The first item wins -/

/-- The join in which the item that is there wins. -/
def first (a _b : α) : α := a

theorem key_first {β : Type} (f : α → β) (a b : α) (h : f a = f b) : f (first a b) = f b := h

/-- An item comes behind all others if its key is new, and else nowhere. -/
theorem upsert_first (key : α → κ) (b : α) (l : List α) :
    upsert key first b l = if key b ∈ l.map key then l else l ++ [b] := by
  induction l with
  | nil => rfl
  | cons a rest ih =>
      rw [upsert]
      by_cases h : key a = key b
      · rw [if_pos h, if_pos (h ▸ List.mem_cons_self), first]
      · rw [if_neg h, ih, List.map_cons]
        by_cases hmem : key b ∈ rest.map key
        · rw [if_pos hmem, if_pos (List.mem_cons_of_mem _ hmem)]
        · have hout := List.not_mem_cons_of_ne_of_not_mem (Ne.symm h) hmem
          rw [if_neg hmem, if_neg hout, List.cons_append]

/-- The items that are there stay in front. -/
theorem prefix_union_first (key : α → κ) (l m : List α) : l <+: union key first l m := by
  induction m generalizing l with
  | nil => exact List.prefix_rfl
  | cons b rest ih =>
      refine List.IsPrefix.trans ?_ (ih (upsert key first b l))
      rw [upsert_first]
      split
      · exact List.prefix_rfl
      · exact List.prefix_append l [b]

/-- Adding the items with new keys is associative, whatever keys are repeated. -/
theorem union_first_assoc (key : α → κ) (l m n : List α) :
    union key first (union key first l m) n = union key first l (union key first m n) := by
  induction n generalizing m with
  | nil => rfl
  | cons b rest ih =>
      -- an item is new to the second list or to none of the two
      have hstep : upsert key first b (union key first l m)
          = union key first l (upsert key first b m) := by
        by_cases hb : key b ∈ m.map key
        · obtain ⟨c, hc, hcb⟩ := List.mem_map.1 hb
          have hboth := mem_keys_union_right (key_first key) hc l
          rw [upsert_first, upsert_first, if_pos hb, if_pos (hcb ▸ hboth)]
        · rw [upsert_first key b m, if_neg hb, union, union, List.foldl_append]
          rfl
      calc union key first (union key first l m) (b :: rest)
          = union key first (upsert key first b (union key first l m)) rest := rfl
        _ = union key first (union key first l (upsert key first b m)) rest := by rw [hstep]
        _ = union key first l (union key first (upsert key first b m) rest) := ih _

/-- A change of the items that leaves their keys may come before or after. -/
theorem map_union_first {f : α → α} (key : α → κ) (hf : ∀ a, key (f a) = key a) (l m : List α) :
    (union key first l m).map f = union key first (l.map f) (m.map f) := by
  have hkeys : ∀ l : List α, (l.map f).map key = l.map key := by
    intro l
    rw [List.map_map]
    exact List.map_congr_left fun a _ => hf a
  induction m generalizing l with
  | nil => rfl
  | cons b rest ih =>
      have hstep : (upsert key first b l).map f = upsert key first (f b) (l.map f) := by
        rw [upsert_first, upsert_first, hf, hkeys]
        split
        · rfl
        · rw [List.map_append, List.map_singleton]
      exact (ih _).trans (congrArg (fun l => union key first l (rest.map f)) hstep)

/-! ## Sorting -/

section
variable {β : Type} {f : α → β} {lt : β → β → Prop} {le : α → α → Bool}
  (hle : ∀ a b, le a b = true ↔ lt (f a) (f b) ∨ f a = f b)
  (htrans : ∀ {x y z}, lt x y → lt y z → lt x z) (htotal : ∀ x y, lt x y ∨ x = y ∨ lt y x)
include hle htrans htotal

/-- Sorting puts keys in ascending order. -/
theorem pairwise_mergeSort (l : List α) :
    (l.mergeSort le).Pairwise fun a b => lt (f a) (f b) ∨ f a = f b := by
  have hsorted : (l.mergeSort le).Pairwise fun a b => le a b = true := by
    refine List.pairwise_mergeSort ?_ ?_ l
    · intro a b c hab hbc
      rw [hle] at hab hbc ⊢
      rcases hab with hab | hab
      · rcases hbc with hbc | hbc
        · exact .inl (htrans hab hbc)
        · exact .inl (hbc ▸ hab)
      · rw [hab]
        exact hbc
    · intro a b
      rw [Bool.or_eq_true, hle, hle]
      rcases htotal (f a) (f b) with hab | hab | hab
      · exact .inl (.inl hab)
      · exact .inl (.inr hab)
      · exact .inr (.inl hab)
  exact hsorted.imp fun {a b} => (hle a b).1

/-- Sorting by keys that are not repeated puts them in strictly ascending order. -/
theorem pairwise_mergeSort_of_nodup {l : List α} (h : (l.map f).Nodup) :
    (l.mergeSort le).Pairwise fun a b => lt (f a) (f b) := by
  have hne : (l.mergeSort le).Pairwise fun a b => f a ≠ f b := by
    refine List.pairwise_map.1 ?_
    exact (List.Perm.map f (List.mergeSort_perm l le)).nodup_iff.2 h
  exact ((pairwise_mergeSort hle htrans htotal l).and hne).imp fun {a b} hab =>
    hab.1.resolve_right hab.2

end

/-- A text is not less than another if the other is less or the same. -/
theorem not_text_lt_iff (s t : String) : (!(t < s)) = true ↔ s < t ∨ s = t := by
  rw [Bool.not_eq_true', decide_eq_false_iff_not]
  constructor
  · intro hts
    exact (Std.lt_trichotomy s t).imp_right fun h => h.resolve_right hts
  · rintro (hst | rfl) hts
    · exact String.lt_irrefl _ (String.lt_trans hst hts)
    · exact String.lt_irrefl _ hts

/-- Sorting puts texts in ascending order. -/
theorem pairwise_mergeSort_le (f : α → String) (l : List α) :
    (l.mergeSort fun a b => !(f b < f a)).Pairwise fun a b => f a ≤ f b := by
  refine (pairwise_mergeSort (fun a b => not_text_lt_iff (f a) (f b)) String.lt_trans
    (fun s t => Std.lt_trichotomy s t) l).imp fun {a b} hab => String.not_lt.1 ?_
  have hle := (not_text_lt_iff (f a) (f b)).2 hab
  simpa using hle

/-- Sorting by texts that are not repeated puts them in strictly ascending order. -/
theorem pairwise_mergeSort_lt {f : α → String} {l : List α} (h : (l.map f).Nodup) :
    (l.mergeSort fun a b => !(f b < f a)).Pairwise fun a b => f a < f b :=
  pairwise_mergeSort_of_nodup (fun a b => not_text_lt_iff (f a) (f b)) String.lt_trans
    (fun s t => Std.lt_trichotomy s t) h

end CodeAtlas.Keyed
