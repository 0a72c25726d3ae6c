import CodeAtlas.Proofs.Graph.Querying
import Mathlib.Data.List.Chain

/-!
# Paths

The paths that are found between two entities are the sequences of ids that relations connect, that
are short enough and that have no id twice: all of them, each once. The search walks over places and
may meet a step several times, once for every relation that takes it.
-/

namespace CodeAtlas.Graph

variable {g : Graph}

/-! ## Simple paths -/

/-- A path over one to `most` steps from one point to another, without a point that comes twice. -/
structure SimplePath {α : Type} (step : α → α → Prop) (source target : α) (most : Nat)
    (path : List α) : Prop where
  first : path.head? = some source
  last : path.getLast? = some target
  nodup : path.Nodup
  steps : path.IsChain step
  one_lt_length : 1 < path.length
  length_le : path.length ≤ most + 1

namespace SimplePath

variable {α β : Type} {step : α → α → Prop} {s t : α} {most : Nat} {path : List α}

/-- A path of one point and more is that of the point, which no later one is, and of a way on. -/
theorem cons_iff {a b : α} {l : List α} : SimplePath step s t most (a :: b :: l)
    ↔ a = s ∧ (b :: l).getLast? = some t ∧ (a :: b :: l).Nodup ∧ (a :: b :: l).IsChain step
      ∧ (b :: l).length ≤ most := by
  constructor
  · intro h
    exact ⟨Option.some.inj h.first, h.last, h.nodup, h.steps, Nat.le_of_succ_le_succ h.length_le⟩
  · rintro ⟨rfl, hlast, hnodup, hsteps, hlength⟩
    exact ⟨rfl, hlast, hnodup, hsteps, Nat.succ_lt_succ (Nat.succ_pos _),
      Nat.succ_le_succ hlength⟩

/-- The ends of a path are different. -/
theorem source_ne_target (h : SimplePath step s t most path) : s ≠ t := by
  match path, h with
  | a :: b :: l, h =>
      obtain ⟨rfl, hlast, hnodup, -⟩ := cons_iff.1 h
      rintro rfl
      exact (List.nodup_cons.1 hnodup).1 (List.mem_of_getLast? hlast)
  | [a], h => exact absurd h.one_lt_length (Nat.lt_irrefl 1)
  | [], h => exact absurd h.one_lt_length (Nat.not_lt_zero 1)

/-- A path has a step. -/
theorem most_pos (h : SimplePath step s t most path) : 0 < most :=
  Nat.lt_of_succ_lt_succ (Nat.lt_of_lt_of_le h.one_lt_length h.length_le)

/-- Every point of a path is at an end of a step. -/
theorem exists_step (h : SimplePath step s t most path) {a : α} (ha : a ∈ path) :
    ∃ b, step a b ∨ step b a := by
  obtain ⟨i, hi, rfl⟩ := List.mem_iff_getElem.1 ha
  have hsteps := List.isChain_iff_getElem.1 h.steps
  by_cases hnext : i + 1 < path.length
  · exact ⟨path[i + 1], .inl (hsteps i hnext)⟩
  · -- the last point has one in front of it
    have hlength := h.one_lt_length
    obtain ⟨k, rfl⟩ : ∃ k, i = k + 1 := Nat.exists_eq_add_one.2 (by omega)
    exact ⟨path[k], .inr (hsteps k hi)⟩

/-- A path goes over into one between other points, if its points stay apart and its steps are
steps. -/
theorem map (h : SimplePath step s t most path) {step' : β → β → Prop} {f : α → β}
    (hinj : ∀ a ∈ path, ∀ b ∈ path, f a = f b → a = b)
    (hstep : ∀ a ∈ path, ∀ b ∈ path, step a b → step' (f a) (f b)) :
    SimplePath step' (f s) (f t) most (path.map f) where
  first := by rw [List.head?_map, h.first, Option.map_some]
  last := by rw [List.getLast?_map, h.last, Option.map_some]
  nodup := List.Nodup.map_on hinj h.nodup
  steps := (List.isChain_map f).2
    (h.steps.imp_of_mem_imp fun a b ha hb hab => hstep a ha b hb hab)
  one_lt_length := by
    rw [List.length_map]
    exact h.one_lt_length
  length_le := by
    rw [List.length_map]
    exact h.length_le

end SimplePath

/-! ## The search -/

/-- Whether an edge leads from one place to another. -/
def Adjacent (g : Graph) (i k : Nat) : Prop := k ∈ g.neighbours i none .outgoing

/-- Whether a path continues the one that `back` is in reverse and ends at the target, at most `n`
steps further on and without a place that comes twice. -/
def Continues (g : Graph) (target n i : Nat) (back path : List Nat) : Prop :=
  ∃ on, path = (i :: back).reverse ++ on ∧ on.length ≤ n ∧ on.getLast? = some target
    ∧ (i :: on).IsChain g.Adjacent ∧ path.Nodup

section

variable {target n i : Nat} {back path : List Nat}

/-- No path goes on without a step left. -/
theorem not_continues_zero : ¬ g.Continues target 0 i back path := by
  rintro ⟨on, -, hlength, hlast, -⟩
  rw [List.length_eq_zero_iff.1 (Nat.le_zero.1 hlength)] at hlast
  cases hlast

/-- The first step on goes to the target, and that is all, or to some other new place. -/
theorem continues_succ_iff (hback : (i :: back).Nodup) (htarget : target ∉ i :: back) :
    g.Continues target (n + 1) i back path ↔ ∃ k, g.Adjacent i k
      ∧ (k = target ∧ path = (k :: i :: back).reverse
        ∨ k ≠ target ∧ k ∉ i :: back ∧ g.Continues target n k (i :: back) path) := by
  have hreverse : ∀ (k : Nat) (on : List Nat),
      (i :: back).reverse ++ k :: on = (k :: i :: back).reverse ++ on := by
    intro k on
    rw [List.reverse_cons (a := k), List.append_assoc]
    rfl
  constructor
  · rintro ⟨on, hpath, hlength, hlast, hsteps, hnodup⟩
    cases on with
    | nil => cases hlast
    | cons k on =>
        obtain ⟨hk, hsteps⟩ := List.isChain_cons_cons.1 hsteps
        rw [hreverse] at hpath
        have hparts := List.nodup_append.1 (hpath ▸ hnodup)
        refine ⟨k, hk, ?_⟩
        by_cases hkt : k = target
        · cases on with
          | nil => exact .inl ⟨hkt, hpath.trans (List.append_nil _)⟩
          | cons l on =>
              -- the target would come a second time, at the end
              have hlater : k ∈ l :: on := hkt ▸ List.mem_of_getLast? hlast
              exact absurd rfl
                (hparts.2.2 k (List.mem_reverse.2 List.mem_cons_self) k hlater)
        · refine .inr ⟨hkt, (List.nodup_cons.1 (List.nodup_reverse.1 hparts.1)).1, on, hpath,
            Nat.le_of_succ_le_succ hlength, ?_, hsteps, hnodup⟩
          cases on with
          | nil => exact absurd (Option.some.inj hlast) hkt
          | cons l on => exact hlast
  · rintro ⟨k, hk, ⟨rfl, rfl⟩ | ⟨-, -, on, hpath, hlength, hlast, hsteps, hnodup⟩⟩
    · refine ⟨[k], (hreverse k []).symm ▸ (List.append_nil _).symm,
        Nat.succ_le_succ (Nat.zero_le n), rfl, .cons_cons hk (.singleton k), ?_⟩
      exact List.nodup_reverse.2 (List.nodup_cons.2 ⟨htarget, hback⟩)
    · refine ⟨k :: on, hpath.trans (hreverse k on).symm, Nat.succ_le_succ hlength, ?_,
        .cons_cons hk hsteps, hnodup⟩
      rw [List.getLast?_cons, hlast]
      rfl

/-- A path goes on to an adjacent place, which is its end, or is new and from where it goes on. -/
theorem mem_pathsFrom_succ : path ∈ g.pathsFrom target (n + 1) (i :: back) ↔ ∃ k, g.Adjacent i k
    ∧ (k = target ∧ path = (k :: i :: back).reverse
      ∨ k ≠ target ∧ k ∉ i :: back ∧ path ∈ g.pathsFrom target n (k :: i :: back)) := by
  rw [pathsFrom, List.mem_flatMap]
  refine exists_congr fun k => and_congr_right fun _ => ?_
  by_cases hkt : k = target
  · simp [hkt]
  · by_cases hk : k ∈ i :: back
    · rw [if_neg (by simpa using hkt), if_pos (by simpa using hk)]
      simp [hkt, hk]
    · rw [if_neg (by simpa using hkt), if_neg (by simpa using hk)]
      simp [hkt, hk]

end

/-- The search continues a path without repeated places in all ways that lead to the target. -/
theorem mem_pathsFrom_iff {target n i : Nat} {back path : List Nat} (hback : (i :: back).Nodup)
    (htarget : target ∉ i :: back) :
    path ∈ g.pathsFrom target n (i :: back) ↔ g.Continues target n i back path := by
  induction n generalizing i back with
  | zero => exact iff_of_false List.not_mem_nil not_continues_zero
  | succ n ih =>
      rw [mem_pathsFrom_succ, continues_succ_iff hback htarget]
      refine exists_congr fun k => and_congr_right fun _ => or_congr_right ?_
      refine and_congr_right fun hkt => and_congr_right fun hk => ?_
      refine ih (List.nodup_cons.2 ⟨hk, hback⟩) ?_
      rw [List.mem_cons, not_or]
      exact ⟨Ne.symm hkt, htarget⟩

/-- The search from one place to another one finds the paths between them. -/
theorem mem_pathsFrom_singleton {i k n : Nat} {path : List Nat} (h : i ≠ k) :
    path ∈ g.pathsFrom k n [i] ↔ SimplePath g.Adjacent i k n path := by
  rw [mem_pathsFrom_iff (List.nodup_singleton i) fun hk => h (List.mem_singleton.1 hk).symm]
  constructor
  · rintro ⟨on, rfl, hlength, hlast, hsteps, hnodup⟩
    cases on with
    | nil => cases hlast
    | cons l on => exact SimplePath.cons_iff.2 ⟨rfl, hlast, hnodup, hsteps, hlength⟩
  · intro hpath
    match path, hpath with
    | a :: b :: l, hpath =>
        obtain ⟨rfl, hlast, hnodup, hsteps, hlength⟩ := SimplePath.cons_iff.1 hpath
        exact ⟨b :: l, rfl, hlength, hlast, hsteps, hnodup⟩
    | [a], hpath => exact absurd hpath.one_lt_length (Nat.lt_irrefl 1)
    | [], hpath => exact absurd hpath.one_lt_length (Nat.not_lt_zero 1)

/-! ## Places and ids -/

/-- The id in a place. -/
def idAt (g : Graph) (i : Nat) : String := (g.nodes[i]?.map Entity.id).getD ""

/-- The place of an id. -/
def placeOf (g : Graph) (id : String) : Nat := (g.place? id).getD 0

/-- The place of an entity that is there is its place. -/
theorem placeOf_of_place {s : String} {i : Nat} (h : g.place? s = some i) : g.placeOf s = i := by
  rw [placeOf, h]
  rfl

/-- An id that a graph contains has a place. -/
theorem place_placeOf {id : String} (h : g.contains id = true) :
    g.place? id = some (g.placeOf id) := by
  obtain ⟨i, hi⟩ := Option.isSome_iff_exists.1 h
  rw [placeOf_of_place hi, hi]

namespace Coherent

/-- At the place of an id stands this id. -/
theorem idAt_of_place (hg : g.Coherent) {s : String} {i : Nat} (h : g.place? s = some i) :
    g.nodes[i]?.map Entity.id = some s ∧ g.idAt i = s := by
  obtain ⟨e, he, rfl⟩ := hg.place_iff.1 h
  rw [idAt, he]
  exact ⟨rfl, rfl⟩

/-- The id at a place has this place. -/
theorem place_idAt (hg : g.Coherent) {i : Nat} (h : i < g.nodes.size) :
    g.place? (g.idAt i) = some i := by
  refine hg.place_iff.2 ⟨g.nodes[i], Array.getElem?_eq_getElem h, ?_⟩
  rw [idAt, Array.getElem?_eq_getElem h]
  rfl

theorem placeOf_idAt (hg : g.Coherent) {i : Nat} (h : i < g.nodes.size) :
    g.placeOf (g.idAt i) = i := placeOf_of_place (hg.place_idAt h)

theorem idAt_placeOf (hg : g.Coherent) {id : String} (h : g.contains id = true) :
    g.idAt (g.placeOf id) = id := (hg.idAt_of_place (place_placeOf h)).2

/-- Neighbours are places of entities. -/
theorem lt_size_of_adjacent (hg : g.Coherent) {i k : Nat} (h : g.Adjacent i k) :
    i < g.nodes.size ∧ k < g.nodes.size := by
  obtain ⟨x, hx, rfl⟩ := List.mem_map.1 h
  have hleaving := List.mem_filter.1 (List.mem_reverse.1 (List.mem_filter.1 hx).1)
  obtain rfl := beq_iff_eq.1 hleaving.2
  exact hg.ends x hleaving.1

/-- Places are neighbours exactly if some relation leads from the id in one to that in the other. -/
theorem adjacent_iff_leads (hg : g.Coherent) {s t : String} {i k : Nat} (hs : g.place? s = some i)
    (ht : g.place? t = some k) : g.Adjacent i k ↔ g.Leads none s t :=
  hg.mem_neighbours_iff hs ht

section

variable {i k most : Nat} {s t : String}

/-- The places of a path are places of nodes. -/
theorem lt_size_of_mem (hg : g.Coherent) {places : List Nat}
    (h : SimplePath g.Adjacent i k most places) {a : Nat} (ha : a ∈ places) : a < g.nodes.size := by
  obtain ⟨b, hab | hba⟩ := h.exists_step ha
  · exact (hg.lt_size_of_adjacent hab).1
  · exact (hg.lt_size_of_adjacent hba).2

/-- The graph contains the ids of a path. -/
theorem contains_of_mem (hg : g.Coherent) {ids : List String}
    (h : SimplePath (g.Leads none) s t most ids) {a : String} (ha : a ∈ ids) :
    g.contains a = true := by
  obtain ⟨b, hab | hba⟩ := h.exists_step ha
  · exact (hg.contains_of_leads hab).1
  · exact (hg.contains_of_leads hba).2

/-- A path over places passes no more of them than there are. -/
theorem length_le_size (hg : g.Coherent) {places : List Nat}
    (h : SimplePath g.Adjacent i k most places) : places.length ≤ g.nodes.size := by
  have hsubset : places ⊆ List.range g.nodes.size :=
    fun a ha => List.mem_range.2 (hg.lt_size_of_mem h ha)
  have hlength := (List.subperm_of_subset h.nodup hsubset).length_le
  rwa [List.length_range] at hlength

/-- The ids of a path over places are one over relations. -/
theorem simplePath_map_idAt (hg : g.Coherent) {places : List Nat}
    (h : SimplePath g.Adjacent i k most places) :
    SimplePath (g.Leads none) (g.idAt i) (g.idAt k) most (places.map g.idAt) := by
  have hplace : ∀ {a}, a ∈ places → g.place? (g.idAt a) = some a :=
    fun ha => hg.place_idAt (hg.lt_size_of_mem h ha)
  refine h.map ?_ ?_
  · intro a ha b hb hab
    exact Option.some.inj ((hplace ha).symm.trans (hab ▸ hplace hb))
  · intro a ha b hb hab
    exact (hg.adjacent_iff_leads (hplace ha) (hplace hb)).1 hab

/-- The places of a path over relations are one over places. -/
theorem simplePath_map_placeOf (hg : g.Coherent) {ids : List String}
    (h : SimplePath (g.Leads none) s t most ids) :
    SimplePath g.Adjacent (g.placeOf s) (g.placeOf t) most (ids.map g.placeOf) := by
  have hplace : ∀ {a}, a ∈ ids → g.place? a = some (g.placeOf a) :=
    fun ha => place_placeOf (hg.contains_of_mem h ha)
  refine h.map ?_ ?_
  · intro a ha b hb hab
    exact hg.id_unique (hplace ha) (hab ▸ hplace hb)
  · intro a ha b hb hab
    exact (hg.adjacent_iff_leads (hplace ha) (hplace hb)).2 hab

/-- All places of a path have ids. -/
theorem filterMap_id (hg : g.Coherent) {places : List Nat}
    (h : SimplePath g.Adjacent i k most places) :
    (places.filterMap fun i => g.nodes[i]?.map Entity.id) = places.map g.idAt := by
  rw [← List.filterMap_eq_map]
  refine List.filterMap_congr fun a ha => ?_
  exact (hg.idAt_of_place (hg.place_idAt (hg.lt_size_of_mem h ha))).1

/-- The places of the ids at the places of a path are these places. -/
theorem map_placeOf_map_idAt (hg : g.Coherent) {places : List Nat}
    (h : SimplePath g.Adjacent i k most places) : (places.map g.idAt).map g.placeOf = places := by
  rw [List.map_map]
  refine (List.map_congr_left fun a ha => ?_).trans (List.map_id places)
  exact hg.placeOf_idAt (hg.lt_size_of_mem h ha)

/-- The ids at the places of the ids of a path are these ids. -/
theorem map_idAt_map_placeOf (hg : g.Coherent) {ids : List String}
    (h : SimplePath (g.Leads none) s t most ids) : (ids.map g.placeOf).map g.idAt = ids := by
  rw [List.map_map]
  refine (List.map_congr_left fun a ha => ?_).trans (List.map_id ids)
  exact hg.idAt_placeOf (hg.contains_of_mem h ha)

end

end Coherent

/-! ## Paths between entities -/

/-- Whether a path comes in front of another: a shorter one, or one of the same length by its
ids. -/
def PathBefore (p q : List String) : Prop :=
  p.length < q.length ∨ p.length = q.length ∧ p < q

/-- The order of paths is transitive. -/
theorem pathBefore_trans {p q r : List String} (hpq : PathBefore p q) (hqr : PathBefore q r) :
    PathBefore p r := by
  rw [PathBefore] at hpq hqr ⊢
  rcases hpq with hpq | ⟨hlength, hpq⟩
  · rcases hqr with hqr | ⟨hlength, -⟩
    · exact .inl (Nat.lt_trans hpq hqr)
    · exact .inl (hlength ▸ hpq)
  · rw [hlength]
    exact hqr.imp_right fun ⟨hlength, hqr⟩ => ⟨hlength, List.lt_trans hpq hqr⟩

/-- A path is not before itself. -/
theorem pathBefore_ne {p q : List String} (h : PathBefore p q) : p ≠ q := by
  rintro rfl
  rcases h with h | ⟨-, h⟩
  · exact Nat.lt_irrefl _ h
  · exact List.lt_irrefl p h

/-- Of two paths one is before the other, or they are the same. -/
theorem pathBefore_total (p q : List String) : PathBefore p q ∨ p = q ∨ PathBefore q p := by
  rcases Nat.lt_trichotomy p.length q.length with h | h | h
  · exact .inl (.inl h)
  · rcases Std.lt_trichotomy p q with hpq | hpq | hpq
    · exact .inl (.inr ⟨h, hpq⟩)
    · exact .inr (.inl hpq)
    · exact .inr (.inr (.inr ⟨h.symm, hpq⟩))
  · exact .inr (.inr (.inl h))

/-- The check of the order says that a path is before another or the same. -/
theorem pathNotAfter_iff (p q : List String) :
    pathNotAfter p q = true ↔ PathBefore p q ∨ p = q := by
  rw [pathNotAfter, PathBefore]
  by_cases h : p.length = q.length
  · rw [if_neg (fun hne => (bne_iff_ne.1 hne) h), Bool.not_eq_true', decide_eq_false_iff_not]
    constructor
    · intro hqp
      rcases Std.lt_trichotomy p q with hpq | hpq | hpq
      · exact .inl (.inr ⟨h, hpq⟩)
      · exact .inr hpq
      · exact absurd hpq hqp
    · rintro (hpq | rfl) hqp
      · exact pathBefore_ne (pathBefore_trans hpq (.inr ⟨h.symm, hqp⟩)) rfl
      · exact List.lt_irrefl p hqp
  · rw [if_pos (bne_iff_ne.2 h), decide_eq_true_iff]
    constructor
    · exact fun hlength => .inl (.inl hlength)
    · rintro ((hlength | ⟨hlength, -⟩) | rfl)
      · exact hlength
      · exact absurd hlength h
      · exact absurd rfl h

namespace Coherent

variable {s t : String} {most : Nat}

/-- What is found between two entities is a path between them, and all paths are found. -/
theorem mem_paths_iff (hg : g.Coherent) {path : List String} :
    path ∈ g.paths s t most ↔ SimplePath (g.Leads none) s t most path := by
  have hends : SimplePath (g.Leads none) s t most path →
      g.place? s = some (g.placeOf s) ∧ g.place? t = some (g.placeOf t) := by
    intro h
    exact ⟨place_placeOf (hg.contains_of_mem h (List.mem_of_head? h.first)),
      place_placeOf (hg.contains_of_mem h (List.mem_of_getLast? h.last))⟩
  rw [paths]
  split
  · next i k hi hk =>
    split
    · -- a path has two ends, so none leads from a place to itself
      next hik =>
      refine iff_of_false List.not_mem_nil fun h => h.source_ne_target ?_
      exact hg.id_unique hi (beq_iff_eq.1 hik ▸ hk)
    · next hik =>
      have hik : i ≠ k := fun h => hik (beq_iff_eq.2 h)
      simp only [List.mem_mergeSort, List.mem_map, List.mem_eraseDups, mem_pathsFrom_singleton hik]
      constructor
      · rintro ⟨places, h, rfl⟩
        rw [hg.filterMap_id h, ← (hg.idAt_of_place hi).2, ← (hg.idAt_of_place hk).2]
        have hpath := hg.simplePath_map_idAt h
        exact { hpath with
          length_le := hpath.length_le.trans (Nat.succ_le_succ (Nat.min_le_left _ _)) }
      · intro h
        have hplaces := hg.simplePath_map_placeOf h
        rw [placeOf_of_place hi, placeOf_of_place hk] at hplaces
        refine ⟨path.map g.placeOf, { hplaces with length_le := ?_ }, ?_⟩
        · -- no path passes more places than there are, so the smaller bound loses none
          have hsize := hg.length_le_size hplaces
          have hmost := hplaces.length_le
          omega
        · rw [hg.filterMap_id hplaces]
          exact hg.map_idAt_map_placeOf h
  · -- one of the ends is unknown, so no path leads through it
    next hnone =>
    refine iff_of_false List.not_mem_nil fun h => ?_
    exact hnone _ _ (hends h).1 (hends h).2

/-- Paths are found in order, each once. -/
theorem pairwise_paths (hg : g.Coherent) : (g.paths s t most).Pairwise PathBefore := by
  rw [paths]
  split
  · next i k hi hk =>
    split
    · exact List.Pairwise.nil
    · next hik =>
      have hik : i ≠ k := fun h => hik (beq_iff_eq.2 h)
      refine Keyed.pairwise_mergeSort_of_nodup (f := id) pathNotAfter_iff pathBefore_trans
        pathBefore_total ?_
      rw [List.map_id]
      refine List.Nodup.map_on ?_ (Keyed.nodup_eraseDups _)
      intro p hp q hq hpq
      have hp := (mem_pathsFrom_singleton hik).1 (List.mem_eraseDups.1 hp)
      have hq := (mem_pathsFrom_singleton hik).1 (List.mem_eraseDups.1 hq)
      -- the ids on a path give back its places
      rw [hg.filterMap_id hp, hg.filterMap_id hq] at hpq
      rw [← hg.map_placeOf_map_idAt hp, hpq, hg.map_placeOf_map_idAt hq]
  · exact List.Pairwise.nil

end Coherent

/-- The paths between two ids over at most `most` relations are exactly the sequences of ids from
the one to the other in which some relation leads from every id to the next one, no id comes twice,
and there are one to `most` steps. They come in order, the shorter ones first and those of one
length by their ids, and so each once. There are none if an id is that of no entity, if the ids are
the same one or if no step is allowed. -/
theorem Reachable.paths_exact {g : Graph} (h : Reachable g) (s t : String) (most : Nat) :
    (∀ path, path ∈ g.paths s t most ↔ SimplePath (g.Leads none) s t most path)
    ∧ (g.paths s t most).Pairwise PathBefore
    ∧ (g.contains s = false ∨ g.contains t = false ∨ s = t ∨ most = 0 →
        g.paths s t most = []) := by
  have hg := h.coherent
  refine ⟨fun path => hg.mem_paths_iff, hg.pairwise_paths, ?_⟩
  intro hnone
  refine List.eq_nil_iff_forall_not_mem.2 fun path hmem => ?_
  have hpath := hg.mem_paths_iff.1 hmem
  rcases hnone with hs | ht | rfl | rfl
  · have := hg.contains_of_mem hpath (List.mem_of_head? hpath.first)
    exact Bool.false_ne_true (hs.symm.trans this)
  · have := hg.contains_of_mem hpath (List.mem_of_getLast? hpath.last)
    exact Bool.false_ne_true (ht.symm.trans this)
  · exact hpath.source_ne_target rfl
  · exact Nat.lt_irrefl 0 hpath.most_pos

/-- Two relations with the same ends and one from an entity to itself: the way over them is found
once, and only if it may be as long as it is. -/
theorem paths_exact_parallel :
    let service := fun id => Entity.new ⟨0, 0⟩ id id (.service {})
    let g := ofLists [service "a", service "b", service "c"]
      [⟨"a", "a", .uses, []⟩, ⟨"a", "b", .calls, []⟩, ⟨"a", "b", .uses, []⟩, ⟨"b", "c", .uses, []⟩]
    (g.paths "a" "c" 2).count ["a", "b", "c"] = 1
      ∧ ["a", "b", "c"] ∉ g.paths "a" "c" 1
      ∧ g.paths "a" "a" 2 = [] := by
  intro service g
  have hg : Reachable g := .ofLists _ _
  have hleads : ∀ {s t : String} {type : RelationType}, g.hasRelation s t type = true →
      g.Leads none s t := by
    intro s t type h
    obtain ⟨r, hr, -, hs, ht⟩ := hg.coherent.leads_iff_hasRelation.2 h
    exact ⟨r, hr, rfl, hs, ht⟩
  have hab : g.hasRelation "a" "b" .uses = true := by decide
  have hbc : g.hasRelation "b" "c" .uses = true := by decide
  obtain ⟨hmem, hordered, -⟩ := hg.paths_exact "a" "c" 2
  refine ⟨?_, ?_, (hg.paths_exact "a" "a" 2).2.2 (.inr (.inr (.inl rfl)))⟩
  · have hnodup : (g.paths "a" "c" 2).Nodup := hordered.imp pathBefore_ne
    refine List.count_eq_one_of_mem hnodup ((hmem _).2 ?_)
    exact {
      first := rfl
      last := rfl
      nodup := by decide
      steps := .cons_cons (hleads hab) (.cons_cons (hleads hbc) (.singleton "c"))
      one_lt_length := by decide
      length_le := by decide }
  · intro h
    exact absurd (((hg.paths_exact "a" "c" 1).1 _).1 h).length_le (by decide)

end CodeAtlas.Graph
