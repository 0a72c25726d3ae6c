import CodeAtlas.Proofs.Pattern.Running
import CodeAtlas.Proofs.Unicode.CharSet
import CodeAtlas.Pattern.Basic

/-!
# The ways in which a pattern matches

The ways in which a pattern matches at a place are listed in the order in which they are preferred:
where each ends, and what it saves. A way of a pattern that cannot be empty takes a character, and
each begins with a character that the pattern says it can begin with.
-/

namespace CodeAtlas.Pattern

open Unicode (CharSet)

/-! ## Ways -/

/-- A way to match: where it ends, and the places that it saves. -/
abbrev Way := Place × Saves

/-- Each way, and behind it the ways to go on. -/
def andThen (ways : List Way) (more : Place → List Way) : List Way :=
  ways.flatMap fun (q, s) => (more q).map fun (e, t) => (e, t ++ s)

/-- As many times as said. -/
def exactly (ways : Place → List Way) : (n : Nat) → Place → List Way
  | 0, p => [(p, [])]
  | n + 1, p => andThen (exactly ways n p) ways

/-- At most as many times as said. -/
def rounds (greedy : Bool) (ways : Place → List Way) : (n : Nat) → Place → List Way
  | 0, p => [(p, [])]
  | n + 1, p =>
      let more := andThen (ways p) (rounds greedy ways n)
      if greedy then more ++ [(p, [])] else (p, []) :: more

/-- The way to match a text. -/
def textWays : List Char → Place → List Way
  | [], p => [(p, [])]
  | d :: cs, p =>
      match p.rest with
      | [] => []
      | c :: rest => if c == d then textWays cs (p.next c rest) else []

mutual

/-- The ways in which a pattern matches at a place. -/
def Node.ways : Node → Place → List Way
  | .empty, p => [(p, [])]
  | .text cs, p => textWays cs p
  | .one set _, p =>
      match p.rest with
      | [] => []
      | c :: rest => if set.contains c then [(p.next c rest, [])] else []
  | .look l, p => if l.holds p.offset p.before p.rest then [(p, [])] else []
  | .repeated least most? greedy a, p =>
      andThen (exactly a.ways least p) fun q =>
        rounds greedy a.ways (match most? with | some most => most - least | none => q.rest.length)
          q
  | .group i _ a, p =>
      (a.ways p).map fun (q, s) => (q, (2 * i + 1, q.offset) :: (s ++ [(2 * i, p.offset)]))
  | .row items, p => rowWays items p
  | .choice items, p => choiceWays items p

/-- The ways of patterns in a row. -/
def rowWays : List Node → Place → List Way
  | [], p => [(p, [])]
  | a :: as, p => andThen (a.ways p) (rowWays as)

/-- The ways of any of several patterns. -/
def choiceWays : List Node → Place → List Way
  | [], _ => []
  | a :: as, p => a.ways p ++ choiceWays as p

end

theorem andThen_nil (more : Place → List Way) : andThen [] more = [] := rfl

/-- What goes on behind a list of ways goes on behind the first one and behind the others. -/
theorem andThen_cons (v : Way) (ways : List Way) (more : Place → List Way) :
    andThen (v :: ways) more = (more v.1).map (fun (e, t) => (e, t ++ v.2)) ++ andThen ways more :=
  rfl

/-- What goes on behind two lists of ways goes on behind the one and behind the other. -/
theorem andThen_append (a b : List Way) (more : Place → List Way) :
    andThen (a ++ b) more = andThen a more ++ andThen b more := List.flatMap_append

/-- A way that goes on is one of the first part and one of the second. -/
theorem mem_andThen {ways : List Way} {more : Place → List Way} {v : Way} :
    v ∈ andThen ways more ↔ ∃ w ∈ ways, ∃ u ∈ more w.1, v = (u.1, u.2 ++ w.2) := by
  rw [andThen, List.mem_flatMap]
  constructor
  · rintro ⟨w, hw, hv⟩
    obtain ⟨u, hu, rfl⟩ := List.mem_map.1 hv
    exact ⟨w, hw, u, hu, rfl⟩
  · rintro ⟨w, hw, u, hu, rfl⟩
    exact ⟨w, hw, List.mem_map.2 ⟨u, hu, rfl⟩⟩

/-- Going on behind the way that stays is going on. -/
theorem andThen_singleton (p : Place) (more : Place → List Way) :
    andThen [(p, [])] more = more p := by
  simp [andThen]

/-- Ways behind which nothing goes on are these ways. -/
theorem andThen_done (ways : List Way) : andThen ways (fun q => [(q, [])]) = ways := by
  simp [andThen]

/-- What goes on counts only where the ways lead. -/
theorem andThen_congr {ways : List Way} {more more' : Place → List Way}
    (h : ∀ v ∈ ways, more v.1 = more' v.1) : andThen ways more = andThen ways more' := by
  induction ways with
  | nil => rfl
  | cons v ways ih =>
      obtain ⟨hv, hrest⟩ := List.forall_mem_cons.1 h
      rw [andThen_cons, andThen_cons, hv, ih hrest]

/-- Ways go on one behind the other in any grouping. -/
theorem andThen_assoc (ways : List Way) (w w' : Place → List Way) :
    andThen (andThen ways w) w' = andThen ways fun q => andThen (w q) w' := by
  induction ways with
  | nil => rfl
  | cons v ways ih =>
      rw [andThen_cons, andThen_append, ih, andThen_cons]
      congr 1
      simp [andThen, List.flatMap_map, List.map_flatMap, Function.comp_def]

/-- A way of a choice is one of a branch. -/
theorem mem_choiceWays {as : List Node} {p : Place} {v : Way} (h : v ∈ choiceWays as p) :
    ∃ a ∈ as, v ∈ a.ways p := by
  induction as with
  | nil => cases h
  | cons a as ih =>
      rcases List.mem_append.1 h with h | h
      · exact ⟨a, List.mem_cons_self, h⟩
      · obtain ⟨b, hb, hv⟩ := ih h
        exact ⟨b, List.mem_cons_of_mem _ hb, hv⟩

/-! ## Rounds -/

section
variable {ways : Place → List Way}

/-- The ways take characters. -/
def Takes (ways : Place → List Way) : Prop := ∀ p, ∀ v ∈ ways p, v.1.rest.length < p.rest.length

/-- A part that takes characters has no way at the end of a text. -/
theorem Takes.eq_nil (hways : Takes ways) {p : Place} (h : p.rest.length ≤ 0) : ways p = [] := by
  refine List.eq_nil_iff_forall_not_mem.2 fun v hv => ?_
  have := hways p v hv
  omega

/-- More rounds than there are characters make no difference. -/
theorem rounds_congr (hways : Takes ways) (greedy : Bool) {n m : Nat} {p : Place}
    (hn : p.rest.length ≤ n) (hm : p.rest.length ≤ m) :
    rounds greedy ways n p = rounds greedy ways m p := by
  induction n generalizing m p with
  | zero =>
      cases m with
      | zero => rfl
      | succ m =>
          rw [rounds, rounds, hways.eq_nil hn, andThen_nil]
          cases greedy <;> rfl
  | succ n ih =>
      cases m with
      | zero =>
          rw [rounds, rounds, hways.eq_nil hm, andThen_nil]
          cases greedy <;> rfl
      | succ m =>
          have hmore : andThen (ways p) (rounds greedy ways n)
              = andThen (ways p) (rounds greedy ways m) := by
            refine andThen_congr fun v hv => ?_
            have := hways p v hv
            exact ih (by omega) (by omega)
          rw [rounds, rounds, hmore]

/-- As many rounds as there are characters. -/
def loop (greedy : Bool) (ways : Place → List Way) (p : Place) : List Way :=
  rounds greedy ways p.rest.length p

/-- A loop is one round with the loop behind it, and staying, in the order of preference. -/
theorem loop_eq (hways : Takes ways) (greedy : Bool) (p : Place) : loop greedy ways p =
    if greedy then andThen (ways p) (loop greedy ways) ++ [(p, [])]
    else [(p, [])] ++ andThen (ways p) (loop greedy ways) := by
  have hrounds : loop greedy ways p = rounds greedy ways (p.rest.length + 1) p :=
    rounds_congr hways greedy (Nat.le_refl _) (Nat.le_succ _)
  have hmore : andThen (ways p) (rounds greedy ways p.rest.length)
      = andThen (ways p) (loop greedy ways) := by
    refine andThen_congr fun v hv => ?_
    exact rounds_congr hways greedy (Nat.le_of_lt (hways p v hv)) (Nat.le_refl _)
  rw [hrounds, rounds, hmore]
  rfl

end

/-! ## Where a way can begin -/

mutual

/-- Sets of characters are regular, and what is repeated without a bound is not empty. -/
def Node.Steady : Node → Prop
  | .empty | .text _ | .look _ => True
  | .one set _ => set.Regular
  | .repeated _ most? _ a => a.Steady ∧ (most? = none → a.nullable = false)
  | .group _ _ a => a.Steady
  | .row as | .choice as => AllSteady as

/-- Several patterns are steady. -/
def AllSteady : List Node → Prop
  | [] => True
  | a :: as => a.Steady ∧ AllSteady as

end

mutual

/-- The first characters of a steady node are a regular set. -/
theorem Node.regular_firsts : (a : Node) → a.Steady → a.firsts.Regular
  | .empty, _ | .look _, _ | .text [], _ => CharSet.regular_empty
  | .text (c :: _), _ => CharSet.regular_single c
  | .one _ _, h => h
  | .repeated _ _ _ a, h => a.regular_firsts h.1
  | .group _ _ a, h => a.regular_firsts h
  | .row as, h => regular_rowFirsts as h CharSet.regular_empty
  | .choice as, h => regular_choiceFirsts as h CharSet.regular_empty

/-- The first characters of a steady row are a regular set. -/
theorem regular_rowFirsts : (as : List Node) → AllSteady as → {found : CharSet} → found.Regular →
    (Node.rowFirsts found as).Regular
  | [], _, _, hfound => hfound
  | a :: as, h, found, hfound => by
      have hunion := (CharSet.regular_union hfound (a.regular_firsts h.1)).1
      rw [Node.rowFirsts]
      split
      · exact regular_rowFirsts as h.2 hunion
      · exact hunion

/-- The first characters of a steady choice are a regular set. -/
theorem regular_choiceFirsts : (as : List Node) → AllSteady as → {found : CharSet} → found.Regular →
    (Node.choiceFirsts found as).Regular
  | [], _, _, hfound => hfound
  | a :: as, h, _, hfound =>
      regular_choiceFirsts as h.2 (CharSet.regular_union hfound (a.regular_firsts h.1)).1

end

/-- The place `q` stands behind `p`, in front of which a character of the set stands. -/
structure Begins (set : CharSet) (p q : Place) : Prop where
  shorter : q.rest.length < p.rest.length
  head : ∃ c rest, p.rest = c :: rest ∧ set.contains c = true

/-- What begins with a character of a set begins with one of a larger set. -/
theorem Begins.mono {set set' : CharSet} (h : ∀ c, set.contains c = true → set'.contains c = true)
    {p q : Place} (hb : Begins set p q) : Begins set' p q := by
  obtain ⟨hshorter, c, rest, hrest, hc⟩ := hb
  exact ⟨hshorter, c, rest, hrest, h c hc⟩

/-- A way ends where it starts, if `nullable`, or begins with a character of the set. -/
def Opens (nullable : Bool) (set : CharSet) (ways : Place → List Way) : Prop :=
  ∀ p, ∀ v ∈ ways p, (v.1 = p ∧ nullable = true) ∨ Begins set p v.1

section
variable {nullable : Bool} {set : CharSet} {ways : Place → List Way}

/-- A part never puts characters in. -/
theorem Opens.length_le (h : Opens nullable set ways) {p : Place} {v : Way} (hv : v ∈ ways p) :
    v.1.rest.length ≤ p.rest.length := by
  obtain ⟨heq, -⟩ | hb := h p v hv
  · exact Nat.le_of_eq (by rw [heq])
  · exact Nat.le_of_lt hb.shorter

/-- A part that cannot be empty takes characters. -/
theorem Opens.takes (h : Opens false set ways) : Takes ways := by
  intro p v hv
  obtain ⟨-, hfalse⟩ | hb := h p v hv
  · cases hfalse
  · exact hb.shorter

/-- A part opens with the characters of a larger set too. -/
theorem Opens.mono {set' : CharSet} (h : Opens nullable set ways)
    (hset : ∀ c, set.contains c = true → set'.contains c = true) : Opens nullable set' ways :=
  fun p v hv => (h p v hv).imp_right (·.mono hset)

/-- The way that stays opens with any set, for it may be empty. -/
theorem opens_done : Opens true set fun p => [(p, [])] := by
  intro p v hv
  rw [List.mem_singleton.1 hv]
  exact .inl ⟨rfl, rfl⟩

/-- Behind a way that ends where it starts the next one begins. -/
theorem Opens.andThen {nullable' : Bool} {set' : CharSet} {ways' : Place → List Way}
    (h : Opens nullable set ways) (h' : Opens nullable' set' ways')
    (hset : nullable = true → ∀ c, set'.contains c = true → set.contains c = true) :
    Opens (nullable && nullable') set fun p => andThen (ways p) ways' := by
  intro p v hv
  obtain ⟨w, hw, u, hu, rfl⟩ := mem_andThen.1 hv
  have hle := h'.length_le hu
  obtain ⟨heq, hnull⟩ | hb := h p w hw
  · rw [heq] at hu
    refine (h' p u hu).imp (fun ⟨heq', hnull'⟩ => ⟨heq', ?_⟩) (·.mono (hset hnull))
    rw [hnull, hnull']
    rfl
  · exact .inr ⟨Nat.lt_of_le_of_lt hle hb.shorter, hb.head⟩

/-- Several rounds of a part open as the part does. -/
theorem opens_exactly (h : Opens nullable set ways) (n : Nat) :
    Opens (n == 0 || nullable) set (exactly ways n) := by
  induction n with
  | zero => exact opens_done
  | succ n ih =>
      intro p v hv
      refine (ih.andThen h (fun _ _ hc => hc) p v hv).imp_left fun ⟨heq, hnull⟩ => ⟨heq, ?_⟩
      exact Bool.or_eq_true_iff.2 (.inr (Bool.and_eq_true_iff.1 hnull).2)

/-- Up to several rounds of a part open as the part does, or are empty. -/
theorem opens_rounds (h : Opens nullable set ways) (greedy : Bool) (n : Nat) :
    Opens true set (rounds greedy ways n) := by
  induction n with
  | zero => exact opens_done
  | succ n ih =>
      have hmore : Opens true set fun p => andThen (ways p) (rounds greedy ways n) := fun p v hv =>
        (h.andThen ih (fun _ _ hc => hc) p v hv).imp_left fun ⟨heq, _⟩ => ⟨heq, rfl⟩
      intro p v hv
      have hcases : v ∈ andThen (ways p) (rounds greedy ways n) ∨ v ∈ [(p, [])] := by
        rw [rounds] at hv
        cases greedy with
        | true => exact List.mem_append.1 hv
        | false => exact (List.mem_cons.1 hv).symm.imp_right List.mem_singleton.2
      obtain hv | hv := hcases
      · exact hmore p v hv
      · exact opens_done p v hv

end

/-- A text never puts characters in. -/
theorem length_le_of_textWays {cs : List Char} {p : Place} {v : Way} (hv : v ∈ textWays cs p) :
    v.1.rest.length ≤ p.rest.length := by
  induction cs generalizing p with
  | nil => exact Nat.le_of_eq (by rw [List.mem_singleton.1 hv])
  | cons d cs ih =>
      rw [textWays] at hv
      split at hv
      · cases hv
      · next c rest hrest =>
        split at hv
        · have : v.1.rest.length ≤ rest.length := ih hv
          rw [hrest, List.length_cons]
          exact Nat.le_succ_of_le this
        · cases hv

/-- A union has what the first set has. -/
theorem contains_union_left {s t : CharSet} (hs : s.Regular) (ht : t.Regular) {c : Char}
    (hc : s.contains c = true) : (s.union t).contains c = true := by
  rw [CharSet.contains_union hs ht, hc]
  rfl

/-- A union has what the second set has. -/
theorem contains_union_right {s t : CharSet} (hs : s.Regular) (ht : t.Regular) {c : Char}
    (hc : t.contains c = true) : (s.union t).contains c = true := by
  rw [CharSet.contains_union hs ht, hc, Bool.or_true]

/-- The first characters of a row have those found before. -/
theorem contains_rowFirsts {as : List Node} (h : AllSteady as) {found : CharSet}
    (hfound : found.Regular) {c : Char} (hc : found.contains c = true) :
    (Node.rowFirsts found as).contains c = true := by
  induction as generalizing found with
  | nil => exact hc
  | cons a as ih =>
      have hfirsts := a.regular_firsts h.1
      have hunion := contains_union_left hfound hfirsts hc
      rw [Node.rowFirsts]
      split
      · exact ih h.2 (CharSet.regular_union hfound hfirsts).1 hunion
      · exact hunion

/-- The first characters of a choice have those found before. -/
theorem contains_choiceFirsts {as : List Node} (h : AllSteady as) {found : CharSet}
    (hfound : found.Regular) {c : Char} (hc : found.contains c = true) :
    (Node.choiceFirsts found as).contains c = true := by
  induction as generalizing found with
  | nil => exact hc
  | cons a as ih =>
      have hfirsts := a.regular_firsts h.1
      exact ih h.2 (CharSet.regular_union hfound hfirsts).1 (contains_union_left hfound hfirsts hc)

mutual

/-- A pattern that cannot be empty takes a character, and no way begins with another one than those
of the pattern. -/
theorem Node.opens : (a : Node) → a.Steady → Opens a.nullable a.firsts a.ways
  | .empty, _ => opens_done
  | .look l, _ => by
      intro p v hv
      rw [Node.ways] at hv
      split at hv
      · exact opens_done p v hv
      · cases hv
  | .text [], _ => opens_done
  | .text (d :: cs), _ => by
      intro p v hv
      rw [Node.ways, textWays] at hv
      split at hv
      · cases hv
      · next c rest hrest =>
        split at hv
        · next hd =>
          refine .inr ⟨?_, c, rest, hrest, ?_⟩
          · have : v.1.rest.length ≤ rest.length := length_le_of_textWays hv
            rw [hrest, List.length_cons]
            exact Nat.lt_succ_of_le this
          · rw [Node.firsts, CharSet.contains_single, beq_iff_eq.1 hd, beq_self_eq_true]
        · cases hv
  | .one set bytes, _ => by
      intro p v hv
      rw [Node.ways] at hv
      split at hv
      · cases hv
      · next c rest hrest =>
        split at hv
        · next hc =>
          rw [List.mem_singleton.1 hv]
          exact .inr ⟨by rw [hrest]; exact Nat.lt_succ_self _, c, rest, hrest, hc⟩
        · cases hv
  | .repeated least most? greedy a, h => by
      have ha := a.opens h.1
      intro p v hv
      rw [Node.ways] at hv
      obtain ⟨w, hw, u, hu, rfl⟩ := mem_andThen.1 hv
      -- the rounds that must be and those that may be, one behind the other
      have hleast := opens_exactly ha least p w hw
      have hmore := opens_rounds ha greedy _ w.1 u hu
      obtain ⟨heq, hnull⟩ | hb := hleast
      · rw [heq] at hmore
        exact hmore.imp_left fun ⟨heq', _⟩ => ⟨heq', hnull⟩
      · have hle := (opens_rounds ha greedy _).length_le hu
        exact .inr ⟨Nat.lt_of_le_of_lt hle hb.shorter, hb.head⟩
  | .group i _ a, h => by
      intro p v hv
      rw [Node.ways] at hv
      obtain ⟨w, hw, rfl⟩ := List.mem_map.1 hv
      exact a.opens h p w hw
  | .row as, h => opens_row as h CharSet.regular_empty
  | .choice as, h => opens_choice as h CharSet.regular_empty

/-- A row opens with its first characters. -/
theorem opens_row : (as : List Node) → AllSteady as → {found : CharSet} → found.Regular →
    Opens (Node.allNullable as) (Node.rowFirsts found as) (rowWays as)
  | [], _, _, _ => opens_done
  | a :: as, h, found, hfound => by
      have hfirsts := a.regular_firsts h.1
      have hregular := (CharSet.regular_union hfound hfirsts).1
      have hset : ∀ c, a.firsts.contains c = true →
          (Node.rowFirsts found (a :: as)).contains c = true := by
        intro c hc
        have hunion := contains_union_right hfound hfirsts hc
        rw [Node.rowFirsts]
        split
        · exact contains_rowFirsts h.2 hregular hunion
        · exact hunion
      have ha := (a.opens h.1).mono hset
      refine ha.andThen (opens_row as h.2 hregular) fun hnull c hc => ?_
      rw [Node.rowFirsts, if_pos hnull]
      exact hc

/-- A choice opens with the first characters of its branches. -/
theorem opens_choice : (as : List Node) → AllSteady as → {found : CharSet} → found.Regular →
    Opens (Node.anyNullable as) (Node.choiceFirsts found as) (choiceWays as)
  | [], _, _, _ => nofun
  | a :: as, h, found, hfound => by
      have hfirsts := a.regular_firsts h.1
      have hregular := (CharSet.regular_union hfound hfirsts).1
      intro p v hv
      rw [choiceWays] at hv
      rcases List.mem_append.1 hv with hv | hv
      · have hset := fun c hc =>
          contains_choiceFirsts h.2 hregular (contains_union_right hfound hfirsts (c := c) hc)
        refine ((a.opens h.1).mono hset p v hv).imp_left fun ⟨heq, hnull⟩ => ⟨heq, ?_⟩
        exact Bool.or_eq_true_iff.2 (.inl hnull)
      · refine (opens_choice as h.2 hregular p v hv).imp_left fun ⟨heq, hnull⟩ => ⟨heq, ?_⟩
        exact Bool.or_eq_true_iff.2 (.inr hnull)

end

/-! ## Along a text -/

/-- The place behind the characters that come next. -/
def Place.behind (p : Place) (cs : List Char) : Place :=
  cs.foldl (fun q c => q.next c (q.rest.drop 1)) p

@[simp] theorem Place.behind_nil (p : Place) : p.behind [] = p := rfl

/-- Going behind a text is going character by character. -/
theorem Place.behind_cons (p : Place) (c : Char) (cs : List Char) :
    p.behind (c :: cs) = (p.behind [c]).behind cs := rfl

/-- Going behind two texts is going behind the one and then behind the other. -/
theorem Place.behind_append (p : Place) (a b : List Char) :
    p.behind (a ++ b) = (p.behind a).behind b :=
  List.foldl_append

/-- The next place is the one behind the first character. -/
theorem Place.next_eq {p : Place} {c : Char} {rest : List Char} (h : p.rest = c :: rest) :
    p.next c rest = p.behind [c] := by
  rw [behind, List.foldl_cons, h]
  rfl

/-- Behind a text stands the rest. -/
theorem Place.rest_behind {p : Place} {a b : List Char} (h : p.rest = a ++ b) :
    (p.behind a).rest = b := by
  induction a generalizing p with
  | nil => exact h
  | cons c a ih =>
      rw [behind_cons]
      refine ih ?_
      show p.rest.drop 1 = a ++ b
      rw [h]
      rfl

/-- Going behind a text moves the offset by its bytes. -/
theorem Place.offset_behind (p : Place) (cs : List Char) :
    (p.behind cs).offset = p.offset + Text.byteLength cs := by
  induction cs generalizing p with
  | nil => rfl
  | cons c cs ih =>
      rw [behind_cons, ih, Text.byteLength_cons, ← Nat.add_assoc]
      rfl

/-- One of the characters of a set comes next. -/
theorem ways_one {set : CharSet} {bytes : Bool} {p : Place} {c : Char} {rest : List Char}
    (h : p.rest = c :: rest) :
    (Node.one set bytes).ways p = if set.contains c then [(p.behind [c], [])] else [] := by
  rw [Node.ways, h]
  dsimp only
  rw [Place.next_eq h]

/-- At the end of a text no character is read. -/
theorem ways_one_nil {set : CharSet} {bytes : Bool} {p : Place} (h : p.rest = []) :
    (Node.one set bytes).ways p = [] := by
  rw [Node.ways, h]

/-- A set takes one character. -/
theorem takes_one (set : CharSet) (bytes : Bool) : Takes (Node.one set bytes).ways := by
  intro p v hv
  cases hrest : p.rest with
  | nil =>
      rw [ways_one_nil hrest] at hv
      cases hv
  | cons c rest =>
      rw [ways_one hrest] at hv
      split at hv
      · obtain rfl := List.mem_singleton.1 hv
        rw [Place.rest_behind (a := [c]) hrest]
        exact Nat.lt_succ_self _
      · cases hv

/-- A text is read where it stands, in one way. -/
theorem ways_text {cs : List Char} {p : Place} {rest : List Char} (h : p.rest = cs ++ rest) :
    (Node.text cs).ways p = [(p.behind cs, [])] := by
  rw [Node.ways]
  induction cs generalizing p with
  | nil => rfl
  | cons c cs ih =>
      rw [textWays, h]
      dsimp only [List.cons_append]
      rw [if_pos (beq_self_eq_true c), @Place.next_eq p c (cs ++ rest) h, Place.behind_cons]
      exact ih (Place.rest_behind (a := [c]) h)

/-- Whatever a text reads stands there. -/
theorem mem_ways_text {cs : List Char} {p : Place} {v : Way} (h : v ∈ (Node.text cs).ways p) :
    p.rest = cs ++ v.1.rest := by
  rw [Node.ways] at h
  induction cs generalizing p with
  | nil =>
      rw [List.mem_singleton.1 h]
      rfl
  | cons d cs ih =>
      rw [textWays] at h
      split at h
      · cases h
      · next c rest hrest =>
        split at h
        · next hc =>
          rw [hrest, beq_iff_eq.1 hc, List.cons_append]
          exact congrArg _ (ih h)
        · cases h

/-- Any number of characters of a set, as many or as few as possible. -/
def Node.star (greedy : Bool) (set : CharSet) : Node := .repeated 0 none greedy (.one set false)

/-- Any number of characters of a set are read by a loop. -/
theorem Node.ways_star (greedy : Bool) (set : CharSet) :
    (Node.star greedy set).ways = loop greedy (Node.one set false).ways := by
  funext p
  exact andThen_singleton p _

/-- A loop over a set is one character with the loop behind it, and staying, in the order of
preference. -/
theorem loop_one {greedy : Bool} {set : CharSet} {p : Place} :
    loop greedy (Node.one set false).ways p =
    if greedy then andThen ((Node.one set false).ways p) (loop greedy (Node.one set false).ways)
      ++ [(p, [])]
    else (p, []) :: andThen ((Node.one set false).ways p)
      (loop greedy (Node.one set false).ways) := by
  rw [loop_eq (takes_one set false)]
  rfl

/-- A way takes characters of the set. -/
theorem mem_ways_star {greedy : Bool} {set : CharSet} {p : Place} {v : Way}
    (h : v ∈ (Node.star greedy set).ways p) :
    ∃ cs, p.rest = cs ++ v.1.rest ∧ (∀ c ∈ cs, set.contains c = true) ∧ v = (p.behind cs, []) := by
  rw [Node.ways_star] at h
  induction hlength : p.rest.length using Nat.strongRecOn generalizing p v with
  | ind n ih =>
      -- either no round at all, or one character and what follows it
      have hcases : v = (p, []) ∨
          v ∈ andThen ((Node.one set false).ways p) (loop greedy (Node.one set false).ways) := by
        rw [loop_one] at h
        cases greedy with
        | true => exact (List.mem_append.1 h).symm.imp_left List.mem_singleton.1
        | false => exact List.mem_cons.1 h
      rcases hcases with rfl | hmore
      · exact ⟨[], rfl, nofun, rfl⟩
      · obtain ⟨w, hw, u, hu, rfl⟩ := mem_andThen.1 hmore
        cases hrest : p.rest with
        | nil =>
            rw [ways_one_nil hrest] at hw
            cases hw
        | cons c rest =>
            have hlt := takes_one set false p w hw
            rw [ways_one hrest] at hw
            split at hw
            · next hc =>
              obtain rfl := List.mem_singleton.1 hw
              obtain ⟨cs, hcs, hset, heq⟩ := ih _ (hlength ▸ hlt) hu rfl
              rw [Place.rest_behind (a := [c]) hrest] at hcs
              refine ⟨c :: cs, by rw [hcs]; rfl, List.forall_mem_cons.2 ⟨hc, hset⟩, ?_⟩
              rw [heq]
              rfl
            · cases hw

/-- The longest way goes up to the first character that is not in the set. -/
theorem head_ways_star {set : CharSet} {p : Place} {cs rest : List Char} (h : p.rest = cs ++ rest)
    (hcs : ∀ c ∈ cs, set.contains c = true)
    (hrest : ∀ c, rest.head? = some c → set.contains c = false) :
    ((Node.star true set).ways p).head? = some (p.behind cs, []) := by
  rw [Node.ways_star]
  induction cs generalizing p with
  | nil =>
      have hnil : (Node.one set false).ways p = [] := by
        cases rest with
        | nil => exact ways_one_nil h
        | cons c rest =>
            rw [ways_one h, hrest c rfl]
            rfl
      rw [loop_one, hnil]
      rfl
  | cons c cs ih =>
      obtain ⟨hc, hcs⟩ := List.forall_mem_cons.1 hcs
      have hone : (Node.one set false).ways p = [(p.behind [c], [])] := by
        rw [ways_one h, if_pos hc]
      have hmore := ih (Place.rest_behind (a := [c]) h) hcs
      rw [loop_one, hone, andThen_singleton, if_pos rfl, List.head?_append, hmore]
      rfl

/-- The ways of a lazy repetition start with those that stop earlier. -/
theorem ways_lazy {set : CharSet} {p : Place} {cs rest : List Char} (h : p.rest = cs ++ rest)
    (hcs : ∀ c ∈ cs, set.contains c = true) : ∃ before after,
      (Node.star false set).ways p = before ++ (p.behind cs, []) :: after ∧
      ∀ v ∈ before, ∃ a b, cs = a ++ b ∧ b ≠ [] ∧ v = (p.behind a, []) := by
  rw [Node.ways_star]
  induction cs generalizing p with
  | nil =>
      rw [loop_one]
      exact ⟨[], _, rfl, nofun⟩
  | cons c cs ih =>
      obtain ⟨hc, hcs⟩ := List.forall_mem_cons.1 hcs
      have hone : (Node.one set false).ways p = [(p.behind [c], [])] := by
        rw [ways_one h, if_pos hc]
      obtain ⟨before, after, hways, hbefore⟩ := ih (Place.rest_behind (a := [c]) h) hcs
      refine ⟨(p, []) :: before, after, ?_,
        List.forall_mem_cons.2 ⟨⟨[], c :: cs, rfl, nofun, rfl⟩, ?_⟩⟩
      · rw [loop_one, hone, andThen_singleton, hways]
        rfl
      · intro v hv
        obtain ⟨a, b, rfl, hb, rfl⟩ := hbefore v hv
        exact ⟨c :: a, b, rfl, hb, rfl⟩

/-- One or more characters of a set, as many or as few as possible. -/
def Node.plus (greedy : Bool) (set : CharSet) : Node := .repeated 1 none greedy (.one set false)

/-- One or more characters of a set are one of them and any number behind it. -/
theorem Node.ways_plus (greedy : Bool) (set : CharSet) (p : Place) :
    (Node.plus greedy set).ways p
      = andThen ((Node.one set false).ways p) (Node.star greedy set).ways := by
  have hone : exactly (Node.one set false).ways 1 p = (Node.one set false).ways p :=
    andThen_singleton p _
  rw [Node.ways_star, ← hone]
  rfl

/-- A way takes characters of the set, and at least one. -/
theorem mem_ways_plus {greedy : Bool} {set : CharSet} {p : Place} {v : Way}
    (h : v ∈ (Node.plus greedy set).ways p) :
    ∃ c cs, p.rest = c :: cs ++ v.1.rest ∧ ∀ d ∈ c :: cs, set.contains d = true := by
  rw [Node.ways_plus] at h
  obtain ⟨w, hw, u, hu, rfl⟩ := mem_andThen.1 h
  cases hrest : p.rest with
  | nil =>
      rw [ways_one_nil hrest] at hw
      cases hw
  | cons c rest =>
      rw [ways_one hrest] at hw
      split at hw
      · next hc =>
        obtain rfl := List.mem_singleton.1 hw
        obtain ⟨cs, hcs, hset, -⟩ := mem_ways_star hu
        rw [Place.rest_behind (a := [c]) hrest] at hcs
        exact ⟨c, cs, congrArg _ hcs, List.forall_mem_cons.2 ⟨hc, hset⟩⟩
      · cases hw

/-- The longest way goes up to the first character that is not in the set. -/
theorem head_ways_plus {set : CharSet} {p : Place} {c : Char} {cs rest : List Char}
    (h : p.rest = c :: cs ++ rest) (hcs : ∀ d ∈ c :: cs, set.contains d = true)
    (hrest : ∀ d, rest.head? = some d → set.contains d = false) :
    ((Node.plus true set).ways p).head? = some (p.behind (c :: cs), []) := by
  obtain ⟨hc, hcs⟩ := List.forall_mem_cons.1 hcs
  rw [Node.ways_plus, ways_one h, if_pos hc, andThen_singleton]
  exact head_ways_star (Place.rest_behind (a := [c]) h) hcs hrest

/-! ## Rows -/

/-- The first way that goes on is the first one of each part. -/
theorem head_andThen {ways : List Way} {more : Place → List Way} {q e : Place} {s t : Saves}
    (hv : ways.head? = some (q, s)) (hu : (more q).head? = some (e, t)) :
    (andThen ways more).head? = some (e, t ++ s) := by
  cases ways with
  | nil => cases hv
  | cons w ways =>
      cases hv
      rw [andThen_cons, List.head?_append, List.head?_map, hu]
      rfl

/-- The first way of a row is that of its first node and that of the others. -/
theorem head_rowWays {a : Node} {as : List Node} {p q e : Place} {s t : Saves}
    (hv : (a.ways p).head? = some (q, s)) (hu : (rowWays as q).head? = some (e, t)) :
    (rowWays (a :: as) p).head? = some (e, t ++ s) :=
  head_andThen hv hu

/-- A greedy loop goes on as long as it can. -/
theorem head_loop {ways : Place → List Way} (hways : Takes ways) {p q e : Place} {s t : Saves}
    (hv : (ways p).head? = some (q, s)) (hu : (loop true ways q).head? = some (e, t)) :
    (loop true ways p).head? = some (e, t ++ s) := by
  rw [loop_eq hways, if_pos rfl, List.head?_append, head_andThen hv hu]
  rfl

/-- A loop over what has no way stays. -/
theorem loop_of_nil {ways : Place → List Way} (hways : Takes ways) {greedy : Bool} {p : Place}
    (h : ways p = []) :
    loop greedy ways p = [(p, [])] := by
  rw [loop_eq hways, h]
  cases greedy <;> rfl

/-- The first ways count for nothing if there is no way to go on. -/
theorem andThen_of_before {before after : List Way} {more : Place → List Way}
    (h : ∀ v ∈ before, more v.1 = []) :
    andThen (before ++ after) more = andThen after more := by
  induction before with
  | nil => rfl
  | cons v before ih =>
      obtain ⟨hv, hbefore⟩ := List.forall_mem_cons.1 h
      rw [List.cons_append, andThen_cons, hv, ih hbefore]
      rfl

/-- The first way of a group is that of its node, with both ends noted. -/
theorem head_group {i : Nat} {name? : Option String} {a : Node} {p q : Place} {s : Saves}
    (hv : (a.ways p).head? = some (q, s)) : ((Node.group i name? a).ways p).head? =
      some (q, (2 * i + 1, q.offset) :: (s ++ [(2 * i, p.offset)])) := by
  rw [Node.ways, List.head?_map, hv]
  rfl

end CodeAtlas.Pattern
