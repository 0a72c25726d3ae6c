import CodeAtlas.Pattern.Matcher

/-!
# How a program runs

From an instruction and a place in the text a program either leads to the end of a match or fails. A
trial that leaves out choices that were tried before finds the same: such a choice has failed, or it
would be one that the trial is still within, and then it would take a larger trial than itself. The
steps that a search may take are enough, as every choice is made once at a place.
-/

namespace CodeAtlas.Pattern

/-! ## Places -/

namespace Place

/-- The place behind the next character. -/
def next (p : Place) (c : Char) (rest : List Char) : Place := ⟨p.offset + c.utf8Size, c, rest⟩

/-- The places from one on, in order. -/
def placesFrom (offset : Nat) (before : Char) : List Char → List Place
  | [] => [⟨offset, before, []⟩]
  | c :: rest => ⟨offset, before, c :: rest⟩ :: placesFrom (offset + c.utf8Size) c rest

/-- The place and those behind it, in order. -/
def all (p : Place) : List Place := placesFrom p.offset p.before p.rest

theorem all_nil (offset : Nat) (before : Char) :
    all ⟨offset, before, []⟩ = [⟨offset, before, []⟩] := rfl

/-- The places of a text are the first one and those behind its first character. -/
theorem all_cons (offset : Nat) (before c : Char) (rest : List Char) :
    all ⟨offset, before, c :: rest⟩
      = ⟨offset, before, c :: rest⟩ :: all ⟨offset + c.utf8Size, c, rest⟩ := rfl

/-- A place is one of its own places. -/
theorem self_mem_all (p : Place) : p ∈ p.all := by
  obtain ⟨offset, before, rest⟩ := p
  cases rest <;> exact List.mem_cons_self

/-- There is one place more than there are characters. -/
theorem length_all (p : Place) : p.all.length = p.rest.length + 1 := by
  obtain ⟨offset, before, rest⟩ := p
  show (placesFrom offset before rest).length = rest.length + 1
  induction rest generalizing offset before with
  | nil => rfl
  | cons c rest ih => rw [placesFrom, List.length_cons, ih, List.length_cons]

/-- The places of a later place are places of an earlier one. -/
theorem all_subset {p q : Place} (h : q ∈ p.all) : q.all ⊆ p.all := by
  obtain ⟨offset, before, rest⟩ := p
  induction rest generalizing offset before with
  | nil =>
      obtain rfl := List.mem_singleton.1 h
      exact List.Subset.refl _
  | cons c rest ih =>
      rw [all_cons] at h
      rcases List.mem_cons.1 h with rfl | h
      · exact List.Subset.refl _
      · rw [all_cons]
        exact List.Subset.trans (ih _ _ h) (List.subset_cons_self _ _)

/-- Behind a place of a text stands a place of the text. -/
theorem next_mem_all {p q : Place} (h : q ∈ p.all) {c : Char} {rest : List Char}
    (hq : q.rest = c :: rest) :
    q.next c rest ∈ p.all := by
  obtain ⟨offset, before, _⟩ := q
  obtain rfl := hq
  exact all_subset h (List.mem_cons_of_mem _ (self_mem_all _))

/-- Later places have no smaller offsets. -/
theorem offset_le {p q : Place} (h : q ∈ p.all) : p.offset ≤ q.offset := by
  obtain ⟨offset, before, rest⟩ := p
  induction rest generalizing offset before with
  | nil => exact Nat.le_of_eq (by rw [List.mem_singleton.1 h])
  | cons c rest ih =>
      rw [all_cons] at h
      rcases List.mem_cons.1 h with rfl | h
      · exact Nat.le_refl _
      · exact Nat.le_trans (Nat.le_add_right _ _) (ih _ _ h)

/-- Places of one text at the same offset are the same. -/
theorem eq_of_offset {p q q' : Place} (h : q ∈ p.all) (h' : q' ∈ p.all)
    (heq : q.offset = q'.offset) :
    q = q' := by
  obtain ⟨offset, before, rest⟩ := p
  induction rest generalizing offset before with
  | nil => rw [List.mem_singleton.1 h, List.mem_singleton.1 h']
  | cons c rest ih =>
      rw [all_cons] at h h'
      have hsize := c.utf8Size_pos
      rcases List.mem_cons.1 h with rfl | h <;> rcases List.mem_cons.1 h' with rfl | h'
      · rfl
      · have := offset_le h'
        simp only at this heq
        omega
      · have := offset_le h
        simp only at this heq
        omega
      · exact ih _ _ h h'

end Place

/-! ## Moves -/

/-- Places that are saved by slot, the last one first. -/
abbrev Saves := List (Nat × Nat)

/-- What an instruction does at a place: it goes on to another one, leaves a choice between two, or
is the end of a match. -/
inductive Move where
  | fail
  | accept
  | go (next : Nat) (place : Place) (saves : Saves)
  | both (first second : Nat)

/-- The move of the instruction with an index. -/
def move (code : Array Inst) (pc : Nat) (p : Place) : Move :=
  match code[pc]? with
  | none => .fail
  | some .accept => .accept
  | some (.char d next) =>
      match p.rest with
      | [] => .fail
      | c :: rest => if c == d then .go next (p.next c rest) [] else .fail
  | some (.one set next) =>
      match p.rest with
      | [] => .fail
      | c :: rest => if set.contains c then .go next (p.next c rest) [] else .fail
  | some (.look l next) => if l.holds p.offset p.before p.rest then .go next p [] else .fail
  | some (.save slot next) => .go next p [(slot, p.offset)]
  | some (.split first second) => .both first second

/-- Goes on with the branches that wait. -/
def resume (code : Array Inst) (fuel : Nat) (waiting : List Branch) (tried : Tried) :
    Option (Place × Saves) × Tried :=
  match waiting with
  | [] => (none, tried)
  | b :: waiting =>
      run code fuel b.next b.place.offset b.place.before b.place.rest b.saves waiting tried

/-- A number for an instruction and a place. -/
def keyOf (code : Array Inst) (pc : Nat) (p : Place) : Nat := p.offset * code.size + pc

/-- One step of a trial. -/
theorem run_succ (code : Array Inst) (fuel pc : Nat) (p : Place) (saves : Saves)
    (waiting : List Branch) (tried : Tried) :
    run code (fuel + 1) pc p.offset p.before p.rest saves waiting tried =
      match move code pc p with
      | .fail => resume code fuel waiting tried
      | .accept => (some (p, saves), tried)
      | .go next q s => run code fuel next q.offset q.before q.rest (s ++ saves) waiting tried
      | .both first second =>
          if tried.contains (keyOf code pc p) then resume code fuel waiting tried
          else run code fuel first p.offset p.before p.rest saves (⟨second, p, saves⟩ :: waiting)
            (tried.insert (keyOf code pc p)) := by
  obtain ⟨offset, before, rest⟩ := p
  rw [run, move]
  cases code[pc]? with
  | none => rfl
  | some i =>
      cases i with
      | accept => rfl
      | char d next =>
          cases rest with
          | nil => rfl
          | cons c rest =>
              dsimp only
              split <;> rfl
      | one set next =>
          cases rest with
          | nil => rfl
          | cons c rest =>
              dsimp only
              split <;> rfl
      | look l next =>
          dsimp only
          split <;> rfl
      | save slot next => rfl
      | split first second => rfl

/-- A step of a program stays in the text. -/
theorem mem_all_of_move {root p q : Place} (hp : p ∈ root.all) {code : Array Inst}
    {pc next : Nat} {s : Saves} (h : move code pc p = .go next q s) : q ∈ root.all := by
  rw [move] at h
  split at h
  · cases h
  · cases h
  · split at h
    · cases h
    · next hrest =>
      split at h
      · cases h
        exact Place.next_mem_all hp hrest
      · cases h
  · split at h
    · cases h
    · next hrest =>
      split at h
      · cases h
        exact Place.next_mem_all hp hrest
      · cases h
  · split at h
    · cases h
      exact hp
    · cases h
  · cases h
    exact hp
  · cases h

/-! ## Results -/

/-- From an instruction and a place a program leads, in so many moves, to the end of a match with
the places saved on the way, or fails. A choice leads where its first branch does unless that
fails. -/
inductive Leads (code : Array Inst) : Nat → Nat → Place → Option (Place × Saves) → Prop
  | fail {pc : Nat} {p : Place} (h : move code pc p = .fail) : Leads code 0 pc p none
  | accept {pc : Nat} {p : Place} (h : move code pc p = .accept) : Leads code 0 pc p (some (p, []))
  | go {n pc next : Nat} {p q : Place} {s : Saves} {r : Option (Place × Saves)}
      (h : move code pc p = .go next q s) (hnext : Leads code n next q r) :
      Leads code (n + 1) pc p (r.map fun (e, t) => (e, t ++ s))
  | first {n pc first second : Nat} {p : Place} {r : Place × Saves}
      (h : move code pc p = .both first second) (hfirst : Leads code n first p (some r)) :
      Leads code (n + 1) pc p (some r)
  | second {n m pc first second : Nat} {p : Place} {r : Option (Place × Saves)}
      (h : move code pc p = .both first second) (hfirst : Leads code n first p none)
      (hsecond : Leads code m second p r) : Leads code (n + m + 1) pc p r

/-- What a program leads to, and in how many steps, is determined. -/
theorem Leads.unique {code : Array Inst} {n m pc : Nat} {p : Place} {r r' : Option (Place × Saves)}
    (h : Leads code n pc p r) (h' : Leads code m pc p r') : n = m ∧ r = r' := by
  induction h generalizing m r' with
  | fail hm => cases h' <;> simp_all
  | accept hm => cases h' <;> simp_all
  | go hm _ ih =>
      -- what is done at a place is a function of it, so both runs take the same step
      cases h' with
      | go hm' hnext' =>
          cases hm.symm.trans hm'
          obtain ⟨rfl, rfl⟩ := ih hnext'
          exact ⟨rfl, rfl⟩
      | fail hm' | accept hm' | first hm' | second hm' => cases hm.symm.trans hm'
  | first hm _ ih =>
      cases h' with
      | first hm' hfirst' =>
          cases hm.symm.trans hm'
          obtain ⟨rfl, hr⟩ := ih hfirst'
          exact ⟨rfl, hr⟩
      | second hm' hfirst' =>
          cases hm.symm.trans hm'
          cases (ih hfirst').2
      | fail hm' | accept hm' | go hm' => cases hm.symm.trans hm'
  | second hm _ _ ih ih' =>
      cases h' with
      | first hm' hfirst' =>
          cases hm.symm.trans hm'
          cases (ih hfirst').2
      | second hm' hfirst' hsecond' =>
          cases hm.symm.trans hm'
          obtain ⟨rfl, -⟩ := ih hfirst'
          obtain ⟨rfl, rfl⟩ := ih' hsecond'
          exact ⟨rfl, rfl⟩
      | fail hm' | accept hm' | go hm' => cases hm.symm.trans hm'

/-- Instructions but choices go on to earlier ones, and choices to any that there are. -/
structure Descends (code : Array Inst) : Prop where
  go : ∀ {pc next p q s}, move code pc p = .go next q s → next < pc
  both : ∀ {pc first second p}, move code pc p = .both first second →
    pc < code.size ∧ first < code.size ∧ second < code.size

/-! ## Choices that were tried -/

/-- A condition that is narrower, and that fails for an item of the other, counts fewer items. -/
theorem countP_lt {α : Type} {p q : α → Bool} {l : List α} (himp : ∀ a ∈ l, p a = true → q a = true)
    {a : α} (ha : a ∈ l) (hp : p a = false) (hq : q a = true) : l.countP p < l.countP q := by
  induction l with
  | nil => cases ha
  | cons b l ih =>
      have hrest : l.countP p ≤ l.countP q :=
        List.countP_mono_left fun c hc => himp c (List.mem_cons_of_mem _ hc)
      rw [List.countP_cons, List.countP_cons]
      rcases List.mem_cons.1 ha with rfl | ha
      · rw [hp, hq]
        simp only [Bool.false_eq_true, if_false, if_true]
        omega
      · have hlt := ih (fun c hc => himp c (List.mem_cons_of_mem _ hc)) ha
        have hb := himp b List.mem_cons_self
        cases hpb : p b with
        | false =>
            simp only [Bool.false_eq_true, if_false]
            omega
        | true =>
            rw [hb hpb]
            simp only [if_true]
            omega

section
variable (code : Array Inst) (root : Place)

/-- The numbers of all instructions with all places. -/
def keys : List Nat := root.all.flatMap fun p => (List.range code.size).map fun pc =>
    keyOf code pc p

/-- How many of them were not tried. -/
def untried (tried : Tried) : Nat := (keys code root).countP fun k => !tried.contains k

/-- There is a key for every instruction at every place. -/
theorem length_keys : (keys code root).length = (root.rest.length + 1) * code.size := by
  rw [keys, List.length_flatMap]
  simp [Place.length_all, List.map_const']

/-- There are at most as many keys untried as there are keys. -/
theorem untried_le (tried : Tried) : untried code root tried ≤ (root.rest.length + 1) * code.size :=
  length_keys code root ▸ List.countP_le_length

variable {code root}

/-- The key of an instruction at a place is among the keys. -/
theorem mem_keys {pc : Nat} {p : Place} (hp : p ∈ root.all) (hpc : pc < code.size) :
    keyOf code pc p ∈ keys code root :=
  List.mem_flatMap.2 ⟨p, hp, List.mem_map.2 ⟨pc, List.mem_range.2 hpc, rfl⟩⟩

/-- Trying a key that was untried leaves fewer. -/
theorem untried_insert_lt {pc : Nat} {p : Place} (hp : p ∈ root.all) (hpc : pc < code.size)
    {tried : Tried} (h : tried.contains (keyOf code pc p) = false) :
    untried code root (tried.insert (keyOf code pc p)) < untried code root tried := by
  refine countP_lt ?_ (mem_keys hp hpc) ?_ ?_
  · intro k _ hk
    rw [Std.HashSet.contains_insert] at hk
    simp_all
  · simp
  · simp [h]

/-- A key tells the instruction and the place. -/
theorem keyOf_inj {pc pc' : Nat} {p q : Place} (hp : p ∈ root.all) (hq : q ∈ root.all)
    (hpc : pc < code.size) (hpc' : pc' < code.size) (h : keyOf code pc p = keyOf code pc' q) :
    pc = pc' ∧ p = q := by
  have hpos : 0 < code.size := by omega
  have hoffset : p.offset = q.offset := by
    have hp' : keyOf code pc p / code.size = p.offset := by
      rw [keyOf, Nat.mul_comm, Nat.mul_add_div hpos, Nat.div_eq_of_lt hpc, Nat.add_zero]
    have hq' : keyOf code pc' q / code.size = q.offset := by
      rw [keyOf, Nat.mul_comm, Nat.mul_add_div hpos, Nat.div_eq_of_lt hpc', Nat.add_zero]
    rw [← hp', h, hq']
  obtain rfl := Place.eq_of_offset hp hq hoffset
  exact ⟨Nat.add_left_cancel h, rfl⟩

/-- The program fails from an instruction and a place. -/
def Fails (code : Array Inst) (pc : Nat) (p : Place) : Prop := ∃ n, Leads code n pc p none

/-- What was tried fails, or leads somewhere in more than `n` moves. -/
def Settled (code : Array Inst) (root : Place) (n : Nat) (tried : Tried) : Prop :=
  ∀ pc < code.size, ∀ p ∈ root.all, tried.contains (keyOf code pc p) = true →
    Fails code pc p ∨ ∃ m r, Leads code m pc p r ∧ n < m

/-- What was tried since then fails. -/
def Failed (code : Array Inst) (root : Place) (tried tried' : Tried) : Prop :=
  ∀ pc < code.size, ∀ p ∈ root.all, tried'.contains (keyOf code pc p) = true →
    tried.contains (keyOf code pc p) = true ∨ Fails code pc p

/-- What is settled up to a number of steps is settled up to a smaller one. -/
theorem Settled.mono {n m : Nat} {tried : Tried} (h : Settled code root m tried) (hle : n ≤ m) :
    Settled code root n tried := by
  intro pc hpc p hp hc
  obtain hfail | ⟨k, r, hlead, hlt⟩ := h pc hpc p hp hc
  · exact .inl hfail
  · exact .inr ⟨k, r, hlead, Nat.lt_of_le_of_lt hle hlt⟩

/-- A key whose outcome is known in more steps may be put to those tried. -/
theorem Settled.insert {n m pc : Nat} {p : Place} {r : Option (Place × Saves)} {tried : Tried}
    (h : Settled code root m tried) (hp : p ∈ root.all) (hpc : pc < code.size)
    (hlead : Leads code m pc p r) (hlt : n < m) :
    Settled code root n (tried.insert (keyOf code pc p)) := by
  intro pc' hpc' q hq hc
  rw [Std.HashSet.contains_insert, Bool.or_eq_true, beq_iff_eq] at hc
  rcases hc with hkey | hc
  · obtain ⟨rfl, rfl⟩ := keyOf_inj hp hq hpc hpc' hkey
    exact .inr ⟨m, r, hlead, hlt⟩
  · exact h.mono (Nat.le_of_lt hlt) pc' hpc' q hq hc

/-- What is settled stays so when only failing keys are tried. -/
theorem Settled.failed {n : Nat} {tried tried' : Tried} (h : Settled code root n tried)
    (hfailed : Failed code root tried tried') : Settled code root n tried' := by
  intro pc hpc p hp hc
  obtain hc | hfail := hfailed pc hpc p hp hc
  · exact h pc hpc p hp hc
  · exact .inl hfail

/-- A choice that was tried fails. -/
theorem Settled.fails {n pc : Nat} {p : Place} {r : Option (Place × Saves)} {tried : Tried}
    (h : Settled code root n tried) (hp : p ∈ root.all) (hpc : pc < code.size)
    (hlead : Leads code n pc p r) (hc : tried.contains (keyOf code pc p) = true) : r = none := by
  obtain ⟨m, hfail⟩ | ⟨m, r', hlead', hlt⟩ := h pc hpc p hp hc
  · exact (hlead.unique hfail).2
  · exact absurd (hlead.unique hlead').1 (Nat.ne_of_lt hlt)

/-- A trial finds what the program leads to, whatever was tried before, and needs a number of steps
for each choice that it tries. -/
theorem run_of_leads (hcode : Descends code) {n pc : Nat} {p : Place} {r : Option (Place × Saves)}
    (h : Leads code n pc p r) (hp : p ∈ root.all) (saves : Saves) (waiting : List Branch)
    {tried : Tried} (htried : Settled code root n tried) :
    ∃ k tried', k + 2 * (code.size + 1) * untried code root tried'
        ≤ pc + 1 + 2 * (code.size + 1) * untried code root tried
      ∧ match r with
        | some (e, s) => ∀ fuel, run code (fuel + k) pc p.offset p.before p.rest saves waiting tried
            = (some (e, s ++ saves), tried')
        | none => Failed code root tried tried'
            ∧ ∀ fuel, run code (fuel + k) pc p.offset p.before p.rest saves waiting tried
              = resume code fuel waiting tried' := by
  induction h generalizing saves waiting tried with
  | fail hm =>
      refine ⟨1, tried, by omega, fun _ _ _ _ hc => .inl hc, fun fuel => ?_⟩
      rw [run_succ, hm]
  | accept hm =>
      refine ⟨1, tried, by omega, fun fuel => ?_⟩
      rw [run_succ, hm]
      rfl
  | @go n pc next p q s r hm hnext ih =>
      obtain ⟨k, tried', hk, hrun⟩ := ih (mem_all_of_move hp hm) (s ++ saves) waiting
        (htried.mono (Nat.le_succ n))
      have hlt := hcode.go hm
      refine ⟨k + 1, tried', by omega, ?_⟩
      cases r with
      | none =>
          refine ⟨hrun.1, fun fuel => ?_⟩
          rw [← Nat.add_assoc, run_succ, hm]
          exact hrun.2 fuel
      | some r =>
          intro fuel
          rw [← Nat.add_assoc, run_succ, hm]
          simpa using hrun fuel
  | @first n pc first second p r hm hfirst ih =>
      -- the first branch matches; the key of this place has not been tried, or it would fail
      obtain ⟨hpc, hlt, -⟩ := hcode.both hm
      cases hc : tried.contains (keyOf code pc p) with
      | true => cases htried.fails hp hpc (.first hm hfirst) hc
      | false =>
          obtain ⟨k, tried', hk, hrun⟩ := ih hp saves (⟨second, p, saves⟩ :: waiting)
            (htried.insert hp hpc (.first hm hfirst) (Nat.lt_succ_self n))
          have hless := Nat.mul_le_mul_left (2 * (code.size + 1)) (untried_insert_lt hp hpc hc)
          refine ⟨k + 1, tried', by rw [Nat.mul_succ] at hless; omega, fun fuel => ?_⟩
          rw [← Nat.add_assoc, run_succ, hm]
          simp only [hc, Bool.false_eq_true, if_false]
          exact hrun fuel
  | @second n m pc first second p r hm hfirst hsecond ih ih' =>
      -- the first branch fails, and the second is run with what the first has tried
      obtain ⟨hpc, hlt, hlt'⟩ := hcode.both hm
      cases hc : tried.contains (keyOf code pc p) with
      | true =>
          obtain rfl := htried.fails hp hpc (.second hm hfirst hsecond) hc
          refine ⟨1, tried, by omega, fun _ _ _ _ hc => .inl hc, fun fuel => ?_⟩
          rw [run_succ, hm]
          exact if_pos hc
      | false =>
          obtain ⟨k, tried', hk, hfailed, hrun⟩ := ih hp saves (⟨second, p, saves⟩ :: waiting)
            (htried.insert hp hpc (.second hm hfirst hsecond) (by omega))
          have htried' : Settled code root m tried' :=
            (htried.insert hp hpc (.second hm hfirst hsecond) (by omega)).failed hfailed
          obtain ⟨k', tried'', hk', hrun'⟩ := ih' hp saves waiting htried'
          have hless := Nat.mul_le_mul_left (2 * (code.size + 1)) (untried_insert_lt hp hpc hc)
          rw [Nat.mul_succ] at hless
          have hstep : ∀ fuel,
              run code (fuel + (k' + k + 1)) pc p.offset p.before p.rest saves waiting tried
              = run code (fuel + k') second p.offset p.before p.rest saves waiting tried' := by
            intro fuel
            rw [← Nat.add_assoc, run_succ, hm, ← Nat.add_assoc]
            simp only [hc, Bool.false_eq_true, if_false]
            exact hrun _
          refine ⟨k' + k + 1, tried'', by omega, ?_⟩
          cases r with
          | none =>
              refine ⟨fun pc' hpc' q hq hc' => ?_, fun fuel => (hstep fuel).trans (hrun'.2 fuel)⟩
              -- what is tried in the end was tried at the start, failed meanwhile, or is this place
              obtain hc' | hfail := hrun'.1 pc' hpc' q hq hc'
              · obtain hc' | hfail := hfailed pc' hpc' q hq hc'
                · rw [Std.HashSet.contains_insert, Bool.or_eq_true, beq_iff_eq] at hc'
                  rcases hc' with hkey | hc'
                  · obtain ⟨rfl, rfl⟩ := keyOf_inj hp hq hpc hpc' hkey
                    exact .inr ⟨_, .second hm hfirst hsecond⟩
                  · exact .inl hc'
                · exact .inr hfail
              · exact .inr hfail
          | some r => exact fun fuel => (hstep fuel).trans (hrun' fuel)

/-- A trial from the start of the program has steps enough. -/
theorem run_of_leads_start (hcode : Descends code) {n start : Nat}
    (hstart : start < code.size) {p : Place} {r : Option (Place × Saves)}
    (h : Leads code n start p r) (hp : p ∈ root.all) {tried : Tried}
    (htried : ∀ m, Settled code root m tried) :
    ∃ tried', run code (stepBound code root.rest.length) start p.offset p.before p.rest [] [] tried
        = (r, tried') ∧ (r = none → ∀ m, Settled code root m tried') := by
  obtain ⟨k, tried', hk, hrun⟩ := run_of_leads hcode h hp [] [] (htried n)
  have hbound : k ≤ stepBound code root.rest.length := by
    have huntried := Nat.mul_le_mul_left (2 * (code.size + 1)) (untried_le code root tried)
    have hexpand : stepBound code root.rest.length
        = 2 * (code.size + 1) * ((root.rest.length + 1) * code.size)
        + 2 * (code.size + 1) := by
      rw [stepBound, Nat.add_mul, Nat.mul_assoc 2 code.size, Nat.mul_comm code.size (_ + 1)]
      rw [Nat.mul_right_comm]
    omega
  obtain ⟨fuel, hfuel⟩ := Nat.exists_eq_add_of_le' hbound
  rw [hfuel]
  cases r with
  | none => exact ⟨tried', hrun.2 fuel, fun _ m => (htried m).failed hrun.1⟩
  | some r =>
      refine ⟨tried', ?_, nofun⟩
      simpa using hrun fuel

end

/-- What a search finds at one place. -/
def Program.attempt (p : Program) (bound offset : Nat) (before : Char) (rest : List Char)
    (tried : Tried) :
    Option (Place × Saves) × Tried :=
  match p.firsts?, rest with
  | some _, [] => (none, tried)
  | some set, c :: _ =>
      if set.contains c then run p.code bound p.start offset before rest [] [] tried
      else (none, tried)
  | none, _ => run p.code bound p.start offset before rest [] [] tried

/-- A search from a place attempts it, and goes on behind the next character if this fails. -/
theorem Program.searchFrom_eq_attempt (p : Program) (bound offset : Nat) (before : Char)
    (rest : List Char) (tried : Tried) : p.searchFrom bound offset before rest tried =
      match p.attempt bound offset before rest tried, rest with
      | (some (stop, saves), _), _ => some ⟨⟨offset, before, rest⟩, stop, saves⟩
      | (none, _), [] => none
      | (none, tried), c :: rest => p.searchFrom bound (offset + c.utf8Size) c rest tried := by
  rw [searchFrom.eq_def]
  rfl

section
variable {p : Program} (hcode : Descends p.code) (hstart : p.start < p.code.size) {root : Place}
  {result : Place → Option (Place × Saves)}
  (hresult : ∀ q ∈ root.all, ∃ n, Leads p.code n p.start q (result q))
  (hfirsts : ∀ set, p.firsts? = some set → ∀ q ∈ root.all, result q ≠ none →
    ∃ c rest, q.rest = c :: rest ∧ set.contains c = true)
include hcode hstart hresult hfirsts

/-- An attempt at a place gives its result, and leaves only failing keys tried if there is none. -/
theorem Program.attempt_eq {q : Place} (hq : q ∈ root.all) {tried : Tried}
    (htried : ∀ m, Settled p.code root m tried) :
    ∃ tried', p.attempt (stepBound p.code root.rest.length) q.offset q.before q.rest tried
        = (result q, tried') ∧ (result q = none → ∀ m, Settled p.code root m tried') := by
  obtain ⟨n, hlead⟩ := hresult q hq
  have hrun := run_of_leads_start hcode hstart hlead hq htried
  rw [attempt.eq_def]
  split
  · next hset hrest =>
    refine ⟨tried, ?_, fun _ => htried⟩
    cases hr : result q with
    | none => rfl
    | some r =>
        obtain ⟨c, rest, hrest', -⟩ := hfirsts _ hset q hq (by rw [hr]; exact Option.some_ne_none _)
        cases hrest.symm.trans hrest'
  · next set c rest hset hrest =>
    split
    · exact hrun
    · next hc =>
      refine ⟨tried, ?_, fun _ => htried⟩
      cases hr : result q with
      | none => rfl
      | some r =>
          obtain ⟨d, rest', hrest', hd⟩ :=
            hfirsts _ hset q hq (by rw [hr]; exact Option.some_ne_none _)
          cases hrest.symm.trans hrest'
          exact absurd hd hc
  · exact hrun

/-- A search finds the first place from which the program leads to the end of a match. -/
theorem Program.searchFrom_eq {offset : Nat} {before : Char} {rest : List Char}
    (hq : ⟨offset, before, rest⟩ ∈ root.all) {tried : Tried}
    (htried : ∀ m, Settled p.code root m tried) :
    p.searchFrom (stepBound p.code root.rest.length) offset before rest tried
      = (Place.all ⟨offset, before, rest⟩).findSome? fun q =>
          (result q).map fun (stop, saves) => ⟨q, stop, saves⟩ := by
  induction rest generalizing offset before tried with
  | nil =>
      obtain ⟨tried', hattempt, -⟩ := p.attempt_eq hcode hstart hresult hfirsts hq htried
      rw [searchFrom_eq_attempt, hattempt, Place.all_nil]
      cases hr : result ⟨offset, before, []⟩ <;> simp [hr]
  | cons c rest ih =>
      obtain ⟨tried', hattempt, hsettled⟩ := p.attempt_eq hcode hstart hresult hfirsts hq htried
      rw [searchFrom_eq_attempt, hattempt, Place.all_cons, List.findSome?_cons]
      cases hr : result ⟨offset, before, c :: rest⟩ with
      | some r => simp
      | none => simpa using ih (Place.next_mem_all hq rfl) (hsettled hr)

/-- A search finds the first place with a result. -/
theorem Program.search_eq : p.search (stepBound p.code root.rest.length) root
    = root.all.findSome? fun q => (result q).map fun (stop, saves) => ⟨q, stop, saves⟩ := by
  refine p.searchFrom_eq hcode hstart hresult hfirsts root.self_mem_all fun m pc _ q _ hc => ?_
  rw [Std.HashSet.contains_empty] at hc
  cases hc

end

end CodeAtlas.Pattern
