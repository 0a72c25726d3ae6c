import CodeAtlas.Proofs.Pattern.Ways

/-!
# What a pattern finds

The program of a pattern leads to the first of its ways, and so a search finds the first place at
which there is a way, and the way that is preferred there. This holds of steady patterns: nothing
that is repeated without a bound can be empty.
-/

namespace CodeAtlas.Pattern

open Unicode (CharSet)

/-! ## Programs -/

/-- The first way that can be gone on with: where that leads. -/
def finish (f : Place → Option Way) (ways : List Way) : Option Way :=
  ways.findSome? fun v => (f v.1).map fun (e, t) => (e, t ++ v.2)

/-- Finishing the ways from a list tries the first one and then the others. -/
theorem finish_cons (f : Place → Option Way) (v : Way) (ways : List Way) :
    finish f (v :: ways) = ((f v.1).map fun (e, t) => (e, t ++ v.2)).or (finish f ways) := by
  rw [finish, List.findSome?_cons]
  cases f v.1 <;> rfl

/-- Finishing two lists of ways behind each other tries the first list and then the second. -/
theorem finish_append (f : Place → Option Way) (a b : List Way) :
    finish f (a ++ b) = (finish f a).or (finish f b) := List.findSome?_append

/-- Finishing the one way that stays is what is done at its place. -/
theorem finish_singleton (f : Place → Option Way) (p : Place) : finish f [(p, [])] = f p := by
  simp [finish]

/-- What all ways have saved is put to what the finished way has saved. -/
theorem finish_map (f : Place → Option Way) (ways : List Way) (s : Saves) :
    finish f (ways.map fun (e, t) => (e, t ++ s)) = (finish f ways).map fun (e, t) =>
      (e, t ++ s) := by
  induction ways with
  | nil => rfl
  | cons v ways ih =>
      rw [List.map_cons, finish_cons, finish_cons, ih]
      cases f v.1 <;> simp

/-- Finishing ways that go on finishes each of them with what goes on. -/
theorem finish_andThen (f : Place → Option Way) (ways : List Way) (more : Place → List Way) :
    finish f (andThen ways more) = finish (fun q => finish f (more q)) ways := by
  induction ways with
  | nil => rfl
  | cons v ways ih => rw [andThen_cons, finish_append, ih, finish_map, finish_cons]

/-- The program leads somewhere, or fails. -/
def Ends (code : Array Inst) (pc : Nat) (p : Place) (r : Option Way) : Prop :=
  ∃ n, Leads code n pc p r

/-- From `start` the program goes the given ways, in their order, and on from `next`. -/
def Carries (code : Array Inst) (start next : Nat) (ways : Place → List Way) : Prop :=
  ∀ p f, (∀ v ∈ ways p, Ends code next v.1 (f v.1)) → Ends code start p (finish f (ways p))

section
variable {code : Array Inst} {start mid next : Nat} {ways ways' : Place → List Way}

/-- A code that goes nowhere carries the way that stays. -/
theorem carries_done : Carries code next next fun p => [(p, [])] := by
  intro p f h
  rw [finish_singleton]
  exact h _ List.mem_cons_self

/-- Codes behind each other carry ways behind each other. -/
theorem Carries.andThen (h : Carries code start mid ways) (h' : Carries code mid next ways') :
    Carries code start next fun p => andThen (ways p) ways' := by
  intro p f hf
  rw [finish_andThen]
  refine h p _ fun v hv => h' v.1 f fun u hu => ?_
  exact hf (u.1, u.2 ++ v.2) (mem_andThen.2 ⟨v, hv, u, hu, rfl⟩)

/-- An instruction that goes on in one way at most. -/
theorem carries_of_move (h : ∀ p, move code start p = .fail ∧ ways p = []
    ∨ ∃ q s, move code start p = .go next q s ∧ ways p = [(q, s)]) : Carries code start next ways :=
  by
  intro p f hf
  obtain ⟨hm, hways⟩ | ⟨q, s, hm, hways⟩ := h p
  · rw [hways]
    exact ⟨0, .fail hm⟩
  · rw [hways] at hf ⊢
    obtain ⟨n, hn⟩ := hf _ List.mem_cons_self
    refine ⟨n + 1, ?_⟩
    have hfinish : finish f [(q, s)] = (f q).map fun (e, t) => (e, t ++ s) := by simp [finish]
    rw [hfinish]
    exact .go hm hn

/-- A code that splits carries the ways of both sides, the first side first. -/
theorem carries_split {first second : Nat} (hm : ∀ p, move code start p = .both first second)
    (h : Carries code first next ways) (h' : Carries code second next ways') :
    Carries code start next fun p => ways p ++ ways' p := by
  intro p f hf
  obtain ⟨hleft, hright⟩ := List.forall_mem_append.1 hf
  obtain ⟨n, hn⟩ := h p f hleft
  obtain ⟨m, hm'⟩ := h' p f hright
  rw [finish_append]
  cases hfirst : finish f (ways p) with
  | none =>
      rw [hfirst] at hn
      exact ⟨_, .second (hm p) hn hm'⟩
  | some r =>
      rw [hfirst] at hn
      exact ⟨_, .first (hm p) hn⟩

/-- A loop whose rounds take characters. -/
theorem carries_loop (hways : Takes ways) {greedy : Bool} {again leave start : Nat}
    (h : Carries code start again ways)
    (hm : ∀ p, move code again p = if greedy then .both start leave else .both leave start) :
    Carries code again leave (loop greedy ways) := by
  intro p f hf
  -- by induction on the rest of the text, of which each round takes some
  induction hlength : p.rest.length using Nat.strongRecOn generalizing p f with
  | ind n ih =>
      rw [loop_eq hways] at hf ⊢
      have hmore : (∀ v ∈ andThen (ways p) (loop greedy ways), Ends code leave v.1 (f v.1)) →
          Ends code start p (finish f (andThen (ways p) (loop greedy ways))) := by
        intro hf'
        rw [finish_andThen]
        refine h p _ fun v hv => ih _ (hlength ▸ hways p v hv) v.1 f (fun u hu => ?_) rfl
        exact hf' (u.1, u.2 ++ v.2) (mem_andThen.2 ⟨v, hv, u, hu, rfl⟩)
      have hmove := hm p
      cases greedy with
      | true =>
          -- greedy: a further round first, and leaving only where that fails
          obtain ⟨hleft, hright⟩ := List.forall_mem_append.1 hf
          obtain ⟨n, hn⟩ := hmore hleft
          obtain ⟨m, hm'⟩ := hright _ List.mem_cons_self
          rw [if_pos rfl, finish_append, finish_singleton]
          cases hfirst : finish f (andThen (ways p) (loop true ways)) with
          | none => exact ⟨_, .second hmove (hfirst ▸ hn) hm'⟩
          | some r => exact ⟨_, .first hmove (hfirst ▸ hn)⟩
      | false =>
          -- not greedy: leaving first
          obtain ⟨hleft, hright⟩ := List.forall_mem_append.1 hf
          obtain ⟨n, hn⟩ := hmore hright
          obtain ⟨m, hm'⟩ := hleft _ List.mem_cons_self
          rw [if_neg Bool.false_ne_true, finish_append, finish_singleton]
          cases hfirst : f p with
          | none => exact ⟨_, .second hmove (hfirst ▸ hm') hn⟩
          | some r => exact ⟨_, .first hmove (hfirst ▸ hm')⟩

end

/-! ## Code -/

/-- The instruction with index `i` in code of a size goes on to an earlier one, or is a choice
between any two. -/
def Inst.Proper (size i : Nat) : Inst → Prop
  | .char _ next | .one _ next | .look _ next | .save _ next => next < i
  | .split first second => first < size ∧ second < size
  | .accept => True

/-- An instruction that leads into a code leads into a longer one. -/
theorem Inst.Proper.mono {size size' i : Nat} (hle : size ≤ size') {inst : Inst}
    (h : inst.Proper size i) :
    inst.Proper size' i := by
  cases inst with
  | split first second => exact ⟨Nat.lt_of_lt_of_le h.1 hle, Nat.lt_of_lt_of_le h.2 hle⟩
  | char | one | look | save => exact h
  | accept => trivial

/-- Proper instructions were written behind the code that was there. -/
structure Grows (code code' : Array Inst) : Prop where
  size_le : code.size ≤ code'.size
  kept : ∀ i < code.size, code'[i]? = code[i]?
  proper : ∀ i inst, code.size ≤ i → code'[i]? = some inst → inst.Proper code'.size i

/-- The program has the instructions of `code'` behind those of `code`. -/
def Agrees (program code code' : Array Inst) : Prop :=
  ∀ i, code.size ≤ i → i < code'.size → program[i]? = code'[i]?

section
variable {code mid code' : Array Inst}

/-- A code grows to itself. -/
theorem Grows.refl (code : Array Inst) : Grows code code where
  size_le := Nat.le_refl _
  kept _ _ := rfl
  proper i inst hi hinst := by
    rw [Array.getElem?_eq_none hi] at hinst
    cases hinst

/-- Growing is transitive. -/
theorem Grows.trans (h : Grows code mid) (h' : Grows mid code') : Grows code code' where
  size_le := Nat.le_trans h.size_le h'.size_le
  kept i hi := (h'.kept i (Nat.lt_of_lt_of_le hi h.size_le)).trans (h.kept i hi)
  proper i inst hi hinst := by
    by_cases hmid : mid.size ≤ i
    · exact h'.proper i inst hmid hinst
    · rw [h'.kept i (Nat.lt_of_not_le hmid)] at hinst
      exact (h.proper i inst hi hinst).mono h'.size_le

/-- A code with an instruction behind it has grown, if this one leads into it. -/
theorem grows_push {inst : Inst} (h : inst.Proper (code.size + 1) code.size) :
    Grows code (code.push inst) where
  size_le := by simp
  kept i hi := by rw [Array.getElem?_push, if_neg (Nat.ne_of_lt hi)]
  proper i inst' hi hinst := by
    rw [Array.getElem?_push] at hinst
    split at hinst
    · next heq =>
      cases hinst
      simpa [heq] using h
    · next hne =>
      rw [Array.getElem?_eq_none hi] at hinst
      cases hinst

/-- A choice takes the place of an instruction. -/
theorem Grows.set (h : Grows code code') {i : Nat} (hi : code.size ≤ i) {inst : Inst}
    (hinst : inst.Proper code'.size i) : Grows code (code'.setIfInBounds i inst) where
  size_le := by simpa using h.size_le
  kept j hj := by
    rw [Array.getElem?_setIfInBounds_ne (by omega)]
    exact h.kept j hj
  proper j inst' hj hinst' := by
    rw [Array.getElem?_setIfInBounds] at hinst'
    rw [Array.size_setIfInBounds]
    split at hinst'
    · next heq =>
      split at hinst'
      · cases hinst'
        exact heq ▸ hinst
      · cases hinst'
    · exact h.proper j inst' hj hinst'

/-- A program that agrees with a code agrees with what the code was before. -/
theorem Agrees.left {program : Array Inst} (h : Agrees program code code') (h' : Grows mid code') :
    Agrees program code mid := fun i hi hlt =>
  (h i hi (Nat.lt_of_lt_of_le hlt h'.size_le)).trans (h'.kept i hlt)

/-- A program that agrees with a code behind a start agrees with it behind a later one. -/
theorem Agrees.right {program : Array Inst} (h : Agrees program code code') (h' : Grows code mid) :
    Agrees program mid code' := fun i hi hlt => h i (Nat.le_trans h'.size_le hi) hlt

end

/-! ## Writers -/

/-- The code written behind `code` starts at `start`, and goes the given ways from there to `next`
wherever it is part of a program. -/
structure Written (code code' : Array Inst) (start next : Nat)
    (ways : Place → List Way) : Prop where
  start_lt : start < code'.size
  grows : Grows code code'
  carries : ∀ program, Agrees program code code' → Carries program start next ways

/-- What the writer writes in front of any successor goes the given ways. -/
def Writes (writer : Writer) (ways : Place → List Way) : Prop :=
  ∀ next (code : Array Inst), next < code.size →
    Written code (writer next code).2 (writer next code).1 next ways

section
variable {code mid code' : Array Inst} {start next : Nat} {ways ways' : Place → List Way}

/-- Nothing is written for the way that stays. -/
theorem written_done (hgrows : Grows code code') (h : next < code'.size) :
    Written code code' next next fun p => [(p, [])] where
  start_lt := h
  grows := hgrows
  carries _ _ := carries_done

/-- What is written behind each other carries the ways behind each other. -/
theorem Written.trans {between : Nat} (h : Written code mid between next ways')
    (h' : Written mid code' start between ways) :
    Written code code' start next fun p => andThen (ways p) ways' where
  start_lt := h'.start_lt
  grows := h.grows.trans h'.grows
  carries program hagrees := (h'.carries program (hagrees.right h.grows)).andThen
    (h.carries program (hagrees.left h'.grows))

/-- Code that is there stays when more is written. -/
theorem Written.kept (h : Written code mid start next ways) (h' : Grows mid code') :
    Written code code' start next ways where
  start_lt := Nat.lt_of_lt_of_le h.start_lt h'.size_le
  grows := h.grows.trans h'
  carries program hagrees := h.carries program (hagrees.left h')

/-- A code that is longer at its start has the same written in it. -/
theorem Written.behind (h : Written mid code' start next ways) (h' : Grows code mid) :
    Written code code' start next ways where
  start_lt := h.start_lt
  grows := h'.trans h.grows
  carries program hagrees := h.carries program (hagrees.right h')

/-- What is written carries ways that are the same at every place. -/
theorem Written.congr (h : Written code code' start next ways) (heq : ∀ p, ways p = ways' p) :
    Written code code' start next ways' := funext heq ▸ h

/-- Code in front of code that is there. -/
theorem Writes.written {writer : Writer} (h : Writes writer ways) {between : Nat}
    (h' : Written code mid between next ways') :
    Written code (writer between mid).2 (writer between mid).1 next
      fun p => andThen (ways p) ways' :=
  h'.trans (h between mid h'.start_lt)

/-- A writer that writes ways writes ways that are the same at every place. -/
theorem Writes.congr {writer : Writer} (h : Writes writer ways) (heq : ∀ p, ways p = ways' p) :
    Writes writer ways' := funext heq ▸ h

/-- The writer that writes nothing writes the way that stays. -/
theorem Writes.done : Writes pure fun p => [(p, [])] := fun _ code h => written_done (.refl code) h

/-- A program that agrees with a code has the instruction that was written last. -/
theorem getElem?_of_agrees_push {program : Array Inst} {inst : Inst}
    (h : Agrees program code (code.push inst)) : program[code.size]? = some inst := by
  rw [h code.size (Nat.le_refl _) (by simp), Array.getElem?_push, if_pos rfl]

/-- An instruction that goes on in one way at most, in front of code that is there. -/
theorem written_push {inst : Inst} (hproper : inst.Proper (code.size + 1) code.size)
    (hmove : ∀ program, program[code.size]? = some inst → ∀ p,
      move program code.size p = .fail ∧ ways p = []
      ∨ ∃ q s, move program code.size p = .go next q s ∧ ways p = [(q, s)]) :
    Written code (code.push inst) code.size next ways where
  start_lt := by simp
  grows := grows_push hproper
  carries program hagrees := carries_of_move (hmove program (getElem?_of_agrees_push hagrees))

/-- A choice in front of code that is there. -/
theorem written_choice {first second : Nat} (h : Written code mid first next ways)
    (h' : Written code mid second next ways') :
    Written code (mid.push (.split first second)) mid.size next fun p => ways p ++ ways' p where
  start_lt := by simp
  grows := h.grows.trans (grows_push ⟨Nat.lt_succ_of_lt h.start_lt, Nat.lt_succ_of_lt h'.start_lt⟩)
  carries program hagrees := by
    have hproper : Inst.Proper (mid.size + 1) mid.size (.split first second) :=
      ⟨Nat.lt_succ_of_lt h.start_lt, Nat.lt_succ_of_lt h'.start_lt⟩
    have hleft := hagrees.left (grows_push hproper)
    have hinst := getElem?_of_agrees_push (hagrees.right h.grows)
    refine carries_split (fun p => ?_) (h.carries program hleft) (h'.carries program hleft)
    rw [move, hinst]

/-- A fork carries a round and what leaves, in the order of preference. -/
theorem written_fork (greedy : Bool) {round leave : Nat} (h : Written code mid round next ways)
    (h' : Written code mid leave next ways') :
    Written code (mid.push (fork greedy round leave)) mid.size next
      fun p => if greedy then ways p ++ ways' p else ways' p ++ ways p := by
  cases greedy with
  | true => exact written_choice h h'
  | false => exact written_choice h' h

end

/-! ## Repetitions -/

section
variable {writer : Writer} {ways : Place → List Way}

/-- A writer used several times writes the ways of so many rounds. -/
theorem Writes.times (h : Writes writer ways) (n : Nat) :
    Writes (times writer n) (exactly ways n) := by
  induction n with
  | zero => exact .done
  | succ n ih => exact fun next code hnext => ih.written (h next code hnext)

/-- A writer used up to several times writes the ways of up to so many rounds. -/
theorem Writes.atMost (h : Writes writer ways) (greedy : Bool) (n : Nat) {code mid : Array Inst}
    {leave inner k : Nat} (hleave : leave < code.size)
    (hinner : Written code mid inner leave (rounds greedy ways k)) :
    Written code (atMost greedy writer leave n inner mid).2
      (atMost greedy writer leave n inner mid).1 leave
      (rounds greedy ways (k + n)) := by
  induction n generalizing mid inner k with
  | zero => exact hinner
  | succ n ih =>
      have hround := h.written hinner
      have hdone := written_done hround.grows (Nat.lt_of_lt_of_le hleave hround.grows.size_le)
      have hmore : Written code _ _ leave (rounds greedy ways (k + 1)) :=
        written_fork greedy hround hdone
      rw [← Nat.add_assoc, Nat.add_right_comm]
      exact ih hmore

/-- The code of a loop: the choice between a round and leaving is written when the round is. -/
theorem written_loop (h : Writes writer ways) (hways : Takes ways) (greedy : Bool) {leave : Nat}
    {code : Array Inst} (hleave : leave < code.size) :
    let round := writer code.size (code.push .accept)
    let code' := round.2.setIfInBounds code.size (fork greedy round.1 leave)
    Written code code' code.size leave (loop greedy ways)
      ∧ Written code code' round.1 leave fun p => andThen (ways p) (loop greedy ways) := by
  intro round code'
  have hround : Written (code.push .accept) round.2 round.1 code.size ways := h _ _ (by simp)
  have hlt : code.size < round.2.size := Nat.lt_of_lt_of_le (by simp) hround.grows.size_le
  have hgrows : Grows code code' := by
    -- the fork is put into its slot last, when both places it leads to are written
    refine ((@grows_push code .accept trivial).trans hround.grows).set (Nat.le_refl _) ?_
    have hleave' := Nat.lt_trans hleave hlt
    cases greedy with
    | true => exact ⟨hround.start_lt, hleave'⟩
    | false => exact ⟨hleave', hround.start_lt⟩
  have hcarries : ∀ program, Agrees program code code' → Carries program round.1 code.size ways
      ∧ Carries program code.size leave (loop greedy ways) := by
    intro program hagrees
    -- the round lies behind the slot of the fork, so setting that slot leaves it alone
    have hback : Carries program round.1 code.size ways := by
      refine hround.carries program fun i hi hlt' => ?_
      have hne : code.size ≠ i := by
        rw [Array.size_push] at hi
        omega
      rw [hagrees i (by rw [Array.size_push] at hi; omega) (by simpa [code'] using hlt')]
      exact Array.getElem?_setIfInBounds_ne hne
    refine ⟨hback, carries_loop hways hback fun p => ?_⟩
    have hinst : program[code.size]? = some (fork greedy round.1 leave) := by
      rw [hagrees code.size (Nat.le_refl _) (by simpa [code'] using hlt)]
      exact Array.getElem?_setIfInBounds_self_of_lt hlt
    rw [move, hinst]
    cases greedy <;> rfl
  refine ⟨⟨by simpa [code'] using hlt, hgrows, fun program hagrees => (hcarries program hagrees).2⟩,
    ⟨by simpa [code'] using hround.start_lt, hgrows, fun program hagrees => ?_⟩⟩
  obtain ⟨hback, hloop⟩ := hcarries program hagrees
  exact hback.andThen hloop

/-- A writer in a loop writes the ways of any number of rounds. -/
theorem Writes.anyNumber (h : Writes writer ways) (hways : Takes ways) (greedy : Bool) :
    Writes (anyNumber greedy writer) (loop greedy ways) :=
  fun _ _ hnext => (written_loop h hways greedy hnext).1

/-- A writer in a loop behind itself writes the ways of one or more rounds. -/
theorem Writes.oneOrMore (h : Writes writer ways) (hways : Takes ways) (greedy : Bool) :
    Writes (oneOrMore greedy writer) fun p => andThen (ways p) (loop greedy ways) :=
  fun _ _ hnext => (written_loop h hways greedy hnext).2

end

/-! ## The program of a pattern -/

/-- The writers of a list of nodes are theirs, the last one first. -/
theorem writersOf_eq (found : List Writer) (as : List Node) :
    writersOf found as = (as.map Node.emit).reverse ++ found := by
  induction as generalizing found with
  | nil => rfl
  | cons a as ih =>
      rw [writersOf, ih, List.map_cons, List.reverse_cons, List.append_assoc]
      rfl

/-- A text is written character by character. -/
theorem writes_text (cs : List Char) : Writes (Node.text cs).emit (textWays cs) := by
  induction cs with
  | nil => exact .done
  | cons d cs ih =>
      -- the last character is written first, and leads to what is behind
      intro next code hnext
      have hrest := ih next code hnext
      have hpush : Writes (fun next => push (.char d next)) (textWays [d]) := by
        intro next code hnext
        refine written_push hnext fun program hinst p => ?_
        rw [move, hinst, textWays]
        cases p.rest with
        | nil => exact .inl ⟨rfl, rfl⟩
        | cons c rest =>
            dsimp only
            split
            · exact .inr ⟨_, _, rfl, rfl⟩
            · exact .inl ⟨rfl, rfl⟩
      have heq : (Node.text (d :: cs)).emit next code
          = (do let n ← (Node.text cs).emit next; push (.char d n) : StateM (Array Inst) Nat)
            code := by
        rw [Node.emit, Node.emit, List.reverse_cons, List.foldlM_append]
        rfl
      rw [heq]
      refine (hpush.written hrest).congr fun p => ?_
      rw [textWays, textWays]
      split
      · rfl
      · split
        · exact andThen_singleton _ _
        · rfl

/-- The branches with one more behind them are a fork to this one and the others. -/
theorem branches_concat (writers : List Writer) (hne : writers ≠ []) (writer : Writer)
    (next : Nat) :
    branches (writers ++ [writer]) next = (do
      let others ← branches writers next
      push (.split (← writer next) others) : StateM (Array Inst) Nat) := by
  cases writers with
  | nil => exact absurd rfl hne
  | cons last earlier =>
      rw [List.cons_append, branches, branches, bind_assoc]
      congr 1
      funext others
      rw [List.foldlM_append]
      congr 1

mutual

/-- The program of a pattern goes its ways. -/
theorem Node.writes : (a : Node) → a.Steady → Writes a.emit a.ways
  | .empty, _ => .done
  | .text cs, _ => writes_text cs
  | .one set _, _ => by
      intro next code hnext
      refine written_push hnext fun program hinst p => ?_
      -- one character is taken where there is one and the set holds it, else the run fails
      rw [move, hinst, Node.ways]
      cases p.rest with
      | nil => exact .inl ⟨rfl, rfl⟩
      | cons c rest =>
          dsimp only
          split
          · exact .inr ⟨_, _, rfl, rfl⟩
          · exact .inl ⟨rfl, rfl⟩
  | .look l, _ => by
      intro next code hnext
      refine written_push hnext fun program hinst p => ?_
      rw [move, hinst, Node.ways]
      dsimp only
      split
      · exact .inr ⟨_, _, rfl, rfl⟩
      · exact .inl ⟨rfl, rfl⟩
  | .repeated least most? greedy a, h => by
      have ha := a.writes h.1
      intro next code hnext
      -- a bound gives that many optional rounds behind the least number
      cases most? with
      | some most =>
          have hdone : Written code code next next (rounds greedy a.ways 0) :=
            written_done (.refl code) hnext
          have hrounds := ha.atMost greedy (most - least) hnext hdone
          rw [Nat.zero_add] at hrounds
          exact (ha.times least).written hrounds
      | none =>
          have hnull := h.2 rfl
          have htakes : Takes a.ways := (hnull ▸ a.opens h.1).takes
          -- without a bound the body must take something, else the loop would not end
          cases least with
          | zero =>
              have heq : (Node.repeated 0 none greedy a).emit = anyNumber greedy a.emit := by
                funext next
                rw [Node.emit, if_neg (by rw [hnull]; exact Bool.false_ne_true)]
              rw [heq]
              exact (ha.anyNumber htakes greedy next code hnext).congr fun p =>
                (andThen_singleton p _).symm
          | succ n =>
              have hmore := ha.oneOrMore htakes greedy next code hnext
              exact ((ha.times n).written hmore).congr fun p => (andThen_assoc _ _ _).symm
  | .group i _ a, h => by
      intro next code hnext
      -- a group is its body between the two marks of its slots
      have hstop : Written code _ _ next fun p => [(p, [(2 * i + 1, p.offset)])] :=
        @written_push _ _ _ (.save (2 * i + 1) next) hnext fun program hinst p =>
          .inr ⟨p, [(2 * i + 1, p.offset)], by rw [move, hinst], rfl⟩
      have hbody := (a.writes h).written hstop
      have hstart : Writes (fun next => push (.save (2 * i) next)) fun p =>
          [(p, [(2 * i, p.offset)])] :=
        fun next code hnext => @written_push _ _ _ (.save (2 * i) next) hnext fun program hinst p =>
          .inr ⟨p, [(2 * i, p.offset)], by rw [move, hinst], rfl⟩
      refine (hstart.written hbody).congr fun p => ?_
      simp only [andThen, Node.ways, List.flatMap_singleton, List.map_cons, List.map_nil,
        List.map_flatMap, List.cons_append, List.nil_append]
      exact List.map_eq_flatMap.symm
  | .row as, h => by
      have has := writes_row as h
      intro next code hnext
      have hrow := has next code hnext
      rw [Node.emit, writersOf_eq, List.append_nil]
      exact hrow
  | .choice as, h => by
      have has := writes_choice as h
      intro next code hnext
      rw [Node.emit, writersOf_eq, List.append_nil]
      exact has next code hnext

/-- A row is written node by node, the last one first. -/
theorem writes_row : (as : List Node) → AllSteady as →
    Writes (fun next => (as.map Node.emit).reverse.foldlM (fun next writer => writer next) next)
      (rowWays as)
  | [], _ => .done
  | a :: as, h => by
      intro next code hnext
      have hrest := writes_row as h.2 next code hnext
      have hrow := (a.writes h.1).written hrest
      dsimp only
      rw [List.map_cons, List.reverse_cons, List.foldlM_append]
      exact hrow

/-- A choice is written branch by branch behind forks. -/
theorem writes_choice : (as : List Node) → AllSteady as →
    Writes (branches (as.map Node.emit).reverse) (choiceWays as)
  | [], _ => by
      intro next code hnext
      refine written_push hnext fun program hinst p => .inl ⟨?_, rfl⟩
      rw [move, hinst]
      cases p.rest with
      | nil => rfl
      | cons c rest => exact if_neg (by rw [CharSet.contains_empty]; exact Bool.false_ne_true)
  | a :: as, h => by
      intro next code hnext
      have ha := a.writes h.1
      cases as with
      | nil => exact (ha next code hnext).congr fun p => (List.append_nil _).symm
      | cons b bs =>
          have hothers := writes_choice (b :: bs) h.2 next code hnext
          have hnext' := Nat.lt_of_lt_of_le hnext hothers.grows.size_le
          have hfirst := ha next _ hnext'
          rw [List.map_cons, List.reverse_cons, branches_concat _ (by simp)]
          exact written_choice (hfirst.behind hothers.grows) (hothers.kept hfirst.grows)

end

/-- Code that was written from nothing goes on to earlier instructions, choices apart. -/
-- each instruction leads to one written before it, so all jumps go down
theorem descends_of_grows {code : Array Inst} (h : Grows #[] code) : Descends code where
  go {pc next p q s} hgo := by
    rw [move] at hgo
    split at hgo
    · -- neither an end nor a branch goes on to one place
      cases hgo
    · cases hgo
    · next d next' hinst =>
      have hproper : next' < pc := h.proper pc _ (Nat.zero_le _) hinst
      split at hgo
      · cases hgo
      · split at hgo <;> cases hgo
        exact hproper
    · next set next' hinst =>
      have hproper : next' < pc := h.proper pc _ (Nat.zero_le _) hinst
      split at hgo
      · cases hgo
      · split at hgo <;> cases hgo
        exact hproper
    · next l next' hinst =>
      have hproper : next' < pc := h.proper pc _ (Nat.zero_le _) hinst
      split at hgo <;> cases hgo
      exact hproper
    · next slot next' hinst =>
      have hproper : next' < pc := h.proper pc _ (Nat.zero_le _) hinst
      cases hgo
      exact hproper
    · cases hgo
  both {pc first second p} hboth := by
    rw [move] at hboth
    split at hboth
    · cases hboth
    · cases hboth
    · split at hboth
      · cases hboth
      · split at hboth <;> cases hboth
    · split at hboth
      · cases hboth
      · split at hboth <;> cases hboth
    · split at hboth <;> cases hboth
    · cases hboth
    · next first' second' hinst =>
      have hproper : first' < code.size ∧ second' < code.size := h.proper pc _ (Nat.zero_le _) hinst
      cases hboth
      refine ⟨Nat.lt_of_not_le fun hle => ?_, hproper⟩
      rw [Array.getElem?_eq_none hle] at hinst
      cases hinst

/-- The first way is the one that an accepting place finishes. -/
theorem finish_accept (ways : List Way) : finish (fun q => some (q, [])) ways = ways.head? := by
  cases ways with
  | nil => rfl
  | cons v ways => rfl

section
variable {a : Node} (h : a.Steady)
include h

/-- The program of a node has the ways of the node as group zero written in it. -/
theorem Node.program_written :
    Written #[.accept] a.program.code a.program.start 0 (Node.group 0 none a).ways :=
  (Node.group 0 none a).writes h 0 #[.accept] (by decide)

/-- The program of a node has grown from nothing. -/
theorem Node.program_grows : Grows #[] a.program.code :=
  (@grows_push #[] .accept trivial).trans (a.program_written h).grows

/-- The program of a pattern leads to the first of its ways. -/
theorem Node.program_leads (p : Place) :
    ∃ n, Leads a.program.code n a.program.start p ((Node.group 0 none a).ways p).head? := by
  have hwritten := a.program_written h
  rw [← finish_accept]
  refine hwritten.carries _ (fun _ _ _ => rfl) p _ fun v _ => ⟨0, .accept ?_⟩
  rw [move, hwritten.grows.kept 0 (by decide)]
  rfl

/-- No way begins with a character that the program leaves out. -/
theorem Node.program_firsts {set : CharSet} (hset : a.program.firsts? = some set) {p : Place}
    (hway : ((Node.group 0 none a).ways p).head? ≠ none) :
    ∃ c rest, p.rest = c :: rest ∧ set.contains c = true := by
  have hgroup : (Node.group 0 none a).Steady := h
  cases hways : (Node.group 0 none a).ways p with
  | nil => exact absurd (by rw [hways]; rfl) hway
  | cons v ways =>
      change (if a.nullable then none else some a.firsts) = some set at hset
      obtain ⟨-, hnull⟩ | hb :=
        (Node.group 0 none a).opens hgroup p v (by rw [hways]; exact List.mem_cons_self)
      · rw [if_pos (show a.nullable = true from hnull)] at hset
        cases hset
      · split at hset
        · cases hset
        · cases hset
          exact hb.head

/-- A search finds the first place at which there is a way, and the way that is preferred there. -/
theorem find?_ofNode (text : List Char) : (ofNode a).find? text =
    (Place.all (.start text)).findSome? fun p =>
      ((Node.group 0 none a).ways p).head?.map fun (stop, saves) =>
      (ofNode a).toMatch ⟨p, stop, saves⟩ := by
  have hdescends := descends_of_grows (a.program_grows h)
  have hsearch := @Program.search_eq a.program hdescends (a.program_written h).start_lt
    (.start text) _
    (fun p _ => a.program_leads h p) fun set hset p _ hway => a.program_firsts h hset hway
  change Option.map _ (a.program.search (stepBound a.program.code (Place.start text).rest.length) _)
    = _
  rw [hsearch, List.map_findSome?]
  congr 1
  funext p
  exact Option.map_map _ _ _

end

/-! ## Patterns at the start of a text -/

/-- A place in a text is its start or has text in front. -/
theorem Place.eq_or_offset_pos {text : List Char} {p : Place} (h : p ∈ (Place.start text).all) :
    p = .start text ∨ 0 < p.offset := by
  cases text with
  | nil => exact .inl (List.mem_singleton.1 h)
  | cons c rest =>
      rcases List.mem_cons.1 h with rfl | h
      · exact .inl rfl
      · have hle : 0 + c.utf8Size ≤ p.offset := @offset_le ⟨0 + c.utf8Size, c, rest⟩ p h
        have hpos := c.utf8Size_pos
        exact .inr (by omega)

/-- A pattern that starts with the condition that the text starts matches there or nowhere. -/
theorem find?_anchored {items : List Node} (h : AllSteady items) (text : List Char) :
    (ofNode (.row (.look .textStart :: items))).find? text =
      (rowWays items (.start text)).head?.map fun (stop, saves) =>
        (ofNode (.row (.look .textStart :: items))).toMatch
          ⟨.start text, stop, (1, stop.offset) :: (saves ++ [(0, 0)])⟩ := by
  have hsteady : (Node.row (.look .textStart :: items)).Steady := ⟨trivial, h⟩
  have hways : ∀ p : Place, (Node.row (.look .textStart :: items)).ways p =
      if p.offset == 0 then rowWays items p else [] := by
    intro p
    rw [Node.ways, rowWays, Node.ways, Look.holds]
    split
    · exact andThen_singleton p _
    · rfl
  have hstart : (Node.group 0 none (.row (.look .textStart :: items))).ways (.start text) =
      (rowWays items (.start text)).map fun (q, s) => (q, (1, q.offset) :: (s ++ [(0, 0)])) := by
    rw [Node.ways, hways]
    rfl
  rw [find?_ofNode hsteady]
  cases hfirst : (rowWays items (.start text)).head? with
  | none =>
      rw [Option.map_none, List.findSome?_eq_none_iff]
      intro p hp
      rcases Place.eq_or_offset_pos hp with rfl | hpos
      · rw [hstart, List.head?_map, hfirst]
        rfl
      · rw [Node.ways, hways, if_neg (by simpa using Nat.ne_of_gt hpos)]
        rfl
  | some v =>
      -- the anchor holds at the start only, which is the first place
      have hall : ∃ others, (Place.start text).all = .start text :: others := by
        cases text with
        | nil => exact ⟨[], rfl⟩
        | cons c rest => exact ⟨_, rfl⟩
      obtain ⟨others, hall⟩ := hall
      rw [hall, List.findSome?_cons, hstart, List.head?_map, hfirst]
      rfl

/-- A pattern that is bound to the start of a text finds nothing if its items read nothing there. -/
theorem find?_anchored_eq_none {items : List Node} (h : AllSteady items) {text : List Char}
    (hnone : ∀ v, v ∉ rowWays items (.start text)) :
    (ofNode (.row (.look .textStart :: items))).find? text = none := by
  rw [find?_anchored h, List.eq_nil_iff_forall_not_mem.2 hnone]
  rfl

/-- A group is what stands between the places that were saved for it. -/
theorem group?_toMatch {p : Pattern} {f : Found} {i : Nat} (hi : i ≤ p.groupCount)
    {front middle back : List Char} (hrest : f.start.rest = front ++ (middle ++ back))
    (hstart : f.saves.lookup (2 * i) = some (f.start.offset + Text.byteLength front))
    (hstop : f.saves.lookup (2 * i + 1)
      = some (f.start.offset + Text.byteLength front + Text.byteLength middle)) :
    (p.toMatch f).group? i = some ⟨f.start.offset + Text.byteLength front,
      f.start.offset + Text.byteLength front + Text.byteLength middle, String.ofList middle⟩ := by
  have hslice : Text.slice f.start.rest (Text.byteLength front)
      (Text.byteLength front + Text.byteLength middle) = middle := by
    rw [hrest]
    exact Text.slice_append front middle back
  rw [Match.group?, toMatch, Array.getD_eq_getD_getElem?, List.getElem?_toArray, List.getElem?_map,
    List.getElem?_range (Nat.lt_succ_of_le hi), Option.map_some, Option.getD_some, hstart, hstop]
  show some (Group.mk _ _ (String.ofList (Text.slice f.start.rest (_ - _) (_ - _)))) = _
  rw [Nat.add_assoc, Nat.add_sub_cancel_left, Nat.add_sub_cancel_left, hslice]

/-- The text of a group with a name. -/
theorem textOf_found {p : Pattern} {f : Found} {name : String} {i : Nat}
    (hname : p.names.lookup name = some i) (hi : i ≤ p.groupCount) {front middle back : List Char}
    (hrest : f.start.rest = front ++ (middle ++ back))
    (hstart : f.saves.lookup (2 * i) = some (f.start.offset + Text.byteLength front))
    (hstop : f.saves.lookup (2 * i + 1)
      = some (f.start.offset + Text.byteLength front + Text.byteLength middle)) :
    (p.toMatch f).textOf name = String.ofList middle := by
  have hnamed : (p.toMatch f).named? name = some _ :=
    Option.bind_eq_some_iff.2 ⟨i, hname, group?_toMatch hi hrest hstart hstop⟩
  rw [Match.textOf, hnamed]
  rfl

/-- The text of a group of a match that starts with the text. -/
theorem textOf_toMatch {p : Pattern} {name : String} {i : Nat}
    (hname : p.names.lookup name = some i) (hi : i ≤ p.groupCount)
    {text front middle back : List Char} (htext : text = front ++ (middle ++ back)) {stop : Place}
    {saves : Saves} (hstart : saves.lookup (2 * i) = some (Text.byteLength front))
    (hstop : saves.lookup (2 * i + 1) = some (Text.byteLength front + Text.byteLength middle)) :
    (p.toMatch ⟨.start text, stop, saves⟩).textOf name = String.ofList middle :=
  textOf_found hname hi htext (by rw [hstart]; exact congrArg some (Nat.zero_add _).symm)
    (by rw [hstop]; exact congrArg some (congrArg (· + _) (Nat.zero_add _).symm))

end CodeAtlas.Pattern
