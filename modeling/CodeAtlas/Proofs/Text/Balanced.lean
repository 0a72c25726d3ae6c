import CodeAtlas.Proofs.Text.Tokens

/-!
# Closing brackets

The bracket that closes the one in front of a text is the last of the shortest tokens, but for none
at all, of which as many are the one bracket as are the other. What is inside comments and literals
has no part in it.
-/

namespace CodeAtlas.Text

/-! ## Closing brackets -/

section
variable {lexis : Lexis} {opener closer : Char} {text rest : List Char}

/-- What the search for a closing bracket does with the first token. -/
theorem closerFrom?_token {t : Token} (h : token? lexis text = some (t, rest))
    (depth offset : Nat) :
    closerFrom? lexis opener closer depth offset text =
      if t = .char opener then closerFrom? lexis opener closer (depth + 1) (offset + t.size) rest
      else if t = .char closer then
        if depth ≤ 1 then some offset
        else closerFrom? lexis opener closer (depth - 1) (offset + t.size) rest
      else closerFrom? lexis opener closer depth (offset + t.size) rest := by
  rw [closerFrom?]
  split
  · next hnone => cases h.symm.trans hnone
  · next hsome =>
    cases h.symm.trans hsome
    rfl

/-- Where there is no token, no bracket closes. -/
theorem closerFrom?_eq_none (h : token? lexis text = none) (depth offset : Nat) :
    closerFrom? lexis opener closer depth offset text = none := by
  rw [closerFrom?]
  split
  · rfl
  · next hsome => cases h.symm.trans hsome

/-- How many more of the tokens are the opening bracket than are the closing one. -/
def excess (opener closer : Char) (ts : List Token) : Int :=
  ts.count (.char opener) - ts.count (.char closer)

/-- The excess of a first token and others is that of the token and that of the others. -/
theorem excess_cons (t : Token) (ts : List Token) : excess opener closer (t :: ts) =
    (if t = .char opener then 1 else 0) - (if t = .char closer then 1 else 0)
      + excess opener closer ts := by
  simp only [excess, List.count_cons, beq_iff_eq]
  split <;> split <;> simp <;> omega

/-- The excesses of tokens behind each other add up. -/
theorem excess_append (ts us : List Token) :
    excess opener closer (ts ++ us) = excess opener closer ts + excess opener closer us := by
  simp only [excess, List.count_append]
  omega

/-- Open brackets, `depth` of them, are all closed by the last token, and not earlier. -/
structure Closes (opener closer : Char) (depth : Int) (ts : List Token) (t : Token) : Prop where
  closed : depth + excess opener closer (ts ++ [t]) = 0
  notYet : ∀ p, p <+: ts → depth + excess opener closer p ≠ 0

/-- A token closes at once if it makes the depth zero. -/
theorem closes_nil_iff {depth : Int} {t : Token} : Closes opener closer depth [] t ↔
    depth ≠ 0 ∧ depth + excess opener closer [t] = 0 := by
  constructor
  · rintro ⟨hclosed, hnot⟩
    exact ⟨by simpa [excess] using hnot [] (List.prefix_refl []), hclosed⟩
  · rintro ⟨hdepth, hclosed⟩
    refine ⟨hclosed, fun p hp => ?_⟩
    rw [List.prefix_nil.1 hp]
    simpa [excess] using hdepth

/-- A token behind others closes if it does so at the depth that the first one leaves. -/
theorem closes_cons_iff {depth : Int} {u t : Token} {ts : List Token} :
    Closes opener closer depth (u :: ts) t ↔
      depth ≠ 0 ∧ Closes opener closer (depth + excess opener closer [u]) ts t := by
  have hcons : ∀ us, depth + excess opener closer (u :: us)
      = depth + excess opener closer [u] + excess opener closer us := by
    intro us
    rw [excess_cons u us, excess_cons u []]
    simp [excess]
    omega
  constructor
  · rintro ⟨hclosed, hnot⟩
    have hdepth := hnot [] List.nil_prefix
    refine ⟨by simpa [excess] using hdepth, (hcons _).symm.trans hclosed, fun p hp => ?_⟩
    exact hcons p ▸ hnot (u :: p) (List.cons_prefix_cons.2 ⟨rfl, hp⟩)
  · rintro ⟨hdepth, hclosed, hnot⟩
    refine ⟨(hcons _).trans hclosed, fun p hp => ?_⟩
    cases p with
    | nil => simpa [excess] using hdepth
    | cons v p =>
        obtain ⟨rfl, hp'⟩ := List.cons_prefix_cons.1 hp
        exact hcons p ▸ hnot p hp'

/-- The bracket at `stop` closes `depth` brackets that are open in front of a text at `offset`. -/
def FoundAt (lexis : Lexis) (opener closer : Char) (depth : Int) (offset stop : Nat)
    (text : List Char) : Prop :=
  ∃ ts t back, Cuts lexis text (ts ++ [t]) back ∧ Closes opener closer depth ts t
    ∧ stop = offset + bytesOf ts

variable (hleads : ∀ lead ∈ lexis.lineComments, '\n' ∉ lead)
include hleads

/-- The tokens of a text are its first token and those behind it. -/
theorem exists_cuts_iff {t : Token} (ht : token? lexis text = some (t, rest))
    {p : List Token → Token → Prop} :
    (∃ ts u back, Cuts lexis text (ts ++ [u]) back ∧ p ts u) ↔
      p [] t ∨ ∃ ts u back, Cuts lexis rest (ts ++ [u]) back ∧ p (t :: ts) u := by
  constructor
  · rintro ⟨ts, u, back, hcuts, hp⟩
    cases ts with
    | nil =>
        cases hcuts with
        | cons hu hnil =>
            cases ht.symm.trans (token?_of_takes hleads hu)
            exact .inl hp
    | cons v ts =>
        cases hcuts with
        | cons hv hts =>
            cases ht.symm.trans (token?_of_takes hleads hv)
            exact .inr ⟨ts, u, back, hts, hp⟩
  · rintro (hp | ⟨ts, u, back, hcuts, hp⟩)
    · exact ⟨[], t, rest, .cons (takes_of_token? ht) (.nil rest), hp⟩
    · exact ⟨t :: ts, u, back, .cons (takes_of_token? ht) hcuts, hp⟩

/-- What closes is found at the first token or behind it. -/
theorem foundAt_iff {t : Token} (ht : token? lexis text = some (t, rest)) {depth : Int}
    (hdepth : depth ≠ 0) {offset stop : Nat} : FoundAt lexis opener closer depth offset stop text ↔
      (depth + excess opener closer [t] = 0 ∧ stop = offset)
        ∨ FoundAt lexis opener closer (depth + excess opener closer [t]) (offset + t.size)
          stop rest := by
  rw [FoundAt, exists_cuts_iff hleads ht]
  simp only [closes_nil_iff, closes_cons_iff, bytesOf_nil, bytesOf_cons, Nat.add_zero,
    ← Nat.add_assoc, ne_eq, hdepth, not_false_eq_true, true_and]
  rfl

omit hleads in
/-- At depth zero nothing is found, for nothing is open. -/
theorem not_foundAt_zero {offset stop : Nat} :
    ¬ FoundAt lexis opener closer 0 offset stop text := by
  rintro ⟨ts, t, back, -, hcloses, -⟩
  exact hcloses.notYet [] List.nil_prefix (by simp [excess])

/-- The search finds what closes an opening bracket. -/
theorem closerFrom?_eq_some_iff (hne : opener ≠ closer) {depth : Nat} (hdepth : 0 < depth)
    {offset stop : Nat} : closerFrom? lexis opener closer depth offset text = some stop ↔
      FoundAt lexis opener closer depth offset stop text := by
  have hother : Token.char closer ≠ .char opener := fun h => hne (Token.char.inj h).symm
  have hsingle : ∀ t : Token, excess opener closer [t] =
      (if t = .char opener then 1 else 0) - (if t = .char closer then 1 else 0) := by
    intro t
    rw [excess_cons]
    simp [excess]
  have hpos : (depth : Int) ≠ 0 := by omega
  fun_induction closerFrom? lexis opener closer depth offset text with
  | case1 depth offset text hnone =>
      -- no token is left, so nothing closes
      simp only [reduceCtorEq, false_iff]
      rintro ⟨ts, t, back, hcuts, -⟩
      generalize hus : ts ++ [t] = us at hcuts
      cases hcuts with
      | nil => simp at hus
      | cons ht _ => cases hnone.symm.trans (token?_of_takes hleads ht)
  | case2 depth offset text rest ht _ ih =>
      -- an opener goes one level deeper
      rw [foundAt_iff hleads ht hpos, hsingle, if_pos rfl, if_neg hother.symm]
      refine (ih (depth + 1) (by omega) (by omega)).trans ?_
      simp
      omega
  | case3 depth offset text rest hlast ht hopen _ =>
      -- the closer of the outermost level is what is looked for
      obtain rfl : depth = 1 := by omega
      rw [foundAt_iff hleads ht hpos, hsingle, if_pos rfl, if_neg hother]
      simp [not_foundAt_zero, eq_comm]
  | case4 depth offset text rest hdeep ht _ hopen ih =>
      -- a closer of an inner level
      rw [foundAt_iff hleads ht hpos, hsingle, if_pos rfl, if_neg hother]
      refine (ih (depth - 1) (by omega) (by omega)).trans ?_
      have hcast : ((depth - 1 : Nat) : Int) = depth + (0 - 1) := by omega
      rw [hcast]
      simp
      omega
  | case5 depth offset text t rest ht _ hopen hclose ih =>
      -- any other token leaves the depth as it is
      rw [foundAt_iff hleads ht hpos, hsingle, if_neg hopen, if_neg hclose]
      refine (ih depth (by omega) (by omega)).trans ?_
      simp
      omega

end

/-! ## The bracket that is found -/

/-- As many of the tokens are the closing bracket as are the opening one. -/
def Balances (opener closer : Char) (ts : List Token) : Prop :=
  ts.count (.char opener) = ts.count (.char closer)

instance {opener closer : Char} {ts : List Token} : Decidable (Balances opener closer ts) :=
  inferInstanceAs (Decidable (_ = _))

/-- Brackets of tokens balance if the excess is zero. -/
theorem balances_iff {opener closer : Char} {ts : List Token} :
    Balances opener closer ts ↔ excess opener closer ts = 0 := by
  rw [Balances, excess]
  omega

/-- Tokens balance with one more, and no beginning of them does but the empty one. -/
structure Shortest (opener closer : Char) (ts : List Token) (t : Token) : Prop where
  balances : Balances opener closer (ts ++ [t])
  notYet : ∀ p, p <+: ts → p ≠ [] → ¬ Balances opener closer p

/-- The character that is a token, if the token is no comment and no literal. -/
def Token.single? : Token → Option Char
  | .char c => some c
  | _ => none

/-- A list with a property that the empty one need not have starts with a shortest one. -/
theorem exists_shortest {α : Type} {p : List α → Prop} {ts : List α} (hne : ts ≠ []) (h : p ts) :
    ∃ us u vs, ts = us ++ u :: vs ∧ p (us ++ [u]) ∧ ∀ q, q <+: us → q ≠ [] → ¬ p q := by
  induction hn : ts.length using Nat.strongRecOn generalizing ts with
  | ind n ih =>
      by_cases hshort : ∃ q, q <+: ts.dropLast ∧ q ≠ [] ∧ p q
      · obtain ⟨q, hq, hqne, hpq⟩ := hshort
        have hlt : q.length < n := by
          have hle := hq.length_le
          have hpos := List.length_pos_iff.2 hne
          rw [List.length_dropLast] at hle
          omega
        obtain ⟨us, u, vs, rfl, hus, hnot⟩ := ih q.length hlt hqne hpq rfl
        obtain ⟨back, hback⟩ := hq.trans (List.dropLast_prefix ts)
        exact ⟨us, u, vs ++ back, by rw [← hback]; simp, hus, hnot⟩
      · refine ⟨ts.dropLast, ts.getLast hne, [], ?_, ?_, ?_⟩
        · exact (List.dropLast_concat_getLast hne).symm
        · rwa [List.dropLast_concat_getLast hne]
        · exact fun q hq hqne hpq => hshort ⟨q, hq, hqne, hpq⟩

section
variable {lexis : Lexis} (hlexis : lexis ∈ Lexis.all) {opener closer : Char}
  (hpair : closerOf? opener = some closer) {text rest : List Char}

include hpair in
/-- Opening and closing brackets are different, and there are four kinds. -/
theorem opener_cases : opener ≠ closer
    ∧ (opener = '(' ∨ opener = '[' ∨ opener = '\x7b' ∨ opener = '<') := by
  rw [closerOf?.eq_def] at hpair
  split at hpair
  all_goals first | (cases hpair; decide) | cases hpair

include hlexis hpair in
/-- An opening bracket is a token of its own. -/
theorem takes_opener (rest : List Char) : Takes lexis (opener :: rest) (.char opener) rest := by
  have hfacts : ∀ lexis ∈ Lexis.all, opener ∉ lexis.quotes
      ∧ (∀ lead ∈ lexis.lineComments, lead ≠ [] ∧ lead.head? ≠ some opener)
      ∧ ∀ d ∈ lexis.blockComment?.toList, d.lead ≠ [] ∧ d.lead.head? ≠ some opener := by
    obtain ⟨-, rfl | rfl | rfl | rfl⟩ := opener_cases hpair
    all_goals decide
  obtain ⟨hquote, hlines, hblocks⟩ := hfacts lexis hlexis
  have hhead : ∀ {lead : List Char}, lead ≠ [] → lead <+: opener :: rest →
      lead.head? = some opener := by
    rintro lead hne ⟨back, hback⟩
    obtain ⟨c, lead, rfl⟩ := List.exists_cons_of_ne_nil hne
    exact congrArg some (List.cons.inj hback).1
  refine .char ?_ ?_ hquote
  · rintro ⟨d, hd, hlead⟩
    obtain ⟨hne, hhead'⟩ := hblocks d (Option.mem_toList.2 hd)
    exact hhead' (hhead hne hlead)
  · rintro ⟨lead, hmem, hlead⟩
    obtain ⟨hne, hhead'⟩ := hlines lead hmem
    exact hhead' (hhead hne hlead)

end

section
variable {lexis : Lexis} {opener closer : Char}

/-- What is inside comments and literals has no part in the count of brackets. -/
theorem count_single? (c : Char) (ts : List Token) :
    ts.count (.char c) = (ts.map Token.single?).count (some c) := by
  induction ts with
  | nil => rfl
  | cons t ts ih =>
      rw [List.map_cons, List.count_cons, List.count_cons, ih]
      cases t <;> simp [Token.single?]

/-- Whether brackets balance is told by the tokens of one character. -/
theorem balances_congr {ts us : List Token} (h : ts.map Token.single? = us.map Token.single?) :
    Balances opener closer ts ↔ Balances opener closer us := by
  rw [Balances, Balances]
  simp only [count_single?, h]

/-- Whether a token closes first is told by the tokens of one character. -/
theorem shortest_congr {ts us : List Token} {t u : Token}
    (h : (ts ++ [t]).map Token.single? = (us ++ [u]).map Token.single?)
    (hts : Shortest opener closer ts t) : Shortest opener closer us u := by
  have hinit : us.map Token.single? = ts.map Token.single? := by
    rw [List.map_append, List.map_append] at h
    exact (List.append_inj' h rfl).1.symm
  refine ⟨(balances_congr h).1 hts.balances, fun p hp hne hpbal => ?_⟩
  have htake : (ts.take p.length).map Token.single? = p.map Token.single? := by
    rw [List.prefix_iff_eq_take.1 hp, List.map_take, List.map_take, hinit, List.length_take,
      Nat.min_eq_left hp.length_le]
  refine hts.notYet (ts.take p.length) (List.take_prefix ..) (fun hnil => hne ?_)
    ((balances_congr htake).2 hpbal)
  rw [hnil] at htake
  exact List.map_eq_nil_iff.1 htake.symm

/-- The bracket that closes the one in front of a text closes one that is open. -/
theorem shortest_iff (hne : opener ≠ closer) {ts : List Token} {t : Token} :
    Shortest opener closer (.char opener :: ts) t ↔ Closes opener closer 1 ts t := by
  have hcons : ∀ us, excess opener closer (.char opener :: us) = 1 + excess opener closer us := by
    intro us
    rw [excess_cons, if_pos rfl, if_neg (fun h => hne (Token.char.inj h))]
    omega
  constructor
  · rintro ⟨hbal, hnot⟩
    refine ⟨(hcons _).symm.trans (balances_iff.1 hbal), fun p hp hzero => ?_⟩
    exact hnot (_ :: p) (List.cons_prefix_cons.2 ⟨rfl, hp⟩) (List.cons_ne_nil _ _)
      (balances_iff.2 ((hcons p).trans hzero))
  · rintro ⟨hclosed, hnot⟩
    refine ⟨balances_iff.2 ((hcons _).trans hclosed), fun p hp hne hbal => ?_⟩
    obtain ⟨v, p, rfl⟩ := List.exists_cons_of_ne_nil hne
    obtain ⟨rfl, hp'⟩ := List.cons_prefix_cons.1 hp
    exact hnot p hp' ((hcons p).symm.trans (balances_iff.1 hbal))

/-- The last of the tokens that balance first is the closing bracket. -/
theorem Closes.eq_closer {depth : Int} {ts : List Token} {t : Token} (hdepth : 0 < depth)
    (h : Closes opener closer depth ts t) : t = .char closer := by
  induction ts generalizing depth with
  | nil =>
      obtain ⟨-, hclosed⟩ := closes_nil_iff.1 h
      rw [excess_cons] at hclosed
      simp only [excess, List.count_nil] at hclosed
      split at hclosed <;> split at hclosed <;> first | assumption | omega
  | cons u ts ih =>
      obtain ⟨-, hrest⟩ := closes_cons_iff.1 h
      have hzero : depth + excess opener closer [u] ≠ 0 := by
        have := hrest.notYet [] List.nil_prefix
        simpa [excess] using this
      refine ih ?_ hrest
      rw [excess_cons] at hzero ⊢
      simp only [excess, List.count_nil] at hzero ⊢
      split <;> split <;> simp_all <;> omega

end

/-- The bracket that closes the one at byte `start` is found, and it is token number `n` from
there. -/
def FindsToken (lexis : Lexis) (opener closer : Char) (text : List Char) (start n : Nat) : Prop :=
  ∃ front rest ts back, text = front ++ rest ∧ byteLength front = start ∧ Cuts lexis rest ts back
    ∧ ts.length = n ∧ findBalanced lexis opener closer text start = some (start + bytesOf ts)

section
variable {lexis : Lexis} (hlexis : lexis ∈ Lexis.all) {opener closer : Char}
  (hpair : closerOf? opener = some closer) {text : List Char} {start : Nat}
include hlexis hpair

/-- The search for a closing bracket finds the end of the shortest cut whose brackets balance. -/
theorem findBalanced_eq_some_iff {stop : Nat} :
    findBalanced lexis opener closer text start = some stop ↔
    ∃ front rest ts t back, text = front ++ rest ∧ byteLength front = start
      ∧ rest.head? = some opener ∧ Cuts lexis rest (ts ++ [t]) back ∧ Shortest opener closer ts t
      ∧ stop = start + bytesOf ts := by
  have hleads := lexis.newline_not_mem_lead hlexis
  have hne := (opener_cases hpair).1
  -- the opener itself is the first token, and the search goes on one level inside it
  have hhead : ∀ rest, closerFrom? lexis opener closer 0 start (opener :: rest) = some stop ↔
      ∃ ts t back, Cuts lexis (opener :: rest) (ts ++ [t]) back ∧ Shortest opener closer ts t
        ∧ stop = start + bytesOf ts := by
    intro rest
    have htoken := token?_of_takes hleads (takes_opener hlexis hpair rest)
    rw [closerFrom?_token htoken, if_pos rfl, closerFrom?_eq_some_iff hleads hne (by omega),
      exists_cuts_iff hleads htoken]
    have hfirst : ¬ Shortest opener closer [] (.char opener) := by
      rintro ⟨hbal, -⟩
      rw [balances_iff, List.nil_append, excess_cons, if_pos rfl,
        if_neg (fun h => hne (Token.char.inj h))] at hbal
      simp [excess] at hbal
    simp only [hfirst, false_and, false_or, shortest_iff hne, FoundAt, bytesOf_cons, Nat.add_assoc]
    rfl
  rw [findBalanced, Option.bind_eq_bind, Option.bind_eq_some_iff]
  constructor
  · rintro ⟨rest, hdrop, hfound⟩
    obtain ⟨front, rfl, hfront⟩ := dropBytes?_eq_some_iff.1 hdrop
    split at hfound
    · next hopener =>
      obtain ⟨rest, rfl⟩ := List.head?_eq_some_iff.1 hopener
      obtain ⟨ts, t, back, h⟩ := (hhead rest).1 hfound
      exact ⟨front, _, ts, t, back, rfl, hfront, hopener, h⟩
    · cases hfound
  · rintro ⟨front, rest, ts, t, back, rfl, hfront, hopener, h⟩
    refine ⟨rest, dropBytes?_eq_some_iff.2 ⟨front, rfl, hfront⟩, ?_⟩
    obtain ⟨rest, rfl⟩ := List.head?_eq_some_iff.1 hopener
    rw [if_pos hopener]
    exact (hhead rest).2 ⟨ts, t, back, h⟩

/-- A closing bracket that is found is not found only if all cuts are without balance. -/
theorem findBalanced_eq_none_iff : findBalanced lexis opener closer text start = none ↔
    ∀ front rest ts back, text = front ++ rest → byteLength front = start →
      rest.head? = some opener →
      Cuts lexis rest ts back → ts ≠ [] → ¬ Balances opener closer ts := by
  rw [Option.eq_none_iff_forall_ne_some]
  constructor
  · intro hnone front rest ts back htext hfront hopener hcuts hne hbal
    obtain ⟨us, u, vs, rfl, hus, hnot⟩ := exists_shortest hne hbal
    rw [show us ++ u :: vs = (us ++ [u]) ++ vs by simp] at hcuts
    obtain ⟨mid, hmid, -⟩ := hcuts.exists_mid
    exact hnone _ ((findBalanced_eq_some_iff hlexis hpair).2
      ⟨front, rest, us, u, mid, htext, hfront, hopener, hmid, ⟨hus, hnot⟩, rfl⟩)
  · intro hnone stop hstop
    obtain ⟨front, rest, ts, t, back, htext, hfront, hopener, hcuts, hshort, -⟩ :=
      (findBalanced_eq_some_iff hlexis hpair).1 hstop
    exact hnone front rest _ back htext hfront hopener hcuts (by simp) hshort.balances

/-- Where a part has no end and no cut in front balances, nothing is found. -/
theorem findBalanced_of_unended {front rest back : List Char} {ts : List Token}
    (htext : text = front ++ rest) (hfront : byteLength front = start)
    (hcuts : Cuts lexis rest ts back) (hend : Unended lexis back)
    (hnot : ∀ p, p <+: ts → p ≠ [] → ¬ Balances opener closer p) :
    findBalanced lexis opener closer text start = none := by
  refine (findBalanced_eq_none_iff hlexis hpair).2 ?_
  intro front' rest' us back' htext' hfront' _ hcuts' hne
  obtain ⟨-, rfl⟩ := append_inj_byteLength (htext.symm.trans htext') (hfront.trans hfront'.symm)
  exact hnot us (hcuts.prefix_of_unended (lexis.newline_not_mem_lead hlexis) hend hcuts') hne

/-- The bracket that is found closes the one that is looked at: what stands between them is cut into
tokens of which as many are the one bracket as are the other. -/
theorem exists_body_of_findBalanced {stop : Nat}
    (h : findBalanced lexis opener closer text start = some stop) :
    ∃ front body behind ts, text = front ++ opener :: (body ++ closer :: behind)
      ∧ byteLength front = start
      ∧ stop = start + opener.utf8Size + byteLength body
      ∧ Cuts lexis (body ++ closer :: behind) ts (closer :: behind)
        ∧ excess opener closer ts = 0 := by
  have hleads := lexis.newline_not_mem_lead hlexis
  obtain ⟨front, rest, ts, t, back, rfl, rfl, hopener, hcuts, hshort, rfl⟩ :=
    (findBalanced_eq_some_iff hlexis hpair).1 h
  obtain ⟨rest, rfl⟩ := List.head?_eq_some_iff.1 hopener
  have hfirst := takes_opener hlexis hpair rest
  obtain ⟨mid, hmid, hlast⟩ := hcuts.exists_mid
  -- the first token is the opening bracket, and it is not the last one
  obtain ⟨us, rfl, hus⟩ : ∃ us, ts = .char opener :: us ∧ Cuts lexis rest us mid := by
    cases ts with
    | nil =>
        cases hcuts with
        | cons ht _ =>
            cases (token?_of_takes hleads hfirst).symm.trans (token?_of_takes hleads ht)
            have hbal := balances_iff.1 hshort.balances
            rw [List.nil_append, excess_cons, if_pos rfl,
              if_neg (fun h => (opener_cases hpair).1 (Token.char.inj h))] at hbal
            simp [excess] at hbal
    | cons v us =>
        cases hmid with
        | cons ht hus =>
            cases (token?_of_takes hleads hfirst).symm.trans (token?_of_takes hleads ht)
            exact ⟨us, rfl, hus⟩
  have hcloses := (shortest_iff (opener_cases hpair).1).1 hshort
  obtain rfl := hcloses.eq_closer (by omega)
  obtain ⟨body, rfl, hsize⟩ := hus.exists_append
  cases hlast with
  | cons ht _ =>
      cases ht with
      | char =>
          refine ⟨front, body, _, us, rfl, rfl, ?_, hus, ?_⟩
          · rw [bytesOf_cons, Token.size, hsize, Nat.add_assoc]
          · have hclosed := hcloses.closed
            rw [excess_append, excess_cons, if_pos rfl,
              if_neg (fun h => (opener_cases hpair).1 (Token.char.inj h).symm)] at hclosed
            simp only [excess, List.count_nil] at hclosed ⊢
            omega

/-- The bracket that is found stands in the text behind the one that is looked at. -/
theorem exists_of_findBalanced {stop : Nat}
    (h : findBalanced lexis opener closer text start = some stop) :
    start < stop ∧ ∃ a b, text = a ++ closer :: b ∧ byteLength a = stop := by
  obtain ⟨front, body, behind, _, rfl, rfl, rfl, -⟩ := exists_body_of_findBalanced hlexis hpair h
  refine ⟨?_, front ++ opener :: body, behind, by simp, ?_⟩
  · have := Char.utf8Size_pos opener
    omega
  · rw [byteLength_append, byteLength_cons, Nat.add_assoc]

/-- Tokens that are the same but for what is inside comments and literals have the closing bracket
at the same place. -/
theorem exists_findBalanced {α : Type} {f : Token → α} {g : α → Option Char}
    (hf : ∀ t, g (f t) = Token.single? t)
    {front rest rest' back : List Char} {ts ts' : List Token} {stop : Nat}
    (hcuts : Cuts lexis rest ts back) (hcuts' : Cuts lexis rest' ts' back)
    (heq : ts.map f = ts'.map f)
    (h : findBalanced lexis opener closer (front ++ rest) (byteLength front) = some stop)
    (front' : List Char) :
    ∃ us us' mid mid', Cuts lexis rest us mid ∧ Cuts lexis rest' us' mid' ∧ us.map f = us'.map f
      ∧ stop = byteLength front + bytesOf us ∧ findBalanced lexis opener closer (front' ++ rest')
        (byteLength front') = some (byteLength front' + bytesOf us') := by
  have hleads := lexis.newline_not_mem_lead hlexis
  have hsingle : ∀ us : List Token, us.map Token.single? = (us.map f).map g := by
    intro us
    rw [List.map_map]
    exact List.map_congr_left fun t _ => (hf t).symm
  obtain ⟨front₀, rest₀, us, u, mid, htext, hfront, hopener, hus, hshort, rfl⟩ :=
    (findBalanced_eq_some_iff hlexis hpair).1 h
  obtain ⟨-, rfl⟩ := append_inj_byteLength htext hfront.symm
  obtain ⟨ws, mid', hws, hmapws⟩ := hcuts.exists_map_eq hleads hcuts' heq hus
  obtain ⟨us', last, rfl, hus', hlast⟩ :=
    List.map_eq_append_iff.1 ((List.map_append ..).symm.trans hmapws).symm
  obtain ⟨u', rfl, -⟩ := List.map_eq_singleton_iff.1 hlast
  obtain ⟨init, hinit, -⟩ := hus.exists_mid
  obtain ⟨init', hinit', -⟩ := hws.exists_mid
  have hshort' : Shortest opener closer us' u' :=
    shortest_congr (by rw [hsingle, hsingle, hmapws]) hshort
  -- the first token is the opening bracket in both texts
  have hopener' : rest'.head? = some opener := by
    obtain ⟨v, vs, hv⟩ := List.exists_cons_of_ne_nil (l := us ++ [u]) (by simp)
    obtain ⟨v', vs', hv'⟩ := List.exists_cons_of_ne_nil (l := us' ++ [u']) (by simp)
    obtain ⟨rest, rfl⟩ := List.head?_eq_some_iff.1 hopener
    rw [hv] at hus hmapws
    rw [hv'] at hws hmapws
    cases hus with
    | cons ht _ =>
        cases (token?_of_takes hleads (takes_opener hlexis hpair _)).symm.trans
          (token?_of_takes hleads ht)
        have hsame : Token.single? v' = some opener := by
          rw [← hf, ← (List.cons.inj hmapws).1, hf]
          rfl
        cases hws with
        | cons ht' _ => cases ht' <;> simp_all [Token.single?]
  exact ⟨us, us', init, init', hinit, hinit', hus'.symm, rfl,
    (findBalanced_eq_some_iff hlexis hpair).2
    ⟨front', rest', us', u', mid', rfl, rfl, hopener', hws, hshort', rfl⟩⟩

/-- Other text inside comments and literals leaves the token at which the bracket stands. -/
theorem findsToken_of_map_eq {front front' rest rest' back : List Char}
    {ts ts' : List Token} {n : Nat} (hcuts : Cuts lexis rest ts back)
    (hcuts' : Cuts lexis rest' ts' back) (heq : ts.map Token.single? = ts'.map Token.single?)
    (h : FindsToken lexis opener closer (front ++ rest) (byteLength front) n) :
    FindsToken lexis opener closer (front' ++ rest') (byteLength front') n := by
  obtain ⟨front₀, rest₀, us, mid, htext, hfront, hus, rfl, hfound⟩ := h
  obtain ⟨-, rfl⟩ := append_inj_byteLength htext hfront.symm
  obtain ⟨ws, ws', mid, mid', hws, hws', hmap, hbytes, hfound'⟩ :=
    exists_findBalanced (f := Token.single?) (g := id) hlexis hpair (fun _ => rfl) hcuts hcuts' heq
      hfound front'
  obtain rfl := hus.eq_of_bytesOf (lexis.newline_not_mem_lead hlexis) hws
    (Nat.add_left_cancel hbytes)
  have hlength := congrArg List.length hmap
  rw [List.length_map, List.length_map] at hlength
  exact ⟨front', rest', ws', mid', rfl, rfl, hws', hlength.symm, hfound'⟩

/-- Other text of the same sizes inside comments and literals leaves the place of the bracket. -/
theorem findBalanced_of_map_eq {front rest rest' back : List Char} {ts ts' : List Token}
    {stop : Nat} (hcuts : Cuts lexis rest ts back) (hcuts' : Cuts lexis rest' ts' back)
    (heq : ts.map (fun t => (t.single?, t.size)) = ts'.map fun t => (t.single?, t.size))
    (h : findBalanced lexis opener closer (front ++ rest) (byteLength front) = some stop) :
    findBalanced lexis opener closer (front ++ rest') (byteLength front) = some stop := by
  obtain ⟨ws, ws', mid, mid', -, -, hmap, rfl, hfound⟩ :=
    exists_findBalanced (f := fun t => (t.single?, t.size)) (g := Prod.fst) hlexis hpair
      (fun _ => rfl)
      hcuts hcuts' heq h front
  have hsizes := congrArg (List.map Prod.snd) hmap
  rw [List.map_map, List.map_map] at hsizes
  rw [hfound, bytesOf_eq_of_map hsizes]

/-- The search for a closing bracket. It finds one if the tokens from the opening bracket on balance
somewhere, and then the one at which they first do; it finds none if something without an end comes
before. What it finds is the closing bracket, behind the opening one, whatever text is inside
comments and literals. -/
theorem findBalanced_closing (text : List Char) (start : Nat) :
    ((∃ stop, findBalanced lexis opener closer text start = some stop) ↔
      ∃ front rest ts back, text = front ++ rest ∧ byteLength front = start
        ∧ rest.head? = some opener
        ∧ Cuts lexis rest ts back ∧ ts ≠ [] ∧ Balances opener closer ts)
    ∧ (∀ stop, findBalanced lexis opener closer text start = some stop ↔
      ∃ front rest ts t back, text = front ++ rest ∧ byteLength front = start
        ∧ rest.head? = some opener ∧ Cuts lexis rest (ts ++ [t]) back ∧ Shortest opener closer ts t
        ∧ stop = start + bytesOf ts)
    ∧ (∀ front rest ts back,
      text = front ++ rest → byteLength front = start → Cuts lexis rest ts back →
      Unended lexis back → (∀ p, p <+: ts → p ≠ [] → ¬ Balances opener closer p) →
      findBalanced lexis opener closer text start = none)
    ∧ (∀ stop, findBalanced lexis opener closer text start = some stop →
      start < stop ∧ ∃ a b, text = a ++ closer :: b ∧ byteLength a = stop)
    ∧ ∀ front rest ts rest' ts' back, text = front ++ rest → byteLength front = start →
      Cuts lexis rest ts back → Cuts lexis rest' ts' back →
      (ts.map Token.single? = ts'.map Token.single? → ∀ n,
        FindsToken lexis opener closer text start n ↔
          FindsToken lexis opener closer (front ++ rest') start n)
      ∧ (ts.map (fun t => (t.single?, t.size)) = ts'.map (fun t => (t.single?, t.size)) →
        findBalanced lexis opener closer (front ++ rest') start
          = findBalanced lexis opener closer text start) := by
  refine ⟨?_, fun stop => findBalanced_eq_some_iff hlexis hpair, ?_,
    fun stop => exists_of_findBalanced hlexis hpair, ?_⟩
  · rw [← Option.ne_none_iff_exists', ne_eq, findBalanced_eq_none_iff hlexis hpair]
    simp only [Classical.not_forall, Classical.not_not, exists_prop]
  · exact fun front rest ts back => findBalanced_of_unended hlexis hpair
  · -- the two texts have tokens of the same kinds, so what is found in one is found in the other
    rintro front rest ts rest' ts' back rfl rfl hcuts hcuts'
    refine ⟨fun heq n => ⟨findsToken_of_map_eq hlexis hpair hcuts hcuts' heq,
      findsToken_of_map_eq hlexis hpair hcuts' hcuts heq.symm⟩, fun heq => ?_⟩
    exact Option.ext fun stop => ⟨findBalanced_of_map_eq hlexis hpair hcuts' hcuts heq.symm,
      findBalanced_of_map_eq hlexis hpair hcuts hcuts' heq⟩

end

/-- Brackets in a literal and in a comment are passed over, whichever they are; a literal without an
end hides all that follows. -/
theorem findBalanced_closing_quoted :
    findBalanced .slashed '\x7b' '\x7d' "f\x7b\"\x7d\"/*\x7b*/\x7d".toList 1 = some 10
      ∧ findBalanced .slashed '\x7b' '\x7d' "f\x7b\"\x7b\"/*\x7d*/\x7d".toList 1
        = findBalanced .slashed '\x7b' '\x7d' "f\x7b\"\x7d\"/*\x7b*/\x7d".toList 1
      ∧ findBalanced .slashed '\x7b' '\x7d' "\x7b\"\x7d".toList 0 = none := by
  have hlexis : Lexis.slashed ∈ Lexis.all := List.mem_cons_self
  have hpair : closerOf? '\x7b' = some '\x7d' := rfl
  -- both texts have the same tokens, as what is inside the literal and the comment does not count
  have hcuts : Cuts .slashed "\x7b\"\x7d\"/*\x7b*/\x7d".toList
      ([.char '\x7b', .literal 3, .blockComment 5] ++ [.char '\x7d']) [] :=
    .cons (takes_of_token? rfl) (.cons (takes_of_token? rfl) (.cons (takes_of_token? rfl)
      (.cons (takes_of_token? rfl) (.nil []))))
  have hcuts' : Cuts .slashed "\x7b\"\x7b\"/*\x7d*/\x7d".toList
      ([.char '\x7b', .literal 3, .blockComment 5] ++ [.char '\x7d']) [] :=
    .cons (takes_of_token? rfl) (.cons (takes_of_token? rfl) (.cons (takes_of_token? rfl)
      (.cons (takes_of_token? rfl) (.nil []))))
  have hshort : Shortest '\x7b' '\x7d' [.char '\x7b', .literal 3, .blockComment 5]
      (.char '\x7d') := by
    refine ⟨by decide, fun p hp hne => ?_⟩
    simp only [List.prefix_cons_iff, List.prefix_nil, hne, false_or] at hp
    rcases hp with ⟨p, rfl, rfl | ⟨q, rfl, rfl | ⟨r, rfl, rfl⟩⟩⟩ <;> decide
  have hopen : Cuts .slashed "\x7b\"\x7d".toList [.char '\x7b'] "\"\x7d".toList :=
    .cons (takes_of_token? rfl) (.nil _)
  -- the literal is never closed
  have hunended : Unended .slashed "\"\x7d".toList := by
    refine .literal ?_ ?_ List.mem_cons_self rfl
    · exact not_opensBlock_iff.2 rfl
    · exact not_opensLine_iff.2 rfl
  obtain ⟨-, hfound, -, -, hinside⟩ :=
    findBalanced_closing hlexis hpair "f\x7b\"\x7d\"/*\x7b*/\x7d".toList 1
  obtain ⟨-, -, hnone, -, -⟩ := findBalanced_closing hlexis hpair "\x7b\"\x7d".toList 0
  refine ⟨(hfound 10).2 ⟨['f'], _, _, _, _, rfl, rfl, rfl, hcuts, hshort, rfl⟩,
    (hinside ['f'] _ _ _ _ _ rfl rfl hcuts hcuts').2 rfl, hnone [] _ _ _ rfl rfl hopen hunended ?_⟩
  intro p hp hne
  simp only [List.prefix_cons_iff, List.prefix_nil, hne, false_or] at hp
  obtain ⟨p, rfl, rfl⟩ := hp
  decide

end CodeAtlas.Text
