import CodeAtlas.Proofs.Text.Lexemes
import CodeAtlas.Proofs.Text.Splitting

/-!
# The depth of brackets line by line

A text is weighed as a whole by its tokens, and line by line as if every line began a text of its
own. The two agree on a token that stands in one line. Of one that goes on behind the end of its
line, the line sees nothing, and the next line reads what is left of it as code: the weights agree
if that code weighs nothing and ends where the token does.
-/

namespace CodeAtlas.Text

open Unicode (isBlank)

/-- The brackets that lines open less those that they close. -/
def depthOfLines (lexis : Lexis) : List (List Char) → Int
  | [] => 0
  | line :: lines => lineDepthDelta lexis line + depthOfLines lexis lines

/-- The depth of the lines of a text. -/
def depthByLines (lexis : Lexis) (text : List Char) : Int := depthOfLines lexis (lines text)

/-- Read line by line, a text is cut as it is in one piece: what a token holds behind the end of its
first line is cut into tokens too, and leaves the depth of brackets. -/
inductive ByLines (lexis : Lexis) : List Char → Prop
  | nil : ByLines lexis []
  | within {part rest : List Char} {t : Token} (ht : Takes lexis (part ++ rest) t rest)
    (hline : '\n' ∉ part)
      (hrest : ByLines lexis rest) : ByLines lexis (part ++ rest)
  | across {first more rest : List Char} {t : Token} {us : List Token}
      (ht : Takes lexis ((first ++ '\n' :: more) ++ rest) t rest) (hline : '\n' ∉ first)
      (hus : Cuts lexis (more ++ rest) us rest) (hzero : depthOf us = 0)
        (hrest : ByLines lexis (more ++ rest)) :
      ByLines lexis ((first ++ '\n' :: more) ++ rest)

/-! ## One line -/

section
variable {lexis : Lexis} {text rest : List Char} {t : Token}

/-- Where there is no token the depth stays. -/
theorem depthDeltaFrom_none (h : token? lexis text = none) (delta : Int) :
    depthDeltaFrom lexis delta text = delta := by
  rw [depthDeltaFrom]
  split
  · rfl
  all_goals next hsome => cases h.symm.trans hsome

/-- A comment up to the end of the line leaves the depth. -/
theorem depthDeltaFrom_lineComment {n : Nat} (h : token? lexis text = some (.lineComment n, rest))
    (delta : Int) :
    depthDeltaFrom lexis delta text = delta := by
  rw [depthDeltaFrom]
  split
  · rfl
  · rfl
  · next hsome => cases h.symm.trans hsome
  · next hline _ hsome =>
    cases h.symm.trans hsome
    exact (hline _ rfl).elim

/-- A token changes the depth by its nesting. -/
theorem depthDeltaFrom_token (h : token? lexis text = some (t, rest)) (ht : ∀ n, t ≠ .lineComment n)
    (delta : Int) :
    depthDeltaFrom lexis delta text = depthDeltaFrom lexis (delta + t.nesting) rest := by
  rw [depthDeltaFrom]
  split
  · next hnone => cases h.symm.trans hnone
  · next hsome =>
    cases h.symm.trans hsome
    exact absurd rfl (ht _)
  · next hsome =>
    cases h.symm.trans hsome
    rfl
  · next hline hchar hsome =>
    cases h.symm.trans hsome
    have hzero : t.nesting = 0 := by
      cases t with
      | char c => exact (hchar c rfl).elim
      | lineComment | blockComment | literal => rfl
    rw [hzero, Int.add_zero]

/-- What is open in front of a line is added to what it opens. -/
theorem depthDeltaFrom_eq (delta : Int) (text : List Char) :
    depthDeltaFrom lexis delta text = delta + lineDepthDelta lexis text := by
  induction hn : text.length using Nat.strongRecOn generalizing text delta with
  | ind n ih =>
      rw [lineDepthDelta]
      cases htoken : token? lexis text with
      | none => rw [depthDeltaFrom_none htoken, depthDeltaFrom_none htoken, Int.add_zero]
      | some p =>
          obtain ⟨t, rest⟩ := p
          have hlt : rest.length < n := hn ▸ length_lt_of_token? htoken
          by_cases ht : ∃ n, t = .lineComment n
          · obtain ⟨n, rfl⟩ := ht
            rw [depthDeltaFrom_lineComment htoken, depthDeltaFrom_lineComment htoken, Int.add_zero]
          · have ht := not_exists.1 ht
            rw [depthDeltaFrom_token htoken ht, depthDeltaFrom_token htoken ht, ih _ hlt _ _ rfl,
              ih _ hlt _ _ rfl, Int.zero_add, Int.add_assoc]

/-- A line without a token has depth zero. -/
theorem lineDepthDelta_none (h : token? lexis text = none) : lineDepthDelta lexis text = 0 :=
  depthDeltaFrom_none h 0

/-- A line that is a comment has depth zero. -/
theorem lineDepthDelta_lineComment {n : Nat} (h : token? lexis text = some (.lineComment n, rest)) :
    lineDepthDelta lexis text = 0 := depthDeltaFrom_lineComment h 0

/-- The depth of a line is the nesting of its first token and the depth behind it. -/
theorem lineDepthDelta_token (h : token? lexis text = some (t, rest))
    (ht : ∀ n, t ≠ .lineComment n) :
    lineDepthDelta lexis text = t.nesting + lineDepthDelta lexis rest := by
  rw [lineDepthDelta, depthDeltaFrom_token h ht, depthDeltaFrom_eq, Int.zero_add]

/-- A line opens and closes what its tokens do, up to what has no end in it. -/
theorem lineDepthDelta_of_cuts {ts : List Token} {back : List Char} (h : Cuts lexis text ts back)
    (hleads : ∀ lead ∈ lexis.lineComments, '\n' ∉ lead) (hts : ∀ n, .lineComment n ∉ ts)
    (hback : token? lexis back = none) : lineDepthDelta lexis text = depthOf ts := by
  induction h with
  | nil => exact lineDepthDelta_none hback
  | @cons text mid rest t ts ht _ ih =>
      have hfirst : ∀ n, t ≠ .lineComment n := fun n h => hts n (h ▸ List.mem_cons_self)
      rw [lineDepthDelta_token (token?_of_takes hleads ht) hfirst,
        ih (fun n h => hts n (List.mem_cons_of_mem t h)) hback, depthOf_cons]

/-- An empty line has depth zero. -/
theorem lineDepthDelta_nil : lineDepthDelta lexis [] = 0 := by
  refine lineDepthDelta_none ?_
  cases h : token? lexis [] with
  | none => rfl
  | some p => exact absurd (length_lt_of_token? h) (Nat.not_lt_zero _)

/-- A comment up to the end of the line holds that end. -/
theorem newline_mem_of_lineComment {part : List Char} {n : Nat}
    (h : Lexeme lexis part (.lineComment n) rest) :
    '\n' ∈ part := by
  cases h with
  | lineComment => simp

/-- White space does not nest. -/
theorem nesting_blank {c : Char} (hc : isBlank c = true) : (Token.char c).nesting = 0 :=
  nesting_of_not_bracket (not_mem_brackets_of_isBlank hc) none

variable (hprinted : lexis.Printed)
include hprinted

/-- The text of a token in a line adds the nesting of the token. -/
theorem Lexeme.lineDepthDelta_append {part : List Char} (h : Lexeme lexis part t rest)
    (hline : '\n' ∉ part) :
    lineDepthDelta lexis (part ++ rest) = t.nesting + lineDepthDelta lexis rest := by
  refine lineDepthDelta_token (h.token?_eq hprinted) ?_
  rintro n rfl
  exact hline (newline_mem_of_lineComment h)

/-- A blank line has depth zero. -/
theorem lineDepthDelta_blank {b : List Char} (hb : AllBlank b) : lineDepthDelta lexis b = 0 := by
  induction b with
  | nil => exact lineDepthDelta_nil
  | cons c b ih =>
      obtain ⟨hc, hrest⟩ := List.forall_mem_cons.1 hb
      have htoken : token? lexis (c :: b) = some (.char c, b) :=
        (lexeme_blank hprinted hc b).token?_eq hprinted
      rw [lineDepthDelta_token htoken nofun, nesting_blank hc, ih hrest]
      rfl

/-- What white space ends is no bracket. -/
theorem Lexeme.nesting_of_unended {line more : List Char} (hnone : token? lexis line = none)
    (h : Lexeme lexis (line ++ more) t rest) (hmore : AllBlank more) : t.nesting = 0 := by
  generalize hpart : line ++ more = part at h
  cases h with
  | blockComment | lineComment | literal => rfl
  | @char c _ hopens hquote =>
      rcases List.append_eq_singleton_iff.1 hpart with ⟨-, rfl⟩ | ⟨rfl, -⟩
      · exact nesting_blank (hmore c List.mem_cons_self)
      · have hfront : Lexeme lexis [c] (.char c) [] :=
          .char (fun h => hopens (by simpa using h.append rest)) hquote
        cases (hfront.token?_eq hprinted).symm.trans hnone

/-- White space behind a line opens and closes nothing. -/
theorem lineDepthDelta_append_blank {b : List Char} (hb : AllBlank b) (line : List Char) :
    lineDepthDelta lexis (line ++ b) = lineDepthDelta lexis line := by
  induction hn : line.length using Nat.strongRecOn generalizing line with
  | ind n ih =>
      cases htoken : token? lexis line with
      | some p =>
          obtain ⟨t, rest⟩ := p
          obtain ⟨part, rfl, hpart⟩ := exists_lexeme_of_token? htoken
          have hlt : rest.length < n := hn ▸ length_lt_of_token? htoken
          have hbehind := (hpart.append_blank hprinted hb).token?_eq hprinted
          rw [← List.append_assoc] at hbehind
          by_cases ht : ∃ n, t = .lineComment n
          · obtain ⟨n, rfl⟩ := ht
            rw [lineDepthDelta_lineComment hbehind, lineDepthDelta_lineComment htoken]
          · have ht := not_exists.1 ht
            rw [lineDepthDelta_token hbehind ht, lineDepthDelta_token htoken ht, ih _ hlt rest rfl]
      | none =>
          -- no token begins here, and one that does with the white space holds nothing else
          rw [lineDepthDelta_none htoken]
          cases hbehind : token? lexis (line ++ b) with
          | none => exact lineDepthDelta_none hbehind
          | some p =>
              obtain ⟨t, rest⟩ := p
              obtain ⟨part, hsplit, hpart⟩ := exists_lexeme_of_token? hbehind
              obtain ⟨more, rfl, rfl⟩ := hpart.exists_more hprinted htoken hsplit
              have hmore : AllBlank more := fun c hc => hb c (List.mem_append_left rest hc)
              have hrest : AllBlank rest := fun c hc => hb c (List.mem_append_right more hc)
              by_cases ht : ∃ n, t = .lineComment n
              · obtain ⟨n, rfl⟩ := ht
                exact lineDepthDelta_lineComment hbehind
              · rw [lineDepthDelta_token hbehind (not_exists.1 ht),
                  hpart.nesting_of_unended hprinted htoken hmore,
                    lineDepthDelta_blank hprinted hrest]
                rfl

/-- A line is as deep with its return as without. -/
theorem lineDepthDelta_dropReturn (line : List Char) :
    lineDepthDelta lexis (dropReturn line) = lineDepthDelta lexis line := by
  rw [dropReturn]
  split
  · next hlast =>
    obtain ⟨front, rfl⟩ := List.getLast?_eq_some_iff.1 hlast
    rw [List.dropLast_concat]
    exact (lineDepthDelta_append_blank hprinted
      (List.forall_mem_singleton.2 (isBlank_of_isSpace rfl)) front).symm
  · rfl

end

/-! ## Lines -/

section
variable {lexis : Lexis} {text part rest : List Char} {t : Token}

/-- A text without a line end is weighed as a line. -/
theorem depthByLines_of_not_mem (h : '\n' ∉ text) :
    depthByLines lexis text = lineDepthDelta lexis text := by
  rw [depthByLines, lines, splitChar_of_not_mem h]
  cases text with
  | nil => exact lineDepthDelta_nil.symm
  | cons c text => exact Int.add_zero _

variable (hprinted : lexis.Printed)
include hprinted

/-- The depth of a text line by line is that of its first line and that of the others. -/
theorem depthByLines_line {line : List Char} (h : '\n' ∉ line) (rest : List Char) :
    depthByLines lexis (line ++ '\n' :: rest)
      = lineDepthDelta lexis line + depthByLines lexis rest := by
  rw [depthByLines, lines_line h, depthOfLines, lineDepthDelta_dropReturn hprinted]
  rfl

/-- A token that stands in one line counts in it. -/
theorem Lexeme.depthByLines_within (h : Lexeme lexis part t rest) (hline : '\n' ∉ part) :
    depthByLines lexis (part ++ rest) = t.nesting + depthByLines lexis rest := by
  by_cases hrest : '\n' ∈ rest
  · obtain ⟨line, more, rfl, hnot⟩ := List.eq_append_cons_of_mem hrest
    have hwhole : '\n' ∉ part ++ line := fun hmem => (List.mem_append.1 hmem).elim hline hnot
    have hdelta : lineDepthDelta lexis (part ++ line) = t.nesting + lineDepthDelta lexis line := by
      rcases h.front with hfront | ⟨rfl, -, ⟨n, rfl⟩, -, hnone⟩
      · exact hfront.lineDepthDelta_append hprinted hline
      · -- without the end of the line the literal has none
        rw [List.append_nil, lineDepthDelta_none hnone, lineDepthDelta_nil]
        rfl
    rw [← List.append_assoc, depthByLines_line hprinted hwhole,
      depthByLines_line hprinted hnot, hdelta, Int.add_assoc]
  · have hwhole : '\n' ∉ part ++ rest := fun hmem => (List.mem_append.1 hmem).elim hline hrest
    rw [depthByLines_of_not_mem hwhole, depthByLines_of_not_mem hrest,
      h.lineDepthDelta_append hprinted hline]

/-- The first line of a token that goes on behind its end holds no token. -/
theorem Lexeme.token?_first {first more : List Char}
    (h : Lexeme lexis (first ++ '\n' :: more) t rest) :
    token? lexis first = none := by
  cases hfirst : token? lexis first with
  | none => rfl
  | some p =>
      obtain ⟨u, back⟩ := p
      obtain ⟨seg, rfl, hseg⟩ := exists_lexeme_of_token? hfirst
      have hlonger := (hseg.append_cons (c := '\n') hprinted rfl (more ++ rest)).token?_eq hprinted
      have hwhole := h.token?_eq hprinted
      rw [List.append_assoc, List.append_assoc, List.cons_append, hlonger] at hwhole
      -- what is behind the shorter token would be what is behind the whole one, and is longer
      have hlength := congrArg List.length (Prod.mk.inj (Option.some.inj hwhole)).2
      simp only [List.length_append, List.length_cons] at hlength
      omega

/-- A token that goes on behind the end of its line does not count in it. -/
theorem Lexeme.depthByLines_across {first more : List Char}
    (h : Lexeme lexis (first ++ '\n' :: more) t rest) (hline : '\n' ∉ first) :
    t.nesting = 0 ∧ depthByLines lexis ((first ++ '\n' :: more) ++ rest)
      = depthByLines lexis (more ++ rest) := by
  constructor
  · generalize hpart : first ++ '\n' :: more = part at h
    cases h with
    | blockComment | lineComment | literal => rfl
    | @char c =>
        have hmem : '\n' ∈ [c] := hpart ▸ List.mem_append_right _ List.mem_cons_self
        rw [← List.mem_singleton.1 hmem]
        rfl
  · rw [List.append_assoc, List.cons_append, depthByLines_line hprinted hline,
      lineDepthDelta_none (h.token?_first hprinted), Int.zero_add]

end

/-! ## Texts read line by line -/

section
variable {lexis : Lexis} {text : List Char} {ts : List Token}

/-- The empty text is cut into no tokens. -/
theorem eq_nil_of_cuts (h : Cuts lexis [] ts []) : ts = [] := by
  cases h with
  | nil => rfl
  | cons ht _ =>
      obtain ⟨part, hsplit, -, hne⟩ := ht.exists_append
      exact absurd (List.append_eq_nil_iff.1 hsplit.symm).1 hne

variable (hprinted : lexis.Printed)
include hprinted

/-- If a text is cut line by line as it is in one piece, its lines are as deep as its tokens. -/
theorem ByLines.depthByLines_eq (h : ByLines lexis text) (hts : Cuts lexis text ts []) :
    depthByLines lexis text = depthOf ts := by
  have hleads := hprinted.newline_not_mem
  induction h generalizing ts with
  | nil =>
      rw [eq_nil_of_cuts hts]
      rfl
  | @within part rest t ht hline _ ih =>
      obtain ⟨vs, rfl, hvs⟩ := (Cuts.cons ht (.nil rest)).exists_behind hleads hts (Nat.zero_le _)
      rw [ht.lexeme.depthByLines_within hprinted hline, ih hvs]
      rfl
  | @across first more rest t us ht hline hus hzero _ ih =>
      obtain ⟨vs, rfl, hvs⟩ := (Cuts.cons ht (.nil rest)).exists_behind hleads hts (Nat.zero_le _)
      obtain ⟨hnesting, hlines⟩ := ht.lexeme.depthByLines_across hprinted hline
      calc depthByLines lexis ((first ++ '\n' :: more) ++ rest)
          = depthByLines lexis (more ++ rest) := hlines
        _ = depthOf us + depthOf vs := by rw [ih (hus.append hvs), depthOf_append]
        _ = depthOf ([t] ++ vs) := by rw [hzero, depthOf_append, depthOf_cons, hnesting]; rfl

/-- A text is cut in the same way with something behind it, unless that begins with a line end. -/
theorem Cuts.front {seg rest : List Char} (h : Cuts lexis (seg ++ rest) ts rest)
    (hhead : rest.head? ≠ some '\n') :
    Cuts lexis seg ts [] := by
  generalize htext : seg ++ rest = text at h
  induction h generalizing seg with
  | nil =>
      rw [List.append_left_eq_self.1 htext]
      exact .nil []
  | @cons text mid rest t ts ht hts ih =>
      obtain ⟨part, rfl, hpart⟩ := exists_lexeme ht
      obtain ⟨parts, rfl, -⟩ := hts.exists_append
      obtain rfl : seg = part ++ parts :=
        List.append_cancel_right (htext.trans (List.append_assoc ..).symm)
      rcases hpart.front with hfront | ⟨-, hnewline, -⟩
      · exact .cons (hfront.takes hprinted) (ih hhead rfl)
      · exact absurd hnewline hhead

omit hprinted in
/-- Three kinds of brackets nest. -/
theorem depthOf_eq_excess (ts : List Token) :
    depthOf ts = excess '(' ')' ts + excess '[' ']' ts + excess '\x7b' '\x7d' ts := by
  induction ts with
  | nil => rfl
  | cons t ts ih =>
      have hnesting : t.nesting = excess '(' ')' [t] + excess '[' ']' [t]
          + excess '\x7b' '\x7d' [t] := by
        cases t with
        | lineComment | blockComment | literal => rfl
        | char c =>
            rw [Token.nesting, nesting.eq_def]
            split <;> simp_all [excess]
      have happend : ∀ opener closer, excess opener closer (t :: ts)
          = excess opener closer [t] + excess opener closer ts := fun _ _ => excess_append [t] ts
      rw [depthOf_cons, ih, hnesting, happend, happend, happend]
      omega

omit hprinted in
/-- Lines that never close more than is open leave the depth that they add up to. -/
theorem depthsFrom_append {depth : Nat} {front : List (List Char)} (behind : List (List Char))
    (h : ∀ p, p <+: front → 0 ≤ depth + depthOfLines lexis p) :
    depthsFrom lexis depth (front ++ behind) = depthsFrom lexis depth front
      ++ depthsFrom lexis (depth + depthOfLines lexis front).toNat behind := by
  induction front generalizing depth with
  | nil => simp [depthsFrom, depthOfLines]
  | cons line front ih =>
      have hfirst : 0 ≤ depth + lineDepthDelta lexis line := by
        simpa [depthOfLines] using h [line] (by simp)
      have hdepth : (((depth + lineDepthDelta lexis line).toNat : Nat) : Int)
          = depth + lineDepthDelta lexis line :=
        Int.toNat_of_nonneg hfirst
      have hrest : ∀ p, p <+: front →
          0 ≤ ((depth + lineDepthDelta lexis line).toNat : Int) + depthOfLines lexis p := by
        intro p hp
        have := h (line :: p) (List.cons_prefix_cons.2 ⟨rfl, hp⟩)
        rwa [depthOfLines, ← Int.add_assoc, ← hdepth] at this
      rw [List.cons_append, depthsFrom, depthsFrom, ih hrest, hdepth, depthOfLines, Int.add_assoc]
      rfl

omit hprinted in
/-- A text whose tokens do not go on behind their lines is cut line by line as it is in one
piece. -/
theorem Cuts.byLines (h : Cuts lexis text ts [])
    (hlines : ∀ us t part rest, Cuts lexis text us (part ++ rest) →
    Takes lexis (part ++ rest) t rest → '\n' ∉ part.dropLast) : ByLines lexis text := by
  generalize hback : [] = back at h
  induction h with
  | nil =>
      subst hback
      exact .nil
  | @cons text mid rest t ts ht hts ih =>
      have hmid :=
        ih (fun us u part rest hus hu => hlines (t :: us) u part rest (.cons ht hus) hu) hback
      obtain ⟨part, rfl, hpart⟩ := exists_lexeme ht
      have hdrop := hlines [] t part mid (.nil _) ht
      by_cases hmem : '\n' ∈ part
      · -- only the last character of the token ends a line
        have hlast := List.dropLast_concat_getLast hpart.ne_nil
        rw [← hlast] at hmem
        have hnewline := List.mem_singleton.1 ((List.mem_append.1 hmem).resolve_left hdrop)
        rw [← hnewline] at hlast
        rw [← hlast] at ht ⊢
        exact .across ht hdrop (.nil mid) rfl hmid
      · exact .within ht hmem hmid

end

/-- The lines of a text are as deep as its tokens if what tokens hold behind the end of their lines
is code that weighs nothing, or if there is no such token. So they are level in the body between two
brackets, if the others are matched there too, and a line behind a nested part that is closed again
stands at the top. -/
theorem depthByLines_agrees {lexis : Lexis} (hlexis : lexis ∈ Lexis.all) :
    (∀ text ts, Cuts lexis text ts [] → ByLines lexis text → depthByLines lexis text = depthOf ts)
    ∧ (∀ text ts, Cuts lexis text ts [] →
      (∀ us t part rest, Cuts lexis text us (part ++ rest) → Takes lexis (part ++ rest) t rest →
        '\n' ∉ part.dropLast) → ByLines lexis text)
    ∧ (∀ opener closer text start stop, closerOf? opener = some closer →
      findBalanced lexis opener closer text start = some stop →
      ∃ ts, Cuts lexis (slice text (start + 1) stop) ts [] ∧ excess opener closer ts = 0
        ∧ (ByLines lexis (slice text (start + 1) stop) →
          (∀ p ∈ [('(', ')'), ('[', ']'), ('\x7b', '\x7d')], p.1 ≠ opener → excess p.1 p.2 ts = 0) →
          depthByLines lexis (slice text (start + 1) stop) = 0))
    ∧ ∀ front behind ts, Cuts lexis (front ++ ['\n']) ts [] → ByLines lexis (front ++ ['\n']) →
      depthOf ts = 0 → (∀ p, p <+: lines (front ++ ['\n']) → 0 ≤ depthOfLines lexis p) →
      topLines lexis (lines (front ++ '\n' :: behind))
        = topLines lexis (lines (front ++ ['\n'])) ++ topLines lexis (lines behind) := by
  have hprinted := Lexis.printed lexis hlexis
  refine ⟨fun text ts hts h => h.depthByLines_eq hprinted hts,
    fun text ts hts => hts.byLines, ?_, ?_⟩
  · -- what stands between the brackets has the tokens that the search passed
    intro opener closer text start stop hpair hfound
    obtain ⟨front, body, behind, ts, rfl, rfl, rfl, hts, hexcess⟩ :=
      exists_body_of_findBalanced hlexis hpair hfound
    have hfacts : opener.utf8Size = 1 ∧ closer ≠ '\n' := by
      obtain ⟨-, rfl | rfl | rfl | rfl⟩ := opener_cases hpair <;> obtain rfl :=
        Option.some.inj hpair <;> decide
    have hbody : slice (front ++ opener :: (body ++ closer :: behind)) (byteLength front + 1)
        (byteLength front + opener.utf8Size + byteLength body) = body := by
      rw [hfacts.1]
      exact slice_append_cons hfacts.1 front body _
    rw [hbody]
    have hcuts : Cuts lexis body ts [] := hts.front hprinted (by simpa using hfacts.2)
    refine ⟨ts, hcuts, hexcess, fun hlines hmatched => ?_⟩
    have hall : ∀ p ∈ [('(', ')'), ('[', ']'), ('\x7b', '\x7d')], excess p.1 p.2 ts = 0 := by
      intro p hp
      by_cases hopener : p.1 = opener
      · have hcloser : ∀ p ∈ [('(', ')'), ('[', ']'), ('\x7b', '\x7d')],
            closerOf? p.1 = some p.2 := by decide
        have hsame := hcloser p hp
        rw [hopener, hpair] at hsame
        rwa [hopener, ← Option.some.inj hsame]
      · exact hmatched p hp hopener
    rw [hlines.depthByLines_eq hprinted hcuts, depthOf_eq_excess, hall ('(', ')') (by simp),
      hall ('[', ']') (by simp), hall ('\x7b', '\x7d') (by simp)]
    rfl
  · -- the lines in front end at depth nothing and never go below it
    intro front behind ts hts hlines hzero hsums
    have hsum : depthOfLines lexis (lines (front ++ ['\n'])) = 0 :=
      (hlines.depthByLines_eq hprinted hts).trans hzero
    have hfloor : ∀ p, p <+: lines (front ++ ['\n']) →
        0 ≤ ((0 : Nat) : Int) + depthOfLines lexis p := by
      intro p hp
      rw [Int.natCast_zero, Int.zero_add]
      exact hsums p hp
    rw [lines_append_cons, topLines, depthsFrom_append (lines behind) hfloor, hsum,
      List.filterMap_append]
    rfl

/-- The bracket in the comment stands in front of the end of its line, so it counts for neither
side. -/
theorem depthByLines_agrees_comment :
    depthByLines .slashed "\x7b/*(\n*/[\n]\x7d\n".toList = 0
      ∧ depthByLines .slashed (slice "\x7b/*(\n*/[\n]\x7d\n".toList 1 10) = 0
      ∧ topLines .slashed (lines "\x7b/*(\n*/[\n]\x7d\nx".toList)
        = topLines .slashed (lines "\x7b/*(\n*/[\n]\x7d\n".toList) ++ ["x".toList] := by
  have hlexis : Lexis.slashed ∈ Lexis.all := List.mem_cons_self
  have hleads := Lexis.newline_not_mem_lead .slashed hlexis
  -- the tokens of the three texts, the comment being one of them
  have hinside : Cuts .slashed "/*(\n*/[\n]".toList [.blockComment 6, .char '[', .char '\n',
      .char ']'] [] :=
    .cons (takes_of_token? rfl) (.cons (takes_of_token? rfl) (.cons (takes_of_token? rfl)
      (.cons (takes_of_token? rfl) (.nil []))))
  have hfront : Cuts .slashed "\x7b/*(\n*/[\n]\x7d\n".toList
      ([.char '\x7b', .blockComment 6, .char '[', .char '\n', .char ']'] ++ [.char '\x7d'])
        ['\n'] :=
    .cons (takes_of_token? rfl) (.cons (takes_of_token? rfl) (.cons (takes_of_token? rfl)
      (.cons (takes_of_token? rfl)
        (.cons (takes_of_token? rfl) (.cons (takes_of_token? rfl) (.nil _))))))
  have hnewline : Cuts .slashed ['\n'] [.char '\n'] [] := .cons (takes_of_token? rfl) (.nil [])
  have hwhole := hfront.append hnewline
  -- by lines the comment is not one token: the second line starts with its two end characters
  have hclosed : ∀ rest, ByLines .slashed rest →
      ByLines .slashed (['*']
        ++ (['/'] ++ (['['] ++ (([] ++ '\n' :: []) ++ ([']'] ++ rest))))) := by
    intro rest hrest
    have hlast : ByLines .slashed ([']'] ++ rest) := .within (takes_of_token? rfl) (by decide) hrest
    refine .within (takes_of_token? rfl) (by decide) (.within (takes_of_token? rfl) (by decide) ?_)
    exact .within (takes_of_token? rfl) (by decide)
      (.across (takes_of_token? rfl) (by decide) (.nil _) rfl hlast)
  have hlines : ∀ rest, ByLines .slashed rest →
      ByLines .slashed (("/*(".toList ++ '\n' :: "*/".toList) ++ ("[\n]".toList ++ rest)) := by
    intro rest hrest
    have hus : Cuts .slashed ("*/".toList ++ ("[\n]".toList ++ rest)) [.char '*', .char '/']
        ("[\n]".toList ++ rest) :=
      .cons (takes_of_token? rfl) (.cons (takes_of_token? rfl) (.nil _))
    exact .across (takes_of_token? rfl) (by decide) hus rfl (hclosed rest hrest)
  have hend : ByLines .slashed (['\x7d'] ++ (([] ++ '\n' :: []) ++ [])) :=
    .within (takes_of_token? rfl) (by decide)
      (.across (takes_of_token? rfl) (by decide) (.nil _) rfl .nil)
  have hall : ByLines .slashed
      (['\x7b'] ++ (("/*(".toList ++ '\n' :: "*/".toList) ++ ("[\n]".toList ++ "\x7d\n".toList))) :=
    .within (takes_of_token? rfl) (by decide) (hlines _ hend)
  have hshort : Shortest '\x7b' '\x7d'
      [.char '\x7b', .blockComment 6, .char '[', .char '\n', .char ']'] (.char '\x7d') := by
    refine ⟨by decide, fun p hp hne => ?_⟩
    simp only [List.prefix_cons_iff, List.prefix_nil, hne, false_or] at hp
    rcases hp with ⟨p, rfl, rfl | ⟨p, rfl, rfl | ⟨p, rfl, rfl | ⟨p, rfl, rfl | ⟨p, rfl, rfl⟩⟩⟩⟩⟩
    all_goals decide
  have hfound : findBalanced .slashed '\x7b' '\x7d' "\x7b/*(\n*/[\n]\x7d\n".toList 0 = some 10 :=
    (findBalanced_eq_some_iff hlexis rfl).2 ⟨[], _, _, _, _, rfl, rfl, rfl, hfront, hshort, rfl⟩
  obtain ⟨hsame, -, hbody, htop⟩ := depthByLines_agrees hlexis
  refine ⟨hsame _ _ hwhole hall, ?_, ?_⟩
  · obtain ⟨ts, hts, -, hlevel⟩ := hbody _ _ _ _ _ rfl hfound
    obtain ⟨vs, rfl, hvs⟩ := hinside.exists_behind hleads hts (Nat.zero_le _)
    obtain rfl := eq_nil_of_cuts hvs
    exact hlevel (hlines [] .nil) (by decide)
  · have hopen : Cuts .slashed "\x7b/*(".toList [.char '\x7b'] "/*(".toList :=
      .cons (takes_of_token? rfl) (.nil _)
    have hlist : Cuts .slashed "*/[".toList [.char '*', .char '/', .char '['] [] :=
      .cons (takes_of_token? rfl)
        (.cons (takes_of_token? rfl) (.cons (takes_of_token? rfl) (.nil [])))
    have hclose : Cuts .slashed "]\x7d".toList [.char ']', .char '\x7d'] [] :=
      .cons (takes_of_token? rfl) (.cons (takes_of_token? rfl) (.nil []))
    refine htop "\x7b/*(\n*/[\n]\x7d".toList ['x'] _ hwhole hall (by decide) fun p hp => ?_
    change p <+: ["\x7b/*(".toList, "*/[".toList, "]\x7d".toList] at hp
    simp only [List.prefix_cons_iff, List.prefix_nil] at hp
    rcases hp with rfl | ⟨_, rfl, rfl | ⟨_, rfl, rfl | ⟨_, rfl, rfl⟩⟩⟩
    all_goals simp only [depthOfLines, lineDepthDelta_of_cuts hopen hleads (by simp) rfl,
      lineDepthDelta_of_cuts hlist hleads (by simp) rfl,
        lineDepthDelta_of_cuts hclose hleads (by simp) rfl]
    all_goals decide

/-- A bracket in a comment counts for the lines behind the one in which the comment begins. -/
theorem depthByLines_comment_bracket :
    Cuts .slashed "/*a\n(*/".toList [.blockComment 7] []
      ∧ depthByLines .slashed "/*a\n(*/".toList = 1 ∧ depthOf [.blockComment 7] = 0 := by
  have hleads := Lexis.newline_not_mem_lead .slashed List.mem_cons_self
  have hopen : Cuts .slashed "/*a".toList [] "/*a".toList := .nil _
  have hbracket : Cuts .slashed "(*/".toList [.char '(', .char '*', .char '/'] [] :=
    .cons (takes_of_token? rfl)
      (.cons (takes_of_token? rfl) (.cons (takes_of_token? rfl) (.nil [])))
  refine ⟨.cons (takes_of_token? rfl) (.nil []), ?_, rfl⟩
  show lineDepthDelta .slashed "/*a".toList + (lineDepthDelta .slashed "(*/".toList + 0) = 1
  rw [lineDepthDelta_of_cuts hopen hleads (by simp) rfl,
    lineDepthDelta_of_cuts hbracket hleads (by simp) rfl]
  rfl

end CodeAtlas.Text
