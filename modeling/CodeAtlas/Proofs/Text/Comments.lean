import CodeAtlas.Proofs.Text.Lexemes
import CodeAtlas.Proofs.Text.Splitting

/-!
# Comments in a text that is split

Splitting knows literals but no comments: it reads a comment as it reads any other text. So a
comment is as good as blanks if, read like that, it closes the literals and brackets that it opens
and holds no separator at the top level. By induction on the tokens of the text, if all its comments
are such, the pieces are those of the text with blanks in the place of its comments.
-/

namespace CodeAtlas

/-- The conventions without comments: those of a scan that knows literals only. -/
def Lexis.bare (lexis : Lexis) : Lexis := ⟨lexis.quotes, [], none⟩

namespace Text

open Unicode (isBlank)

/-- Whether a token is a comment. -/
def Token.isComment : Token → Bool
  | .lineComment _ | .blockComment _ => true
  | .literal _ | .char _ => false

/-- What the text of a token becomes with `blank` for every character of a comment. -/
def Token.blanked (blank : Char) (t : Token) (part : List Char) : List Char :=
  if t.isComment then part.map fun _ => blank else part

/-- The text with `blank` for every character of a comment. A comment without an end goes on to the
end of the text. -/
def blanked (lexis : Lexis) (blank : Char) (text : List Char) : List Char :=
  match _h : token? lexis text with
  | none => if lexis.leads.any (startsWith text) then text.map fun _ => blank else text
  | some (t, rest) =>
      t.blanked blank (text.take (text.length - rest.length)) ++ blanked lexis blank rest
termination_by text.length
decreasing_by exact length_lt_of_token? _h

/-! ## Blanks for comments -/

section
variable {lexis : Lexis} (hprinted : lexis.Printed) {blank : Char}
  {text part rest : List Char} {t : Token}

/-- The check of starts of comments says that a comment opens. -/
theorem any_startsWith_iff : lexis.leads.any (startsWith text) = true ↔ Opens lexis text := by
  rw [List.any_eq_true]
  exact exists_congr fun lead => and_congr_right fun _ => startsWith_iff

/-- The empty text has no comments to blank. -/
theorem blanked_nil : blanked lexis blank [] = [] := by
  rw [blanked]
  split
  · split <;> rfl
  · next h => exact absurd (length_lt_of_token? h) (Nat.not_lt_zero _)

/-- Without a token or a comment that opens the text is left as it is. -/
theorem blanked_none (h : token? lexis text = none) (hopens : ¬ Opens lexis text) :
    blanked lexis blank text = text := by
  rw [blanked]
  split
  · rw [if_neg fun hany => hopens (any_startsWith_iff.1 hany)]
  · next hsome => cases h.symm.trans hsome

/-- A comment without an end is blanked up to the end of the text. -/
theorem blanked_unended (h : token? lexis text = none) (hopens : Opens lexis text) :
    blanked lexis blank text = text.map fun _ => blank := by
  rw [blanked]
  split
  · rw [if_pos (any_startsWith_iff.2 hopens)]
  · next hsome => cases h.symm.trans hsome

/-- Of a text the first token is blanked if it is a comment, and then the others. -/
theorem blanked_token (h : token? lexis (part ++ rest) = some (t, rest)) :
    blanked lexis blank (part ++ rest) = t.blanked blank part ++ blanked lexis blank rest := by
  rw [blanked]
  split
  · next hnone => cases h.symm.trans hnone
  · next hsome =>
    cases h.symm.trans hsome
    have htake : (part ++ rest).take ((part ++ rest).length - rest.length) = part := by
      rw [List.length_append, Nat.add_sub_cancel_right, List.take_left]
    rw [htake]

include hprinted

/-- A text that a token is read from is blanked if this is a comment. -/
theorem Lexeme.blanked_append (h : Lexeme lexis part t rest) :
    blanked lexis blank (part ++ rest) = t.blanked blank part ++ blanked lexis blank rest :=
  blanked_token (h.token?_eq hprinted)

/-- Blanks for the comments of a text and blanks for those behind it, if it ends with a token. -/
theorem Cuts.blanked_append {seg : List Char} {ts : List Token}
    (h : Cuts lexis (seg ++ rest) ts rest) :
    blanked lexis blank (seg ++ rest) = blanked lexis blank seg ++ blanked lexis blank rest := by
  generalize htext : seg ++ rest = text at h
  induction h generalizing seg with
  | nil =>
      obtain rfl := List.append_left_eq_self.1 htext
      rw [blanked_nil, List.nil_append]
  | @cons text mid rest t ts ht hts ih =>
      obtain ⟨part, rfl, hpart⟩ := exists_lexeme ht
      obtain ⟨behind, rfl, -⟩ := hts.exists_append
      obtain rfl : seg = part ++ behind :=
        List.append_cancel_right (htext.trans (List.append_assoc ..).symm)
      have hwhole : blanked lexis blank (part ++ behind)
          = t.blanked blank part ++ blanked lexis blank behind := by
        rcases hpart.front with hfront | ⟨rfl, -, ⟨n, rfl⟩, hopens, hnone⟩
        · exact hfront.blanked_append hprinted
        · rw [List.append_nil, blanked_none hnone hopens, blanked_nil, List.append_nil]
          rfl
      rw [hwhole, hpart.blanked_append hprinted, ih rfl, List.append_assoc]

/-! ## White space around a text -/

/-- White space in front is left. -/
theorem blanked_blank_append {b : List Char} (hb : AllBlank b) (text : List Char) :
    blanked lexis blank (b ++ text) = b ++ blanked lexis blank text := by
  induction b with
  | nil => rfl
  | cons c b ih =>
      obtain ⟨hc, hrest⟩ := List.forall_mem_cons.1 hb
      have hstep : blanked lexis blank ([c] ++ (b ++ text))
          = [c] ++ blanked lexis blank (b ++ text) :=
        (lexeme_blank hprinted hc (b ++ text)).blanked_append hprinted
      rw [ih hrest] at hstep
      exact hstep

/-- White space alone is left. -/
theorem blanked_of_allBlank {b : List Char} (hb : AllBlank b) : blanked lexis blank b = b := by
  have h : blanked lexis blank (b ++ []) = b ++ blanked lexis blank [] :=
    blanked_blank_append hprinted hb []
  rwa [List.append_nil, blanked_nil, List.append_nil] at h

omit hprinted in
/-- Blanks in the place of characters are blank. -/
theorem allBlank_map (hblank : isBlank blank = true) (text : List Char) :
    AllBlank (text.map fun _ => blank) := by
  intro c hc
  obtain ⟨_, -, rfl⟩ := List.mem_map.1 hc
  exact hblank

omit hprinted in
/-- The first token of a text is a comment if a comment starts there. -/
theorem Lexeme.isComment_iff (h : Lexeme lexis part t rest) :
    t.isComment = true ↔ Opens lexis (part ++ rest) := by
  cases h with
  | @blockComment d front _ hd hfirst =>
      refine iff_of_true rfl (opens_iff.2 (.inl ⟨d, hd, ?_⟩))
      rw [List.append_assoc]
      exact List.prefix_append _ _
  | @lineComment lead front _ hblock hlead hfront =>
      refine iff_of_true rfl (opens_iff.2 (.inr ⟨lead, hlead, ?_⟩))
      rw [List.append_assoc]
      exact List.prefix_append _ _
  | literal hopens => exact iff_of_false Bool.false_ne_true hopens
  | char hopens => exact iff_of_false Bool.false_ne_true hopens

omit hprinted in
/-- Texts that are the same without white space at the end are so behind another one. -/
theorem trimEnd_append_congr (front : List Char) {s u : List Char} (h : trimEnd s = trimEnd u) :
    trimEnd (front ++ s) = trimEnd (front ++ u) := by
  have hend : ∀ s, trimEnd (front ++ s) = trimEnd (front ++ trimEnd s) := by
    intro s
    obtain ⟨b, hs, hb, -⟩ := exists_trimEnd_append s
    have hsplit : front ++ s = (front ++ trimEnd s) ++ b := by rw [List.append_assoc, ← hs]
    rw [hsplit, trimEnd_append_blank _ hb]
  rw [hend s, h, ← hend u]

/-- White space behind a text stays white space. -/
theorem trimEnd_blanked_append (hblank : isBlank blank = true) {b : List Char} (hb : AllBlank b)
    (text : List Char) : trimEnd (blanked lexis blank (text ++ b))
    = trimEnd (blanked lexis blank text) := by
  have hnil : ∀ {s : List Char}, AllBlank s → trimEnd s = [] := fun hs => trimEnd_append_blank [] hs
  induction hn : text.length using Nat.strongRecOn generalizing text with
  | ind n ih =>
      cases htoken : token? lexis text with
      | some p =>
          obtain ⟨t, rest⟩ := p
          obtain ⟨part, rfl, hpart⟩ := exists_lexeme_of_token? htoken
          have hlt : rest.length < n := hn ▸ length_lt_of_token? htoken
          rw [List.append_assoc, (hpart.append_blank hprinted hb).blanked_append hprinted,
            hpart.blanked_append hprinted]
          exact trimEnd_append_congr _ (ih _ hlt rest rfl)
      | none =>
          -- no token begins here: a comment that never ends, or the end of the text
          by_cases hopens : Opens lexis text
          · -- the comment goes on to the end, or ends in the white space
            have hall : AllBlank (blanked lexis blank (text ++ b)) := by
              cases hbehind : token? lexis (text ++ b) with
              | none =>
                  rw [blanked_unended hbehind (hopens.append b)]
                  exact allBlank_map hblank _
              | some p =>
                  obtain ⟨t, rest⟩ := p
                  obtain ⟨part, hsplit, hpart⟩ := exists_lexeme_of_token? hbehind
                  obtain ⟨more, -, rfl⟩ := hpart.exists_more hprinted htoken hsplit
                  have hcomment := hpart.isComment_iff.2 (hsplit ▸ hopens.append _)
                  have hrest : AllBlank rest := fun c hc => hb c (List.mem_append_right more hc)
                  rw [hsplit, hpart.blanked_append hprinted, blanked_of_allBlank hprinted hrest,
                    Token.blanked, if_pos hcomment]
                  exact fun c hc => (List.mem_append.1 hc).elim (allBlank_map hblank _ c) (hrest c)
            rw [blanked_unended htoken hopens, hnil hall, hnil (allBlank_map hblank _)]
          · -- behind the end of the text the white space is a token of its own or none
            have hopens' : ¬ Opens lexis (text ++ b) :=
              fun h => hopens (h.of_append_blank hprinted hb)
            have hsame : blanked lexis blank (text ++ b) = text ++ b := by
              cases hbehind : token? lexis (text ++ b) with
              | none => exact blanked_none hbehind hopens'
              | some p =>
                  obtain ⟨t, rest⟩ := p
                  obtain ⟨part, hsplit, hpart⟩ := exists_lexeme_of_token? hbehind
                  obtain ⟨more, -, rfl⟩ := hpart.exists_more hprinted htoken hsplit
                  have hrest : AllBlank rest := fun c hc => hb c (List.mem_append_right more hc)
                  rw [hsplit, hpart.blanked_append hprinted, blanked_of_allBlank hprinted hrest,
                    Token.blanked, if_neg fun hcomment =>
                      hopens' (hsplit ▸ hpart.isComment_iff.1 hcomment)]
            rw [hsame, blanked_none htoken hopens, trimEnd_append_blank _ hb]

/-- It does not matter whether a text is trimmed before blanks are put into it. -/
theorem trim_blanked_trim (hblank : isBlank blank = true) (text : List Char) :
    trim (blanked lexis blank (trim text)) = trim (blanked lexis blank text) := by
  obtain ⟨b, b', htext, hb, hb', -⟩ := exists_trim text
  calc trim (blanked lexis blank (trim text))
      = trim (trimEnd (blanked lexis blank (trim text ++ b'))) := by
        rw [trimEnd_blanked_append hprinted hblank hb', trim_trimEnd]
    _ = trim (blanked lexis blank (b ++ (trim text ++ b'))) := by
        rw [trim_trimEnd, blanked_blank_append hprinted hb, trim_blank_append hb]
    _ = trim (blanked lexis blank text) := by rw [← htext]

end

/-! ## Splitting token by token -/

section
variable {lexis : Lexis} {sep : Char} {part rest : List Char} {t : Token}

/-- Among brackets of three kinds the character in front makes no difference. -/
theorem nesting_last (last? : Option Char) (c : Char) :
    nesting false last? c = nesting false none c := by
  rw [nesting.eq_def, nesting.eq_def]
  split <;> rfl

/-- What splitting does with a token of a text without comments. -/
theorem splitFrom_lexeme (h : Lexeme lexis.bare part t rest) (pieces : List (List Char))
    (piece : List Char) (depth : Int) :
    splitFrom lexis false sep pieces piece depth (part ++ rest) =
      if t = .char sep ∧ depth + t.nesting = 0 then
        splitFrom lexis false sep (addPiece pieces piece) [] 0 rest
      else splitFrom lexis false sep pieces (part.reverse ++ piece) (depth + t.nesting) rest := by
  cases h with
  | blockComment hd =>
      -- without comments in the lexis a token is a literal or a character
      cases hd
  | lineComment _ hlead => cases hlead
  | @literal quote inside _ hopens hquote hend =>
      change quote ∈ lexis.quotes at hquote
      obtain ⟨inside', hsplit, -, hall⟩ := exists_of_literalEnd? hend
      obtain rfl := List.append_cancel_right hsplit
      have hend₀ := hall 0 []
      rw [List.append_nil, Nat.zero_add] at hend₀
      have htake : takeBytes (byteLength inside) (inside ++ rest) = inside :=
        takeBytes_byteLength_append inside rest
      rw [List.cons_append, splitFrom, if_pos (List.contains_iff_mem.2 hquote), if_neg (by simp)]
      split
      · next hnone => cases hnone.symm.trans hend₀
      · next hsome =>
        cases hsome.symm.trans hend₀
        rw [htake]
        simp [Token.nesting]
  | @char c _ hopens hquote =>
      change c ∉ lexis.quotes at hquote
      rw [List.singleton_append, splitFrom, if_neg fun h => hquote (List.contains_iff_mem.1 h)]
      simp only [nesting_last, Token.nesting, Token.char.injEq]
      split
      · next hcut => rw [hcut.2]
      · rfl

/-- Splitting goes over a text without comments in which no separator stands at the top level. -/
theorem splitFrom_cuts {text : List Char} {ts : List Token} {depth : Int}
    (h : Cuts lexis.bare text ts rest)
    (hsep : ∀ front back,
      ts = front ++ .char sep :: back → depth + depthOf (front ++ [.char sep]) ≠ 0)
    (pieces : List (List Char)) (piece : List Char) (htext : text = part ++ rest) :
    splitFrom lexis false sep pieces piece depth text
      = splitFrom lexis false sep pieces (part.reverse ++ piece) (depth + depthOf ts) rest := by
  induction h generalizing part piece depth with
  | nil =>
      obtain rfl := List.append_left_eq_self.1 htext.symm
      simp
  | @cons text mid rest t ts ht hts ih =>
      obtain ⟨first, rfl, hfirst⟩ := exists_lexeme ht
      obtain ⟨behind, rfl, -⟩ := hts.exists_append
      obtain rfl : part = first ++ behind :=
        List.append_cancel_right (htext.symm.trans (List.append_assoc ..).symm)
      have hcut : ¬ (t = .char sep ∧ depth + t.nesting = 0) := by
        rintro ⟨rfl, hzero⟩
        exact hsep [] ts rfl (by simpa using hzero)
      have hbehind : ∀ front back, ts = front ++ .char sep :: back →
          depth + t.nesting + depthOf (front ++ [.char sep]) ≠ 0 := by
        rintro front back rfl
        have := hsep (t :: front) back rfl
        rwa [List.cons_append, depthOf_cons, ← Int.add_assoc] at this
      rw [splitFrom_lexeme hfirst, if_neg hcut, ih hbehind _ rfl]
      simp [Int.add_assoc]

/-- What has no end is in the last piece. -/
theorem splitFrom_unended {text : List Char} (h : token? lexis text = none)
    (hopens : ¬ Opens lexis text) (pieces : List (List Char)) (piece : List Char) (depth : Int) :
    splitFrom lexis false sep pieces piece depth text
      = (addPiece pieces (text.reverse ++ piece)).reverse := by
  cases text with
  | nil => rw [splitFrom]; rfl
  | cons c text =>
      rw [token?_cons (fun h => hopens (opens_iff.2 (.inl h))) fun h =>
        hopens (opens_iff.2 (.inr h))] at h
      split at h
      · next hquote =>
        obtain hnone : literalEnd? c 0 text = none := by
          cases hend : literalEnd? c 0 text with
          | none => rfl
          | some p =>
              obtain ⟨n, rest⟩ := p
              obtain ⟨inside, rfl, -, hall⟩ := exists_of_literalEnd? hend
              have := hall c.utf8Size []
              rw [List.append_nil] at this
              rw [this] at h
              cases h
        rw [splitFrom, if_pos hquote]
        split
        · simp
        · next hsome => cases hnone.symm.trans hsome
      · cases h

end

/-! ## Harmless comments -/

/-- Read as text without comments, at a depth of brackets, `part` closes the literals and brackets
that it opens, and no separator in it stands at the top level. -/
def Neutral (lexis : Lexis) (sep : Char) (depth : Int) (part rest : List Char) : Prop :=
  ∃ ts, Cuts lexis.bare (part ++ rest) ts rest ∧ depthOf ts = 0 ∧
    ∀ front back, ts = front ++ .char sep :: back → depth + depthOf (front ++ [.char sep]) ≠ 0

/-- All comments of a text have an end. -/
def ClosesComments (lexis : Lexis) (text : List Char) : Prop :=
  ∀ ts back, Cuts lexis text ts back → Opens lexis back → ∃ t rest, Takes lexis back t rest

/-- All comments of a text that starts at a depth of brackets are neutral. -/
def NeutralComments (lexis : Lexis) (sep : Char) (depth : Int) (text : List Char) : Prop :=
  ∀ ts t part rest, Cuts lexis text ts (part ++ rest) → Takes lexis (part ++ rest) t rest →
    t.isComment = true → Neutral lexis sep (depth + depthOf ts) part rest

/-- Pieces with blanks for comments, trimmed, without those that are blank then. -/
def kept (lexis : Lexis) (blank : Char) (pieces : List (List Char)) : List (List Char) :=
  (pieces.map fun piece => trim (blanked lexis blank piece)).filter fun piece => !piece.isEmpty

section
variable {lexis : Lexis} {sep blank : Char} {part rest text : List Char} {t : Token} {depth : Int}

/-- Without its comments a language opens none. -/
theorem not_opens_bare (text : List Char) : ¬ Opens lexis.bare text := by
  rintro ⟨lead, hmem, -⟩
  exact List.not_mem_nil hmem

/-- What is no comment is read by a scan without comments in the same way. -/
theorem Lexeme.bare (h : Lexeme lexis part t rest) (hcomment : t.isComment = false) :
    Lexeme lexis.bare part t rest := by
  cases h with
  | blockComment => cases hcomment
  | lineComment => cases hcomment
  | literal _ hquote hend => exact .literal (not_opens_bare _) hquote hend
  | char _ hquote => exact .char (not_opens_bare _) hquote

/-- Text without quotes is cut into its characters when comments are no matter. -/
theorem cuts_bare {part : List Char} (h : ∀ c ∈ part, c ∉ lexis.quotes) (rest : List Char) :
    Cuts lexis.bare (part ++ rest) (part.map .char) rest := by
  induction part with
  | nil => exact .nil rest
  | cons c part ih =>
      obtain ⟨hc, hpart⟩ := List.forall_mem_cons.1 h
      refine .cons (.char ?_ ?_ hc) (ih hpart)
      · exact fun h => not_opens_bare _ (opens_iff.2 (.inl h))
      · exact fun h => not_opens_bare _ (opens_iff.2 (.inr h))

/-- Text without brackets has depth zero. -/
theorem depthOf_map_char {part : List Char} (h : ∀ c ∈ part, c ∉ brackets false) :
    depthOf (part.map .char) = 0 := by
  induction part with
  | nil => rfl
  | cons c part ih =>
      obtain ⟨hc, hpart⟩ := List.forall_mem_cons.1 h
      rw [List.map_cons, depthOf_cons, ih hpart, Token.nesting, nesting_of_not_bracket hc]
      rfl

/-- A comment without quotes, brackets and separators is neutral. -/
theorem neutral_of_plain (h : ∀ c ∈ part, c ∉ lexis.quotes ∧ c ∉ brackets false ∧ c ≠ sep) :
    Neutral lexis sep depth part rest := by
  refine ⟨_, cuts_bare (fun c hc => (h c hc).1) rest, depthOf_map_char fun c hc => (h c hc).2.1, ?_⟩
  intro front back hsplit
  have hmem : Token.char sep ∈ part.map .char := hsplit ▸ List.mem_append_right _ List.mem_cons_self
  obtain ⟨c, hc, heq⟩ := List.mem_map.1 hmem
  exact absurd (Token.char.inj heq) (h c hc).2.2

/-- A neutral text is part of the piece in which it stands. -/
theorem Neutral.splitFrom_eq (h : Neutral lexis sep depth part rest) (pieces : List (List Char))
    (piece : List Char) : splitFrom lexis false sep pieces piece depth (part ++ rest)
      = splitFrom lexis false sep pieces (part.reverse ++ piece) depth rest := by
  obtain ⟨ts, hts, hzero, hsep⟩ := h
  rw [splitFrom_cuts hts hsep pieces piece rfl, hzero, Int.add_zero]

/-- If all comments of a text close, so do those behind a token. -/
theorem ClosesComments.behind (h : ClosesComments lexis (part ++ rest))
    (ht : Takes lexis (part ++ rest) t rest) :
    ClosesComments lexis rest := fun _ _ hcuts => h _ _ (.cons ht hcuts)

/-- If all comments of a text are neutral, so are those behind a token. -/
theorem NeutralComments.behind (h : NeutralComments lexis sep depth (part ++ rest))
    (ht : Takes lexis (part ++ rest) t rest) :
    NeutralComments lexis sep (depth + t.nesting) rest := by
  intro ts u part' rest' hcuts hu hcomment
  have := h _ u part' rest' (.cons ht hcuts) hu hcomment
  rwa [depthOf_cons, ← Int.add_assoc] at this

/-- Keeping parts does not depend on their order. -/
theorem kept_reverse (pieces : List (List Char)) :
    kept lexis blank pieces.reverse = (kept lexis blank pieces).reverse := by
  rw [kept, kept, List.map_reverse, List.filter_reverse]

variable (hprinted : lexis.Printed) (hblank : isBlank blank = true)
include hprinted hblank

/-- Blanks are neutral if they are no separators. -/
theorem neutral_blank (hsep : blank ≠ sep) :
    Neutral lexis sep depth (part.map fun _ => blank) rest := by
  refine neutral_of_plain fun c hc => ?_
  obtain ⟨_, -, rfl⟩ := List.mem_map.1 hc
  exact ⟨not_mem_quotes_of_isBlank hprinted hblank, not_mem_brackets_of_isBlank hblank, hsep⟩

/-- Adding a piece and putting blanks for its comments. -/
theorem kept_addPiece (pieces : List (List Char)) (seg : List Char) :
    kept lexis blank (addPiece pieces seg.reverse)
      = addPiece (kept lexis blank pieces) (blanked lexis blank seg).reverse := by
  have htrim := trim_blanked_trim hprinted hblank seg
  rw [addPiece, addPiece, List.reverse_reverse, List.reverse_reverse, ← htrim]
  split
  · next hempty =>
    rw [List.isEmpty_iff.1 hempty, blanked_nil]
    rfl
  · rw [kept, kept, List.map_cons, List.filter_cons]
    split
    · next h => rw [if_neg (by simpa using h)]
    · next h => rw [if_pos (by simpa using h)]

omit hblank in
/-- What is no comment is read in the same way in front of blanks for comments. -/
theorem Lexeme.bare_blanked (h : Lexeme lexis part t rest) (hcomment : t.isComment = false) :
    Lexeme lexis.bare part t (blanked lexis blank rest) := by
  cases h with
  | blockComment => cases hcomment
  | lineComment => cases hcomment
  | char _ hquote => exact .char (not_opens_bare _) hquote
  | @literal quote inside _ _ hquote hend =>
      refine .literal (not_opens_bare _) hquote ?_
      obtain ⟨inside', hsplit, -, hcases⟩ := literalEnd?_cases hend
      obtain rfl := List.append_cancel_right hsplit
      rcases hcases with hall | ⟨hhead, -, hsome⟩
      · rw [hall, byteLength_cons]
      · -- a newline is no comment, so it is still there
        obtain ⟨behind, rfl⟩ := List.head?_eq_some_iff.1 hhead
        have hnewline : AllBlank ['\n'] := List.forall_mem_singleton.2 (isBlank_of_isSpace rfl)
        rw [← List.singleton_append, blanked_blank_append hprinted hnewline, hsome _ _ rfl,
          byteLength_cons]

omit hblank in
/-- A text up to a token and the token are blanked one behind the other. -/
theorem blanked_seg_append {seg : List Char} {ts : List Token}
    (hcuts : Cuts lexis (seg ++ (part ++ rest)) ts (part ++ rest)) (h : Lexeme lexis part t rest) :
    blanked lexis blank (seg ++ part) = blanked lexis blank seg ++ t.blanked blank part := by
  have hwhole : Cuts lexis ((seg ++ part) ++ rest) (ts ++ [t]) rest := by
    rw [List.append_assoc]
    exact hcuts.append (.cons (h.takes hprinted) (.nil rest))
  have hblanked : blanked lexis blank ((seg ++ part) ++ rest)
      = blanked lexis blank (seg ++ part) ++ blanked lexis blank rest :=
        hwhole.blanked_append hprinted
  rw [List.append_assoc, hcuts.blanked_append hprinted, h.blanked_append hprinted,
    ← List.append_assoc] at hblanked
  exact (List.append_cancel_right hblanked).symm

/-- Splitting goes on with the same pieces, but for their comments, whether or not blanks are put
for these. `seg` is what the piece that is begun holds so far. -/
theorem splitFrom_blanked (hsep : blank ≠ sep) {seg : List Char} {ts : List Token}
    (pieces : List (List Char)) (hcuts : Cuts lexis (seg ++ text) ts text)
    (hclosed : ClosesComments lexis text) (hneutral : NeutralComments lexis sep depth text) :
    kept lexis blank (splitFrom lexis false sep pieces seg.reverse depth text)
      = splitFrom lexis false sep (kept lexis blank pieces) (blanked lexis blank seg).reverse depth
          (blanked lexis blank text) := by
  induction hn : text.length using Nat.strongRecOn generalizing text seg ts pieces depth with
  | ind n ih =>
      cases htoken : token? lexis text with
      | none =>
          have hopens : ¬ Opens lexis text := by
            intro hopens
            obtain ⟨t, rest, ht⟩ := hclosed [] text (.nil text) hopens
            cases (token?_of_takes hprinted.newline_not_mem ht).symm.trans htoken
          have hseg : blanked lexis blank (seg ++ text)
              = blanked lexis blank seg ++ blanked lexis blank text :=
            hcuts.blanked_append hprinted
          rw [blanked_none htoken hopens] at hseg
          rw [blanked_none htoken hopens, splitFrom_unended htoken hopens,
            splitFrom_unended htoken hopens, kept_reverse, ← List.reverse_append,
              ← List.reverse_append, kept_addPiece hprinted hblank, hseg]
      | some p =>
          obtain ⟨t, rest⟩ := p
          obtain ⟨part, rfl, hpart⟩ := exists_lexeme_of_token? htoken
          have ht := hpart.takes hprinted
          have hlt : rest.length < n := hn ▸ length_lt_of_token? htoken
          have hseg : blanked lexis blank (seg ++ part)
              = blanked lexis blank seg ++ t.blanked blank part :=
            blanked_seg_append hprinted hcuts hpart
          have hbehind : Cuts lexis ((seg ++ part) ++ rest) (ts ++ [t]) rest := by
            rw [List.append_assoc]
            exact hcuts.append (.cons ht (.nil rest))
          have hrest := hneutral.behind ht
          rw [hpart.blanked_append hprinted]
          cases hcomment : t.isComment with
          | true =>
              have hpartNeutral := hneutral [] t part rest (.nil _) ht hcomment
              have hnesting : t.nesting = 0 := by cases t <;> first | rfl | cases hcomment
              rw [depthOf_nil, Int.add_zero] at hpartNeutral
              rw [hnesting, Int.add_zero] at hrest
              rw [hpartNeutral.splitFrom_eq, ← List.reverse_append,
                ih _ hlt pieces hbehind (hclosed.behind ht) hrest rfl, hseg, Token.blanked,
                  if_pos hcomment,
                (neutral_blank hprinted hblank hsep).splitFrom_eq, List.reverse_append]
          | false =>
              have hsame : t.blanked blank part = part :=
                if_neg (by rw [hcomment]; exact Bool.false_ne_true)
              rw [hsame] at hseg ⊢
              rw [splitFrom_lexeme (hpart.bare hcomment),
                splitFrom_lexeme (hpart.bare_blanked hprinted hcomment)]
              split
              · next hcut =>
                -- the separator ends the piece, and the next one is empty so far
                rw [hcut.2] at hrest
                have hnil : Cuts lexis ([] ++ rest) [] rest := .nil rest
                have hnext :=
                  ih _ hlt (addPiece pieces seg.reverse) hnil (hclosed.behind ht) hrest rfl
                rwa [blanked_nil, kept_addPiece hprinted hblank] at hnext
              · rw [← List.reverse_append,
                  ih _ hlt pieces hbehind (hclosed.behind ht) hrest rfl, hseg, List.reverse_append]

end

/-! ## Comments of a text that is cut -/

section
variable {lexis : Lexis} (hprinted : lexis.Printed) {sep : Char} {depth : Int}
  {text part rest : List Char} {t : Token}
include hprinted

/-- If all of a text can be cut into tokens, its comments have an end. -/
theorem ClosesComments.of_cuts {ts : List Token} (h : Cuts lexis text ts []) :
    ClosesComments lexis text := by
  intro us back hus hopens
  obtain ⟨vs, -, hvs⟩ := hus.exists_behind hprinted.newline_not_mem h (Nat.zero_le _)
  cases hvs with
  | nil => exact absurd hopens (not_opens_nil hprinted)
  | cons ht _ => exact ⟨_, _, ht⟩

omit hprinted in
/-- A comment that closes what it opens and separates nothing at the top is neutral. -/
theorem neutral_of_take {ts : List Token} (h : Cuts lexis.bare (part ++ rest) ts rest)
    (hzero : depthOf ts = 0)
    (hsep : ∀ i < ts.length, ts[i]? = some (.char sep) → depth + depthOf (ts.take (i + 1)) ≠ 0) :
    Neutral lexis sep depth part rest := by
  refine ⟨ts, h, hzero, ?_⟩
  rintro front back rfl
  have := hsep front.length (by simp) (by simp)
  rwa [List.take_append, List.take_of_length_le (by omega), Nat.add_sub_cancel_left] at this

omit hprinted in
/-- The empty text has neutral comments. -/
theorem neutralComments_nil : NeutralComments lexis sep depth [] := by
  intro ts t part rest hts ht _
  obtain ⟨front, hfront, -⟩ := hts.exists_append
  obtain ⟨taken, htaken, -, hne⟩ := ht.exists_append
  obtain ⟨-, hnil⟩ := List.append_eq_nil_iff.1 hfront.symm
  rw [htaken] at hnil
  exact absurd (List.append_eq_nil_iff.1 hnil).1 hne

/-- The comments of a text are neutral if the one in front is, if there is one, and those behind it
are. -/
theorem NeutralComments.of_takes (ht : Takes lexis (part ++ rest) t rest)
    (hpart : t.isComment = true → Neutral lexis sep depth part rest)
    (hrest : NeutralComments lexis sep (depth + t.nesting) rest) :
    NeutralComments lexis sep depth (part ++ rest) := by
  intro ts u part' rest' hts hu hcomment
  generalize htext : part ++ rest = text at hts ht
  generalize hback : part' ++ rest' = back at hts hu
  cases hts with
  | nil =>
      cases (token?_of_takes hprinted.newline_not_mem ht).symm.trans
        (token?_of_takes hprinted.newline_not_mem hu)
      obtain rfl := List.append_cancel_right (htext.trans hback.symm)
      rw [depthOf_nil, Int.add_zero]
      exact hpart hcomment
  | cons ht' hts =>
      cases (token?_of_takes hprinted.newline_not_mem ht).symm.trans
        (token?_of_takes hprinted.newline_not_mem ht')
      subst hback
      rw [depthOf_cons, ← Int.add_assoc]
      exact hrest _ u part' rest' hts hu hcomment

end

/-- A comment behind the first of two items is no part of it, once there are blanks for the
comment. -/
theorem splitTopLevel_two_blanked (part : List Char) {n : Nat}
    (hitem : token? .slashed (['a'] ++ (part ++ [',', 'b'])) = some (.char 'a', part ++ [',', 'b']))
    (hcomment : token? .slashed (part ++ [',', 'b']) = some (.blockComment n, [',', 'b'])) :
    splitTopLevel .slashed ',' (blanked .slashed ' ' (['a'] ++ (part ++ [',', 'b'])))
      = [['a'], ['b']] := by
  have hcomma : token? .slashed ([','] ++ ['b']) = some (.char ',', ['b']) := rfl
  have hlast : token? .slashed (['b'] ++ []) = some (.char 'b', []) := rfl
  have hrest : blanked .slashed ' ' [',', 'b'] = [',', 'b'] := by
    refine (blanked_token hcomma).trans ?_
    rw [← List.append_nil ['b'], blanked_token hlast, blanked_nil]
    rfl
  -- the blanks go with the first item, and are trimmed off
  have hblanks : AllBlank (part.map fun _ => ' ') := allBlank_map (isBlank_of_isSpace rfl) part
  have hgap : ∀ b, AllBlank b → Gap .slashed b := fun b => (gap_iff List.mem_cons_self).2
  have hfirst : Fragment .slashed false ',' ['a'] :=
    fragment_of_take (by decide) (trim_of_printed (by decide) (by decide)) (by decide) (by decide)
  have hsecond : Fragment .slashed false ',' ['b'] :=
    fragment_of_take (by decide) (trim_of_printed (by decide) (by decide)) (by decide) (by decide)
  have hitems : ∀ p ∈ [⟨[], ['a'], part.map fun _ => ' '⟩, ⟨[], ['b'], []⟩],
      Padded.Holds .slashed false ',' p :=
    List.forall_mem_cons.2 ⟨⟨hfirst, hgap [] nofun, hgap _ hblanks⟩,
      List.forall_mem_singleton.2 ⟨hsecond, hgap [] nofun, hgap [] nofun⟩⟩
  have htext : blanked .slashed ' ' (['a'] ++ (part ++ [',', 'b']))
      = List.intercalate [',']
        ([⟨[], ['a'], part.map fun _ => ' '⟩, ⟨[], ['b'], []⟩].map Padded.text) := by
    rw [blanked_token hitem, blanked_token hcomment, hrest]
    simp [Padded.text, Token.blanked, Token.isComment, List.intercalate]
  rw [htext]
  exact (Splitting.splitFrom_eq_done (by decide) [] [] 0 _).trans
    (Splitting.fresh_sep.joined (by decide) (by decide) hitems)

/-- Comments that are closed and neutral have no part in splitting: the pieces of a text, with
blanks for their comments and without those that are blank then, are the pieces of the text with
blanks for its comments. -/
theorem splitTopLevel_blanked {lexis : Lexis} (hlexis : lexis ∈ Lexis.all) {sep blank : Char}
    (hblank : isBlank blank = true) (hsep : blank ≠ sep) {text : List Char}
    (hclosed : ClosesComments lexis text) (hneutral : NeutralComments lexis sep 0 text) :
    kept lexis blank (splitTopLevel lexis sep text)
      = splitTopLevel lexis sep (blanked lexis blank text) := by
  have hnil : Cuts lexis ([] ++ text) [] text := .nil text
  have h := splitFrom_blanked (Lexis.printed lexis hlexis) hblank hsep [] hnil hclosed hneutral
  rwa [blanked_nil] at h

/-- Quotes, brackets and separators that a comment holds are nothing to splitting if they fit
together. -/
theorem splitTopLevel_blanked_fitting :
    ClosesComments .slashed "a/*'c,'(d,e)*/,b".toList
      ∧ NeutralComments .slashed ',' 0 "a/*'c,'(d,e)*/,b".toList
      ∧ kept .slashed ' ' (splitTopLevel .slashed ',' "a/*'c,'(d,e)*/,b".toList)
        = ["a".toList, "b".toList] := by
  have hlexis : Lexis.slashed ∈ Lexis.all := List.mem_cons_self
  have hprinted := Lexis.printed .slashed hlexis
  have hclosed : ClosesComments .slashed "a/*'c,'(d,e)*/,b".toList :=
    .of_cuts hprinted (.cons (takes_of_token? rfl)
      (.cons (takes_of_token? rfl) (.cons (takes_of_token? rfl)
      (.cons (takes_of_token? rfl) (.nil [])))))
  -- the splitter sees the comment as text, whose comma is in brackets or quotes
  have hcomment : Neutral .slashed ',' 0 "/*'c,'(d,e)*/".toList ",b".toList := by
    have hcuts : Cuts Lexis.slashed.bare "/*'c,'(d,e)*/,b".toList
        [.char '/', .char '*', .literal 4, .char '(', .char 'd', .char ',', .char 'e', .char ')',
          .char '*', .char '/']
        ",b".toList :=
      .cons (takes_of_token? rfl) (.cons (takes_of_token? rfl) (.cons (takes_of_token? rfl)
        (.cons (takes_of_token? rfl) (.cons (takes_of_token? rfl) (.cons (takes_of_token? rfl)
        (.cons (takes_of_token? rfl) (.cons (takes_of_token? rfl) (.cons (takes_of_token? rfl)
        (.cons (takes_of_token? rfl) (.nil _))))))))))
    exact neutral_of_take hcuts (by decide) (by decide)
  have hneutral : NeutralComments .slashed ',' 0
      (['a'] ++ ("/*'c,'(d,e)*/".toList ++ ([','] ++ (['b'] ++ [])))) :=
    .of_takes hprinted (takes_of_token? rfl)
      nofun (.of_takes hprinted (takes_of_token? rfl) (fun _ => hcomment)
      (.of_takes hprinted (takes_of_token? rfl)
        nofun (.of_takes hprinted (takes_of_token? rfl) nofun
        neutralComments_nil)))
  refine ⟨hclosed, hneutral, ?_⟩
  rw [splitTopLevel_blanked hlexis (isBlank_of_isSpace rfl) (by decide) hclosed hneutral]
  exact splitTopLevel_two_blanked "/*'c,'(d,e)*/".toList rfl rfl

/-- A bracket that a comment opens and does not close hides the separators behind it. -/
theorem splitTopLevel_comment_bracket :
    ClosesComments .slashed "a/*(*/,b".toList
      ∧ splitTopLevel .slashed ',' "a/*(*/,b".toList = ["a/*(*/,b".toList]
      ∧ splitTopLevel .slashed ',' (blanked .slashed ' ' "a/*(*/,b".toList)
        = ["a".toList, "b".toList] := by
  have hprinted := Lexis.printed .slashed List.mem_cons_self
  refine ⟨?_, ?_, ?_⟩
  · exact .of_cuts hprinted
      (.cons (takes_of_token? rfl) (.cons (takes_of_token? rfl) (.cons (takes_of_token? rfl)
      (.cons (takes_of_token? rfl) (.nil [])))))
  · have htrim : trim "a/*(*/,b".toList = "a/*(*/,b".toList :=
      trim_of_printed (by decide) (by decide)
    refine (Splitting.splitFrom_eq_done (by decide) [] [] 0 _).trans ?_
    change (addPiece [] "a/*(*/,b".toList.reverse).reverse = _
    rw [addPiece, List.reverse_reverse, htrim]
    rfl
  · exact splitTopLevel_two_blanked "/*(*/".toList rfl rfl

end Text
end CodeAtlas
