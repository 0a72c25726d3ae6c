import CodeAtlas.Proofs.Text.Balanced
import CodeAtlas.Proofs.Text.Trim
import CodeAtlas.Text.Split

/-!
# Lexemes

The text that a token takes can be told from what stands behind it. A comment is the same whatever
follows, and so is a literal that ends with its quote; a literal that ends with its line needs the
end of the line. What introduces a comment or a literal is printed, so white space neither starts
nor completes one.
-/

namespace CodeAtlas

/-! ## Printed words -/

/-- The words that start a comment. -/
def Lexis.leads (lexis : Lexis) : List (List Char) :=
  (lexis.blockComment?.map Delimiters.lead).toList ++ lexis.lineComments

/-- The conventions are written without white space. -/
structure Lexis.Printed (lexis : Lexis) : Prop where
  quotes : ∀ c ∈ lexis.quotes, Text.isPrinted c = true
  leads : ∀ lead ∈ lexis.leads, lead ≠ [] ∧ ∀ c ∈ lead, Text.isPrinted c = true
  tails : ∀ d ∈ lexis.blockComment?.toList, ∀ c ∈ d.tail, Text.isPrinted c = true

/-- The starts and ends of comments and the quotes of every language are printed. -/
theorem Lexis.printed : ∀ lexis ∈ all, lexis.Printed := by
  have hquotes : ∀ lexis ∈ all, lexis.quotes.all Text.isPrinted = true := by decide
  have hleads : ∀ lexis ∈ all, ∀ lead ∈ lexis.leads, lead ≠ []
      ∧ lead.all Text.isPrinted = true := by decide
  have htails : ∀ lexis ∈ all, ∀ d ∈ lexis.blockComment?.toList,
      d.tail.all Text.isPrinted = true := by decide
  simp only [List.all_eq_true] at hquotes hleads htails
  exact fun lexis h => ⟨hquotes lexis h, hleads lexis h, htails lexis h⟩

/-- No comment up to the end of a line starts with text that holds a newline. -/
theorem Lexis.Printed.newline_not_mem {lexis : Lexis} (h : lexis.Printed) :
    ∀ lead ∈ lexis.lineComments, '\n' ∉ lead := fun lead hlead hmem => by
  have := (h.leads lead (List.mem_append_right _ hlead)).2 '\n' hmem
  cases this

namespace Text

open Unicode (isBlank)

/-- White space is not printed. -/
theorem not_isPrinted_of_isBlank {c : Char} (h : isBlank c = true) : isPrinted c = false := by
  rw [← Bool.not_eq_true]
  intro hprinted
  rw [isBlank_of_isPrinted hprinted] at h
  cases h

/-- A printed word ends in front of a character that is not printed. -/
theorem prefix_of_append_cons {word text rest : List Char}
    (hword : ∀ c ∈ word, isPrinted c = true) {c : Char} (hc : isPrinted c = false)
    (h : word <+: text ++ c :: rest) : word <+: text := by
  rcases prefix_append_cases h with h | ⟨more, rfl, hmore⟩
  · exact h
  · cases more with
    | nil => simp
    | cons d more =>
        obtain rfl := (List.cons_prefix_cons.1 hmore).1
        rw [hword d (List.mem_append_right text List.mem_cons_self)] at hc
        cases hc

/-- The text starts with a comment, or with what would be one if it had an end. -/
def Opens (lexis : Lexis) (text : List Char) : Prop := ∃ lead ∈ lexis.leads, lead <+: text

section
variable {lexis : Lexis} {text rest : List Char}

/-- A comment opens if one of either kind does. -/
theorem opens_iff : Opens lexis text ↔ OpensBlock lexis text ∨ OpensLine lexis text := by
  simp only [Opens, Lexis.leads, List.mem_append, Option.mem_toList, Option.map_eq_some_iff,
    or_and_right, exists_or]
  refine or_congr ⟨?_, ?_⟩ Iff.rfl
  · rintro ⟨_, ⟨d, hd, rfl⟩, hlead⟩
    exact ⟨d, hd, hlead⟩
  · rintro ⟨d, hd, hlead⟩
    exact ⟨_, ⟨d, hd, rfl⟩, hlead⟩

/-- A comment that opens in a text opens with more text behind it. -/
theorem Opens.append (h : Opens lexis text) (rest : List Char) : Opens lexis (text ++ rest) := by
  obtain ⟨lead, hmem, hlead⟩ := h
  exact ⟨lead, hmem, hlead.trans (List.prefix_append text rest)⟩

variable (hprinted : lexis.Printed)
include hprinted

/-- What starts a comment stands in front of the next character that is not printed. -/
theorem Opens.of_append_cons {c : Char} (hc : isPrinted c = false)
    (h : Opens lexis (text ++ c :: rest)) :
    Opens lexis text := by
  obtain ⟨lead, hmem, hlead⟩ := h
  exact ⟨lead, hmem, prefix_of_append_cons (hprinted.leads lead hmem).2 hc hlead⟩

/-- A comment that opens in front of a character that is not printed opens without it. -/
theorem OpensBlock.of_append_cons {c : Char} (hc : isPrinted c = false)
    (h : OpensBlock lexis (text ++ c :: rest)) :
    OpensBlock lexis text := by
  obtain ⟨d, hd, hlead⟩ := h
  have hmem : d.lead ∈ lexis.leads :=
    List.mem_append_left _ (by rw [hd]; exact List.mem_singleton_self _)
  exact ⟨d, hd, prefix_of_append_cons (hprinted.leads _ hmem).2 hc hlead⟩

/-- A comment that opens in front of white space opens without it. -/
theorem Opens.of_append_blank {b : List Char} (hb : AllBlank b) (h : Opens lexis (text ++ b)) :
    Opens lexis text := by
  cases b with
  | nil => rwa [List.append_nil] at h
  | cons c b => exact h.of_append_cons hprinted (not_isPrinted_of_isBlank (hb c List.mem_cons_self))

/-- In the empty text no comment opens. -/
theorem not_opens_nil : ¬ Opens lexis [] := by
  rintro ⟨lead, hmem, hlead⟩
  exact (hprinted.leads lead hmem).1 (List.prefix_nil.1 hlead)

/-- At white space no comment opens. -/
theorem not_opens_blank {c : Char} (hc : isBlank c = true) (rest : List Char) :
    ¬ Opens lexis (c :: rest) := by
  intro h
  rw [← List.nil_append (c :: rest)] at h
  exact not_opens_nil hprinted (h.of_append_cons hprinted (not_isPrinted_of_isBlank hc))

/-- White space is no quote. -/
theorem not_mem_quotes_of_isBlank {c : Char} (hc : isBlank c = true) : c ∉ lexis.quotes :=
  not_mem_of_isBlank (List.all_eq_true.2 hprinted.quotes) hc

end

/-! ## Lexemes -/

/-- `part` is what the first token of `part ++ rest` takes. -/
inductive Lexeme (lexis : Lexis) : List Char → Token → List Char → Prop
  | blockComment {d : Delimiters} {front rest : List Char} (hd : lexis.blockComment? = some d)
      (hfirst : ∀ a b, front = a ++ b → b ≠ [] → ¬ d.tail <+: b ++ d.tail) :
      Lexeme lexis (d.lead ++ (front ++ d.tail))
        (.blockComment (byteLength (d.lead ++ (front ++ d.tail)))) rest
  | lineComment {lead front rest : List Char} (hblock : ¬ OpensBlock lexis (lead ++ front))
      (hlead : lead ∈ lexis.lineComments) (hfront : '\n' ∉ front) :
      Lexeme lexis (lead ++ (front ++ ['\n']))
        (.lineComment (byteLength (lead ++ (front ++ ['\n'])))) rest
  | literal {quote : Char} {inside rest : List Char}
    (hopens : ¬ Opens lexis (quote :: (inside ++ rest)))
      (hquote : quote ∈ lexis.quotes)
      (hend : literalEnd? quote quote.utf8Size (inside ++ rest)
        = some (byteLength (quote :: inside), rest)) :
      Lexeme lexis (quote :: inside) (.literal (byteLength (quote :: inside))) rest
  | char {c : Char} {rest : List Char} (hopens : ¬ Opens lexis (c :: rest))
    (hquote : c ∉ lexis.quotes) :
      Lexeme lexis [c] (.char c) rest

section
variable {lexis : Lexis} (hprinted : lexis.Printed) {part rest : List Char} {t : Token}
include hprinted

/-- The text of a token takes the token. -/
theorem Lexeme.takes (h : Lexeme lexis part t rest) : Takes lexis (part ++ rest) t rest := by
  cases h with
  | @blockComment d front _ hd hfirst =>
      rw [List.append_assoc, List.append_assoc]
      refine .blockComment hd fun a b hsplit hb htail => hfirst a b hsplit hb ?_
      -- the word that ends the comment is no longer than the text up to its end
      rw [← List.append_assoc] at htail
      refine List.prefix_of_prefix_length_le htail (List.prefix_append _ _) ?_
      rw [List.length_append]
      exact Nat.le_add_left _ _
  | @lineComment lead front _ hblock hlead hfront =>
      rw [List.append_assoc, List.append_assoc]
      refine .lineComment (fun h => hblock ?_) hlead hfront
      rw [← List.append_assoc] at h
      exact h.of_append_cons hprinted rfl
  | @literal quote inside _ hopens hquote hend =>
      refine .literal (fun h => hopens (opens_iff.2 (.inl h)))
        (fun h => hopens (opens_iff.2 (.inr h))) hquote ?_
      exact skipLiteral?_eq_some_iff.2 ⟨inside, rest, rfl, rfl, hend⟩
  | char hopens hquote =>
      exact .char (fun h => hopens (opens_iff.2 (.inl h)))
        (fun h => hopens (opens_iff.2 (.inr h))) hquote

omit hprinted in
/-- A token that is taken has a text. -/
theorem exists_lexeme {text : List Char} (h : Takes lexis text t rest) :
    ∃ part, text = part ++ rest ∧ Lexeme lexis part t rest := by
  cases h with
  | @blockComment d front _ hd hfirst =>
      refine ⟨_, by simp, .blockComment hd fun a b hsplit hb htail => hfirst a b hsplit hb ?_⟩
      rw [← List.append_assoc]
      exact htail.trans (List.prefix_append _ _)
  | @lineComment lead front _ hblock hlead hfront =>
      refine ⟨_, by simp, .lineComment (fun ⟨d, hd, hprefix⟩ => hblock ⟨d, hd, ?_⟩) hlead hfront⟩
      rw [← List.append_assoc]
      exact hprefix.trans (List.prefix_append _ _)
  | @literal quote inside _ hblock hline hquote hend =>
      obtain ⟨inside', rest', hsplit, hsize, hend⟩ := skipLiteral?_eq_some_iff.1 hend
      obtain ⟨-, rfl⟩ := append_inj_byteLength hsplit
        (Nat.add_left_cancel (by rwa [byteLength_cons, byteLength_cons] at hsize))
      exact ⟨_, rfl, .literal (fun h => (opens_iff.1 h).elim hblock hline) hquote hend⟩
  | char hblock hline hquote =>
      exact ⟨[_], rfl, .char (fun h => (opens_iff.1 h).elim hblock hline) hquote⟩

omit hprinted in
/-- A token that is taken from a text and the rest has the text. -/
theorem Takes.lexeme (h : Takes lexis (part ++ rest) t rest) : Lexeme lexis part t rest := by
  obtain ⟨part', hsplit, hpart⟩ := exists_lexeme h
  rwa [List.append_cancel_right hsplit]

/-- A token is read from its text. -/
theorem Lexeme.token?_eq (h : Lexeme lexis part t rest) :
    token? lexis (part ++ rest) = some (t, rest) :=
  token?_of_takes hprinted.newline_not_mem (h.takes hprinted)

omit hprinted in
/-- A token that is read has a text. -/
theorem exists_lexeme_of_token? {text : List Char} (h : token? lexis text = some (t, rest)) :
    ∃ part, text = part ++ rest ∧ Lexeme lexis part t rest := exists_lexeme (takes_of_token? h)

omit hprinted in
/-- The text of a token is not empty. -/
theorem Lexeme.ne_nil (h : Lexeme lexis part t rest) : part ≠ [] := by
  cases h with
  | @blockComment d front _ hd hfirst =>
      exact fun hnil => d.tail_ne_nil (List.append_eq_nil_iff.1 (List.append_eq_nil_iff.1 hnil).2).2
  | lineComment => simp
  | literal => exact List.cons_ne_nil _ _
  | char => exact List.cons_ne_nil _ _

omit hprinted in
/-- Nothing that is cut short behind a lexeme makes another one of it, but that a literal may need
the end of its line. -/
theorem Lexeme.front {seg : List Char} (h : Lexeme lexis part t (seg ++ rest)) :
    Lexeme lexis part t seg ∨ (seg = [] ∧ rest.head? = some '\n' ∧ (∃ n, t = .literal n) ∧
      ¬ Opens lexis part ∧ token? lexis part = none) := by
  generalize hback : seg ++ rest = back at h
  cases h with
  | blockComment hd hfirst => exact .inl (.blockComment hd hfirst)
  | lineComment hblock hlead hfront => exact .inl (.lineComment hblock hlead hfront)
  | @literal quote inside _ hopens hquote hend =>
      subst hback
      have hopens' : ¬ Opens lexis (quote :: (inside ++ seg)) :=
        fun h => hopens (by simpa using h.append rest)
      obtain ⟨inside', hsplit, hsize, hcases⟩ := literalEnd?_cases hend
      obtain rfl := List.append_cancel_right hsplit
      rcases hcases with hall | ⟨hhead, hnone, hsome⟩
      · exact .inl (.literal hopens' hquote (by rw [hall, byteLength_cons]))
      · cases seg with
        | nil =>
            rw [List.append_nil] at hopens'
            refine .inr ⟨rfl, hhead, ⟨_, rfl⟩, hopens', ?_⟩
            have hnot := fun h => hopens' (opens_iff.2 h)
            rw [token?_cons (fun h => hnot (.inl h)) (fun h => hnot (.inr h)),
              if_pos (List.contains_iff_mem.2 hquote), hnone]
            rfl
        | cons c seg =>
            exact .inl (.literal hopens' hquote (by rw [hsome _ (c :: seg) hhead, byteLength_cons]))
  | @char c _ hopens hquote =>
      subst hback
      exact .inl (.char (fun h => hopens (by simpa using h.append rest)) hquote)

/-- Text behind a character that is not printed leaves the lexemes in front of it. -/
theorem Lexeme.append_cons {c : Char} (hc : isPrinted c = false) (more : List Char)
    (h : Lexeme lexis part t rest) :
    Lexeme lexis part t (rest ++ c :: more) := by
  cases h with
  | blockComment hd hfirst => exact .blockComment hd hfirst
  | lineComment hblock hlead hfront => exact .lineComment hblock hlead hfront
  | @literal quote inside _ hopens hquote hend =>
      refine .literal (fun h => hopens ?_) hquote ?_
      · rw [← List.append_assoc, ← List.cons_append] at h
        exact h.of_append_cons hprinted hc
      · obtain ⟨inside', hsplit, -, hall⟩ := exists_of_literalEnd? hend
        obtain rfl := List.append_cancel_right hsplit
        rw [hall, byteLength_cons]
  | char hopens hquote =>
      refine .char (fun h => hopens ?_) hquote
      rw [← List.cons_append] at h
      exact h.of_append_cons hprinted hc

/-- White space at the end makes no difference to a token in front. -/
theorem Lexeme.append_blank {b : List Char} (hb : AllBlank b) (h : Lexeme lexis part t rest) :
    Lexeme lexis part t (rest ++ b) := by
  cases b with
  | nil => rwa [List.append_nil]
  | cons c b => exact h.append_cons hprinted (not_isPrinted_of_isBlank (hb c List.mem_cons_self)) b

/-- What has no end in a text takes all of it, wherever it ends behind the text. -/
theorem Lexeme.exists_more {text b : List Char} (hnone : token? lexis text = none)
    (h : Lexeme lexis part t rest) (htext : text ++ b = part ++ rest) :
    ∃ more, part = text ++ more ∧ b = more ++ rest := by
  rcases List.append_eq_append_iff.1 htext with ⟨more, hpart, hb⟩ | ⟨seg, rfl, rfl⟩
  · exact ⟨more, hpart, hb⟩
  · rcases h.front with hfront | ⟨rfl, -⟩
    · cases (hfront.token?_eq hprinted).symm.trans hnone
    · exact ⟨[], by simp, rfl⟩

/-- White space is a token of one character. -/
theorem lexeme_blank {c : Char} (hc : isBlank c = true) (rest : List Char) :
    Lexeme lexis [c] (.char c) rest :=
  .char (not_opens_blank hprinted hc rest) (not_mem_quotes_of_isBlank hprinted hc)

end

/-! ## The depth behind tokens -/

/-- How much deeper the text is nested behind a token. -/
def Token.nesting : Token → Int
  | .char c => Text.nesting false none c
  | .lineComment _ | .blockComment _ | .literal _ => 0

/-- The brackets that tokens open less those that they close. -/
def depthOf : List Token → Int
  | [] => 0
  | t :: ts => t.nesting + depthOf ts

@[simp] theorem depthOf_nil : depthOf [] = 0 := rfl

@[simp] theorem depthOf_cons (t : Token) (ts : List Token) :
    depthOf (t :: ts) = t.nesting + depthOf ts := rfl

@[simp] theorem depthOf_append (ts us : List Token) :
    depthOf (ts ++ us) = depthOf ts + depthOf us := by
  induction ts with
  | nil => exact (Int.zero_add _).symm
  | cons t ts ih => rw [List.cons_append, depthOf_cons, ih, depthOf_cons, Int.add_assoc]

end Text
end CodeAtlas
