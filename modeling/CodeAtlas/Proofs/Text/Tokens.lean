import CodeAtlas.Text.Block

/-!
# Tokens

A text is cut into tokens one after the other: a comment or a literal where it has an end, else a
single character. A comment goes on to the first place of what ends it.
-/

namespace CodeAtlas

/-- The lexical conventions of all languages. -/
def Lexis.all : List Lexis := [.slashed, .rust, .hash, .hcl, .lua, .json, .php]

/-- No comment up to the end of a line starts with text that holds a newline. -/
theorem Lexis.newline_not_mem_lead : ∀ lexis ∈ all, ∀ lead ∈ lexis.lineComments, '\n' ∉ lead := by
  decide

namespace Text

/-! ## Tokens -/

/-- The text starts with a comment of any length, or with what would be one if it had an end. -/
def OpensBlock (lexis : Lexis) (text : List Char) : Prop :=
  ∃ d, lexis.blockComment? = some d ∧ d.lead <+: text

/-- The text starts with a comment up to the end of its line. -/
def OpensLine (lexis : Lexis) (text : List Char) : Prop :=
  ∃ lead ∈ lexis.lineComments, lead <+: text

/-- The first token of a text and what stands behind it. Comments of any length come before those up
to the end of their line, and these before literals. -/
inductive Takes (lexis : Lexis) : List Char → Token → List Char → Prop
  | blockComment {d : Delimiters} {front rest : List Char} (hd : lexis.blockComment? = some d)
      (hfirst : ∀ a b, front = a ++ b → b ≠ [] → ¬ d.tail <+: b ++ (d.tail ++ rest)) :
      Takes lexis (d.lead ++ (front ++ (d.tail ++ rest)))
        (.blockComment (byteLength (d.lead ++ (front ++ d.tail)))) rest
  | lineComment {lead front rest : List Char}
      (hblock : ¬ OpensBlock lexis (lead ++ (front ++ '\n' :: rest)))
      (hlead : lead ∈ lexis.lineComments) (hfront : '\n' ∉ front) :
      Takes lexis (lead ++ (front ++ '\n' :: rest))
        (.lineComment (byteLength (lead ++ (front ++ ['\n'])))) rest
  | literal {quote : Char} {inside rest : List Char}
      (hblock : ¬ OpensBlock lexis (quote :: (inside ++ rest)))
      (hline : ¬ OpensLine lexis (quote :: (inside ++ rest))) (hquote : quote ∈ lexis.quotes)
      (hend : skipLiteral? quote (quote :: (inside ++ rest)) 0
        = some (byteLength (quote :: inside))) :
      Takes lexis (quote :: (inside ++ rest)) (.literal (byteLength (quote :: inside))) rest
  | char {c : Char} {rest : List Char} (hblock : ¬ OpensBlock lexis (c :: rest))
      (hline : ¬ OpensLine lexis (c :: rest)) (hquote : c ∉ lexis.quotes) :
      Takes lexis (c :: rest) (.char c) rest

/-- A text starts with a comment or a literal that has no end. -/
inductive Unended (lexis : Lexis) : List Char → Prop
  | blockComment {d : Delimiters} {rest : List Char} (hd : lexis.blockComment? = some d)
      (htail : ¬ d.tail <:+: rest) : Unended lexis (d.lead ++ rest)
  | lineComment {lead rest : List Char} (hblock : ¬ OpensBlock lexis (lead ++ rest))
      (hlead : lead ∈ lexis.lineComments) (hrest : '\n' ∉ rest) : Unended lexis (lead ++ rest)
  | literal {quote : Char} {rest : List Char} (hblock : ¬ OpensBlock lexis (quote :: rest))
      (hline : ¬ OpensLine lexis (quote :: rest)) (hquote : quote ∈ lexis.quotes)
      (hend : skipLiteral? quote (quote :: rest) 0 = none) : Unended lexis (quote :: rest)

/-- A text is cut into tokens, as far as the text behind them. -/
inductive Cuts (lexis : Lexis) : List Char → List Token → List Char → Prop
  | nil (text : List Char) : Cuts lexis text [] text
  | cons {text mid rest : List Char} {t : Token} {ts : List Token} (ht : Takes lexis text t mid)
      (hts : Cuts lexis mid ts rest) : Cuts lexis text (t :: ts) rest

/-- The bytes that tokens take. -/
def bytesOf : List Token → Nat
  | [] => 0
  | t :: ts => t.size + bytesOf ts

@[simp] theorem bytesOf_nil : bytesOf [] = 0 := rfl

@[simp] theorem bytesOf_cons (t : Token) (ts : List Token) :
    bytesOf (t :: ts) = t.size + bytesOf ts := rfl

@[simp] theorem bytesOf_append (a b : List Token) : bytesOf (a ++ b) = bytesOf a + bytesOf b := by
  induction a with
  | nil => simp
  | cons t a ih => rw [List.cons_append, bytesOf_cons, ih, bytesOf_cons, Nat.add_assoc]

/-- Tokens of the same sizes have the same bytes. -/
theorem bytesOf_eq_of_map {ts us : List Token} (h : ts.map Token.size = us.map Token.size) :
    bytesOf ts = bytesOf us := by
  induction ts generalizing us with
  | nil => rw [List.map_eq_nil_iff.1 h.symm]
  | cons t ts ih =>
      obtain ⟨u, us, rfl, hu, hus⟩ := List.map_eq_cons_iff.1 h.symm
      rw [bytesOf_cons, bytesOf_cons, hu, ih hus.symm]

/-! ## Literals -/

/-- A literal ends at its quote, or in front of a newline that it cannot span, or goes on. -/
theorem literalEnd?_cons {c : Char} (hslash : c ≠ '\\') (quote : Char) (size : Nat)
    (text : List Char) :
    literalEnd? quote size (c :: text) =
      if c = quote then some (size + c.utf8Size, text)
      else if c = '\n' && !spansLines quote then some (size, c :: text)
      else literalEnd? quote (size + c.utf8Size) text := by
  rw [literalEnd?]
  · rintro rfl
    exact fun _ => hslash rfl
  · rintro d rest rfl
    exact fun _ => hslash rfl

/-- A backslash and the character behind it do not end a literal. -/
theorem literalEnd?_escape (quote c : Char) (size : Nat) (text : List Char) :
    literalEnd? quote size ('\\' :: c :: text)
      = literalEnd? quote (size + 1 + c.utf8Size) text := by
  rw [literalEnd?]

/-- Dropping bytes leaves what stands behind a text of so many bytes. -/
theorem dropBytes?_eq_some_iff {n : Nat} {text rest : List Char} :
    dropBytes? n text = some rest ↔ ∃ front, text = front ++ rest ∧ byteLength front = n := by
  constructor
  · intro h
    fun_induction dropBytes? n text with
    | case1 => exact ⟨[], Option.some.inj h, rfl⟩
    | case2 => cases h
    | case3 n c text hle ih =>
        obtain ⟨front, rfl, hfront⟩ := ih h
        exact ⟨c :: front, rfl, by rw [byteLength_cons, hfront]; omega⟩
    | case4 => cases h
  · rintro ⟨front, rfl, rfl⟩
    exact dropBytes?_byteLength_append front rest

/-- Two ways to split a text at one offset are the same. -/
theorem append_inj_byteLength {a b a' b' : List Char} (h : a ++ b = a' ++ b')
    (hlength : byteLength a = byteLength a') : a = a' ∧ b = b' := by
  have hdrop := dropBytes?_byteLength_append a b
  rw [h, hlength, dropBytes?_byteLength_append] at hdrop
  obtain rfl := Option.some.inj hdrop
  exact ⟨List.append_cancel_right h, rfl⟩

/-- What starts two texts behind each other starts the first, or is the first and a start of the
second. -/
theorem prefix_append_cases {α : Type} {a b c : List α} (h : a <+: b ++ c) :
    a <+: b ∨ ∃ d, a = b ++ d ∧ d <+: c := by
  obtain ⟨rest, hrest⟩ := h
  rcases List.append_eq_append_iff.1 hrest with ⟨d, hb, -⟩ | ⟨d, ha, hc⟩
  · exact .inl ⟨d, hb.symm⟩
  · exact .inr ⟨d, ha, rest, hc.symm⟩

/-- A character that starts neither of the other cases of `literalEnd?` is no backslash. -/
theorem ne_backslash {c : Char} {text : List Char} (hlone : c = '\\' → text = [] → False)
    (hescape : ∀ d rest, c = '\\' → text = d :: rest → False) : c ≠ '\\' := by
  intro hc
  cases text with
  | nil => exact hlone hc rfl
  | cons d text => exact hescape d text hc rfl

/-- A literal ends with its quote, whatever follows, or in front of a newline that it needs for its
end. -/
theorem literalEnd?_cases {quote : Char} {size n : Nat} {text rest : List Char}
    (h : literalEnd? quote size text = some (n, rest)) :
    ∃ inside, text = inside ++ rest ∧ n = size + byteLength inside ∧
      ((∀ m back, literalEnd? quote m (inside ++ back) = some (m + byteLength inside, back)) ∨
        (rest.head? = some '\n' ∧ (∀ m, literalEnd? quote m inside = none) ∧
          ∀ m back, back.head? = some '\n' →
            literalEnd? quote m (inside ++ back) = some (m + byteLength inside, back))) := by
  fun_induction literalEnd? quote size text with
  | case1 => cases h
  | case2 => cases h
  | case3 size c text ih =>
      -- an escape takes the character behind the backslash, whatever it is
      obtain ⟨inside, rfl, rfl, hend⟩ := ih h
      have hslash : Char.utf8Size '\\' = 1 := rfl
      have hsize : ∀ m, m + 1 + c.utf8Size + byteLength inside
          = m + byteLength ('\\' :: c :: inside) := by
        intro m
        simp [hslash]
        omega
      refine ⟨'\\' :: c :: inside, rfl, hsize size,
        hend.imp (fun hall m back => ?_) (And.imp_right ?_)⟩
      · rw [List.cons_append, List.cons_append, literalEnd?_escape, hall, hsize]
      · refine And.imp (fun hnone m => ?_) (fun hsome m back hback => ?_)
        · rw [literalEnd?_escape, hnone]
        · rw [List.cons_append, List.cons_append, literalEnd?_escape, hsome _ _ hback, hsize]
  | case4 size text hlone hescape =>
      -- the closing quote ends the string in any text
      obtain ⟨rfl, rfl⟩ := Prod.mk.injEq .. ▸ Option.some.inj h
      have hslash := ne_backslash hlone hescape
      refine ⟨[quote], rfl, by simp, .inl fun m back => ?_⟩
      rw [List.singleton_append, literalEnd?_cons hslash, if_pos rfl]
      simp
  | case5 size c text hlone hescape hquote hline =>
      -- a newline ends the string too, but only where there is one
      obtain ⟨rfl, rfl⟩ := Prod.mk.injEq .. ▸ Option.some.inj h
      have hc : c = '\n' := by simpa using (Bool.and_eq_true_iff.1 hline).1
      refine ⟨[], rfl, rfl, .inr ⟨congrArg some hc, fun m => rfl, fun m back hback => ?_⟩⟩
      obtain ⟨back, rfl⟩ := List.head?_eq_some_iff.1 hback
      subst hc
      rw [List.nil_append, literalEnd?_cons (by decide), if_neg hquote, if_pos hline]
      rfl
  | case6 size c text hlone hescape hquote hline ih =>
      -- any other character belongs to the string
      have hslash := ne_backslash hlone hescape
      obtain ⟨inside, rfl, rfl, hend⟩ := ih h
      have hsize : ∀ m, m + c.utf8Size + byteLength inside = m + byteLength (c :: inside) := by
        intro m
        simp
        omega
      have hstep : ∀ m back, literalEnd? quote m (c :: back)
          = literalEnd? quote (m + c.utf8Size) back := by
        intro m back
        rw [literalEnd?_cons hslash, if_neg hquote, if_neg hline]
      refine ⟨c :: inside, rfl, hsize size, hend.imp (fun hall m back => ?_) (And.imp_right ?_)⟩
      · rw [List.cons_append, hstep, hall, hsize]
      · refine And.imp (fun hnone m => ?_) (fun hsome m back hback => ?_)
        · rw [hstep, hnone]
        · rw [List.cons_append, hstep, hsome _ _ hback, hsize]

/-- A literal that ends in a text ends there from wherever it is counted, and whatever follows the
text. -/
theorem exists_of_literalEnd? {quote : Char} {size n : Nat} {text rest : List Char}
    (h : literalEnd? quote size text = some (n, rest)) :
    ∃ inside, text = inside ++ rest ∧ n = size + byteLength inside
      ∧ ∀ m s, literalEnd? quote m (inside ++ (rest ++ s))
        = some (m + byteLength inside, rest ++ s) := by
  obtain ⟨inside, rfl, rfl, hend⟩ := literalEnd?_cases h
  refine ⟨inside, rfl, rfl, fun m s => ?_⟩
  rcases hend with hall | ⟨hhead, -, hsome⟩
  · exact hall m (rest ++ s)
  · obtain ⟨back, rfl⟩ := List.head?_eq_some_iff.1 hhead
    exact hsome m _ rfl

/-- The end of a literal in the text from its first quote on. -/
theorem skipLiteral?_eq_some_iff {quote : Char} {text : List Char} {n : Nat} :
    skipLiteral? quote (quote :: text) 0 = some n ↔
      ∃ inside rest, text = inside ++ rest ∧ n = byteLength (quote :: inside)
        ∧ literalEnd? quote quote.utf8Size text = some (n, rest) := by
  have hdrop : dropBytes? (0 + quote.utf8Size) (quote :: text) = some text := by
    have := dropBytes?_byteLength_append [quote] text
    rwa [byteLength_cons, byteLength_nil, Nat.add_zero, ← Nat.zero_add quote.utf8Size] at this
  rw [skipLiteral?, hdrop, Nat.zero_add, Option.bind_eq_bind, Option.bind_some]
  constructor
  · intro h
    obtain ⟨⟨stop, rest⟩, hend, hstop⟩ := Option.bind_eq_some_iff.1 h
    obtain rfl := Option.some.inj hstop
    obtain ⟨inside, rfl, rfl, -⟩ := exists_of_literalEnd? hend
    exact ⟨inside, rest, rfl, (byteLength_cons ..).symm, hend⟩
  · rintro ⟨inside, rest, rfl, rfl, hend⟩
    rw [hend]
    rfl

/-! ## Comments -/

/-- There is no comment where its start does not stand. -/
theorem comment?_eq_none_iff {d : Delimiters} {text : List Char} :
    comment? d text = none ↔ ¬ d.lead <+: text := by
  rw [comment?, Option.map_eq_none_iff]
  constructor
  · rintro h ⟨rest, hrest⟩
    rw [after?_eq_some_iff.2 hrest.symm] at h
    cases h
  · intro h
    exact Option.eq_none_iff_forall_ne_some.2 fun rest hrest =>
      h ⟨rest, (after?_eq_some_iff.1 hrest).symm⟩

/-- A comment goes from its start to the first place where its end stands. -/
theorem comment?_lead (d : Delimiters) (inside : List Char) :
    comment? d (d.lead ++ inside) = some ((cut? d.tail inside).map fun (front, rest) =>
      (byteLength d.lead + byteLength front + byteLength d.tail, rest)) := by
  rw [comment?, after?_eq_some_iff.2 rfl, Option.map_some]

/-- A comment goes on to the first place of what ends it. -/
theorem comment?_eq_some_iff {d : Delimiters} {text rest : List Char} {n : Nat} :
    comment? d text = some (some (n, rest)) ↔
      ∃ front, text = d.lead ++ (front ++ (d.tail ++ rest))
        ∧ n = byteLength (d.lead ++ (front ++ d.tail))
        ∧ ∀ a b, front = a ++ b → b ≠ [] → ¬ d.tail <+: b ++ (d.tail ++ rest) := by
  constructor
  · intro h
    obtain ⟨inside, hinside, hmap⟩ := Option.map_eq_some_iff.1 h
    obtain ⟨⟨front, rest'⟩, hcut, heq⟩ := Option.map_eq_some_iff.1 hmap
    obtain ⟨rfl, rfl⟩ := Prod.mk.injEq .. ▸ heq
    obtain ⟨rfl, hfirst⟩ := cut?_eq_some_iff.1 hcut
    exact ⟨front, after?_eq_some_iff.1 hinside, by simp [Nat.add_assoc], hfirst⟩
  · rintro ⟨front, rfl, rfl, hfirst⟩
    rw [comment?_lead, cut?_eq_some_iff.2 ⟨rfl, hfirst⟩]
    simp [Nat.add_assoc]

section
variable {lexis : Lexis} {text : List Char}

/-- Where no block comment opens none is read. -/
theorem not_opensBlock_iff :
    ¬ OpensBlock lexis text ↔ lexis.blockComment?.bind (comment? · text) = none := by
  cases h : lexis.blockComment? with
  | none => simp [OpensBlock, h]
  | some d => simp [OpensBlock, h, comment?_eq_none_iff]

/-- Where no comment up to the end of a line opens none is read. -/
theorem not_opensLine_iff : ¬ OpensLine lexis text ↔
    (lexis.lineComments.findSome? fun lead => comment? (lineEnding lead) text) = none := by
  rw [List.findSome?_eq_none_iff]
  simp only [comment?_eq_none_iff, OpensLine, not_exists, not_and]
  rfl

/-- A block comment is read as a token. -/
theorem token?_block {d : Delimiters} (hd : lexis.blockComment? = some d)
    {ending : Option (Nat × List Char)} (hcomment : comment? d text = some ending) :
    token? lexis text = ending.map fun (n, rest) => (.blockComment n, rest) := by
  rw [token?.eq_def, hd, Option.bind_some, hcomment]

/-- A comment up to the end of a line is read as a token where no block comment opens. -/
theorem token?_line (hblock : ¬ OpensBlock lexis text) {ending : Option (Nat × List Char)}
    (hcomment : (lexis.lineComments.findSome? fun lead => comment? (lineEnding lead) text)
      = some ending) :
    token? lexis text = ending.map fun (n, rest) => (.lineComment n, rest) := by
  rw [token?.eq_def, not_opensBlock_iff.1 hblock]
  simp only [hcomment]

/-- Where no comment opens, a literal or a character is read. -/
theorem token?_cons {c : Char} {rest : List Char} (hblock : ¬ OpensBlock lexis (c :: rest))
    (hline : ¬ OpensLine lexis (c :: rest)) :
    token? lexis (c :: rest) = if lexis.quotes.contains c then
      (literalEnd? c c.utf8Size rest).map fun (n, rest) => (.literal n, rest)
        else some (.char c, rest) := by
  rw [token?.eq_def, not_opensBlock_iff.1 hblock]
  simp only [not_opensLine_iff.1 hline]

/-- What is read as a token is taken by it. -/
theorem takes_of_token? {t : Token} {rest : List Char} (h : token? lexis text = some (t, rest)) :
    Takes lexis text t rest := by
  -- a comment is tried before a string, and a block before a line
  by_cases hblock : OpensBlock lexis text
  · obtain ⟨d, hd, inside, rfl⟩ := hblock
    rw [token?_block hd (comment?_lead d inside)] at h
    obtain ⟨⟨n, rest'⟩, hcut, heq⟩ := Option.map_eq_some_iff.1 h
    obtain ⟨rfl, rfl⟩ := Prod.mk.injEq .. ▸ heq
    obtain ⟨front, htext, rfl, hfirst⟩ :=
      comment?_eq_some_iff.1 ((comment?_lead d inside).trans (congrArg some hcut))
    rw [htext]
    exact .blockComment hd hfirst
  by_cases hline : OpensLine lexis text
  · cases hfind : lexis.lineComments.findSome? fun lead => comment? (lineEnding lead) text with
    | none => exact absurd hline (not_opensLine_iff.2 hfind)
    | some ending =>
        rw [token?_line hblock hfind] at h
        obtain ⟨⟨n, rest'⟩, rfl, heq⟩ := Option.map_eq_some_iff.1 h
        obtain ⟨rfl, rfl⟩ := Prod.mk.injEq .. ▸ heq
        -- the comment ends in front of the first newline, so it holds none
        obtain ⟨lead, hlead, hcomment⟩ := List.exists_of_findSome?_eq_some hfind
        obtain ⟨front, rfl, rfl, hfirst⟩ := comment?_eq_some_iff.1 hcomment
        refine .lineComment hblock hlead fun hmem => ?_
        obtain ⟨a, b, hsplit⟩ := List.append_of_mem hmem
        exact hfirst a ('\n' :: b) hsplit (List.cons_ne_nil _ _) ⟨_, rfl⟩
  -- no comment: a quote begins a string, every other character is a token of its own
  cases text with
  | nil => simp [token?.eq_def, not_opensBlock_iff.1 hblock, not_opensLine_iff.1 hline] at h
  | cons c text =>
      rw [token?_cons hblock hline] at h
      split at h
      · next hquote =>
        obtain ⟨⟨n, rest'⟩, hend, heq⟩ := Option.map_eq_some_iff.1 h
        obtain ⟨rfl, rfl⟩ := Prod.mk.injEq .. ▸ heq
        obtain ⟨inside, rfl, rfl, -⟩ := exists_of_literalEnd? hend
        have hskip := skipLiteral?_eq_some_iff.2 ⟨inside, _, rfl, rfl,
          by rw [byteLength_cons]; exact hend⟩
        rw [← byteLength_cons]
        exact .literal hblock hline (List.contains_iff_mem.1 hquote) hskip
      · next hquote =>
        obtain ⟨rfl, rfl⟩ := Prod.mk.injEq .. ▸ Option.some.inj h
        exact .char hblock hline fun hmem => hquote (List.contains_iff_mem.2 hmem)

/-- Of the words that start a comment up to the end of its line, the first that starts it counts. -/
theorem exists_of_opensLine (h : OpensLine lexis text) :
    ∃ lead ∈ lexis.lineComments, ∃ inside, text = lead ++ inside
      ∧ (lexis.lineComments.findSome? fun lead => comment? (lineEnding lead) text)
        = comment? (lineEnding lead) (lead ++ inside) := by
  cases hfind : lexis.lineComments.findSome? fun lead => comment? (lineEnding lead) text with
  | none => exact absurd h (not_opensLine_iff.2 hfind)
  | some ending =>
      obtain ⟨lead, hlead, hcomment⟩ := List.exists_of_findSome?_eq_some hfind
      obtain ⟨inside, rfl⟩ : lead <+: text := by
        refine Decidable.byContradiction fun hnone => ?_
        rw [comment?_eq_none_iff.2 hnone] at hcomment
        cases hcomment
      exact ⟨lead, hlead, inside, rfl, hcomment.symm⟩

/-- A comment up to the end of its line ends with the first newline. -/
theorem comment?_line {lead front : List Char} (hfront : '\n' ∉ front) (rest : List Char) :
    comment? (lineEnding lead) (lead ++ (front ++ '\n' :: rest))
      = some (some (byteLength (lead ++ (front ++ ['\n'])), rest)) :=
  comment?_eq_some_iff.2 ⟨front, rfl, rfl, (cut?_eq_some_iff.1 (cut?_singleton hfront rest)).2⟩

variable (hleads : ∀ lead ∈ lexis.lineComments, '\n' ∉ lead)
include hleads

/-- What a token takes is read as the token. -/
theorem token?_of_takes {t : Token} {rest : List Char} (h : Takes lexis text t rest) :
    token? lexis text = some (t, rest) := by
  cases h with
  | blockComment hd hfirst =>
      rw [token?_block hd (comment?_eq_some_iff.2 ⟨_, rfl, rfl, hfirst⟩)]; rfl
  | @lineComment lead front rest hblock hlead hfront =>
      -- the first lead that fits may be another one, but its comment ends at the same newline
      obtain ⟨lead', hlead', inside, hsplit, hfind⟩ := exists_of_opensLine ⟨lead, hlead, _, rfl⟩
      obtain ⟨c, hc, rfl⟩ : ∃ c, lead ++ front = lead' ++ c ∧ inside = c ++ '\n' :: rest := by
        rw [← List.append_assoc] at hsplit
        rcases List.append_eq_append_iff.1 hsplit with ⟨c, hc, hrest⟩ | hc
        · -- the word has no newline, and so it ends where the newline stands
          cases c with
          | nil => exact ⟨[], by simpa using hc.symm, by simpa using hrest.symm⟩
          | cons d c =>
              obtain rfl := (List.cons.inj hrest).1
              exact absurd (hc ▸ List.mem_append_right _ List.mem_cons_self) (hleads lead' hlead')
        · exact hc
      have hnone : '\n' ∉ c := by
        intro hmem
        have : '\n' ∈ lead ++ front := hc ▸ List.mem_append_right lead' hmem
        exact (List.mem_append.1 this).elim (hleads lead hlead) hfront
      rw [token?_line hblock (hfind.trans (comment?_line hnone rest)), ← List.append_assoc lead',
        ← hc, List.append_assoc]
      rfl
  | @literal quote inside rest hblock hline hquote hend =>
      obtain ⟨inside', rest', hsplit, hsize, hend⟩ := skipLiteral?_eq_some_iff.1 hend
      rw [token?_cons hblock hline, if_pos (List.contains_iff_mem.2 hquote), hend,
        Option.map_some, hsize]
      rw [byteLength_cons, byteLength_cons] at hsize
      rw [(append_inj_byteLength hsplit (Nat.add_left_cancel hsize)).2]
  | char hblock hline hquote =>
      rw [token?_cons hblock hline, if_neg fun h => hquote (List.contains_iff_mem.1 h)]

/-- A part without an end is no token. -/
theorem token?_of_unended (h : Unended lexis text) : token? lexis text = none := by
  cases h with
  | blockComment hd htail => rw [token?_block hd (comment?_lead _ _), cut?_eq_none htail]; rfl
  | @lineComment lead rest hblock hlead hrest =>
      obtain ⟨lead', -, inside, hsplit, hfind⟩ := exists_of_opensLine ⟨lead, hlead, rest, rfl⟩
      have hnone : ¬ ['\n'] <:+: inside := by
        rintro ⟨a, b, rfl⟩
        have : '\n' ∈ lead ++ rest := hsplit ▸ by simp
        exact (List.mem_append.1 this).elim (hleads lead hlead) hrest
      rw [token?_line hblock (hfind.trans (comment?_lead _ _))]
      show Option.map _ (Option.map _ (cut? ['\n'] inside)) = none
      rw [cut?_eq_none hnone]
      rfl
  | @literal quote rest hblock hline hquote hend =>
      rw [token?_cons hblock hline, if_pos (List.contains_iff_mem.2 hquote), Option.map_eq_none_iff]
      refine Option.eq_none_iff_forall_ne_some.2 fun ⟨n, rest'⟩ hsome => ?_
      obtain ⟨inside, rfl, rfl, -⟩ := exists_of_literalEnd? hsome
      rw [skipLiteral?_eq_some_iff.2 ⟨inside, rest', rfl, (byteLength_cons ..).symm, hsome⟩] at hend
      cases hend

omit hleads

/-- A token takes a part of the text of its size. -/
theorem Takes.exists_append {t : Token} {rest : List Char} (h : Takes lexis text t rest) :
    ∃ part, text = part ++ rest ∧ byteLength part = t.size ∧ part ≠ [] := by
  cases h with
  | @blockComment d front =>
      refine ⟨d.lead ++ (front ++ d.tail), by simp, rfl, fun hnil => d.tail_ne_nil ?_⟩
      exact (List.append_eq_nil_iff.1 (List.append_eq_nil_iff.1 hnil).2).2
  | @lineComment lead front => exact ⟨lead ++ (front ++ ['\n']), by simp, rfl, by simp⟩
  | literal => exact ⟨_, rfl, rfl, List.cons_ne_nil _ _⟩
  | char => exact ⟨[_], rfl, by simp [Token.size], List.cons_ne_nil _ _⟩

end

/-! ## Cuts -/

section
variable {lexis : Lexis} {text rest : List Char} {ts : List Token}

/-- What is cut into tokens has their bytes. -/
theorem Cuts.exists_append (h : Cuts lexis text ts rest) :
    ∃ part, text = part ++ rest ∧ byteLength part = bytesOf ts := by
  induction h with
  | nil => exact ⟨[], rfl, rfl⟩
  | cons ht _ ih =>
      obtain ⟨part, rfl, hpart, -⟩ := ht.exists_append
      obtain ⟨parts, rfl, hparts⟩ := ih
      exact ⟨part ++ parts,
        by rw [List.append_assoc], by rw [byteLength_append, hpart, hparts]; rfl⟩

/-- A text is cut into tokens part by part. -/
theorem Cuts.append {us : List Token} {back : List Char} (h : Cuts lexis text ts rest)
    (h' : Cuts lexis rest us back) : Cuts lexis text (ts ++ us) back := by
  induction h with
  | nil => exact h'
  | cons ht _ ih => exact .cons ht (ih h')

/-- A cut may be made in two. -/
theorem Cuts.exists_mid {us : List Token} (h : Cuts lexis text (ts ++ us) rest) :
    ∃ mid, Cuts lexis text ts mid ∧ Cuts lexis mid us rest := by
  induction ts generalizing text with
  | nil => exact ⟨text, .nil text, h⟩
  | cons t ts ih =>
      cases h with
      | cons ht hts =>
          obtain ⟨mid, hmid, hrest⟩ := ih hts
          exact ⟨mid, .cons ht hmid, hrest⟩

variable (hleads : ∀ lead ∈ lexis.lineComments, '\n' ∉ lead)
include hleads

/-- Of two cuts of a text one goes on where the other ends. -/
theorem Cuts.comparable {text rest back : List Char} {ts us : List Token}
    (h : Cuts lexis text ts rest) (h' : Cuts lexis text us back) :
    (∃ vs, us = ts ++ vs ∧ Cuts lexis rest vs back) ∨ ∃ vs, ts = us ++ vs
      ∧ Cuts lexis back vs rest := by
  induction h generalizing us with
  | nil => exact .inl ⟨us, rfl, h'⟩
  | @cons text mid rest t ts ht hts ih =>
      cases h' with
      | nil => exact .inr ⟨t :: ts, rfl, .cons ht hts⟩
      | cons hu hus =>
          cases (token?_of_takes hleads ht).symm.trans (token?_of_takes hleads hu)
          obtain ⟨vs, rfl, hvs⟩ | ⟨vs, rfl, hvs⟩ := ih hus
          · exact .inl ⟨vs, rfl, hvs⟩
          · exact .inr ⟨vs, rfl, hvs⟩

/-- A cut that ends behind another one goes on where the other ends. -/
theorem Cuts.exists_behind {text mid rest : List Char} {ts us : List Token}
    (h : Cuts lexis text ts mid) (h' : Cuts lexis text us rest) (hle : rest.length ≤ mid.length) :
    ∃ vs, us = ts ++ vs ∧ Cuts lexis mid vs rest := by
  obtain hbehind | ⟨vs, rfl, hvs⟩ := h.comparable hleads h'
  · exact hbehind
  · cases hvs with
    | nil => exact ⟨[], by rw [List.append_nil, List.append_nil], .nil _⟩
    | cons ht hvs =>
        obtain ⟨part, rfl, -, hne⟩ := ht.exists_append
        obtain ⟨parts, rfl, -⟩ := hvs.exists_append
        have hpos := List.length_pos_iff.2 hne
        rw [List.length_append, List.length_append] at hle
        omega

/-- Two cuts of a text with the same bytes have the same tokens. -/
theorem Cuts.eq_of_bytesOf {text rest back : List Char} {ts us : List Token}
    (h : Cuts lexis text ts rest) (h' : Cuts lexis text us back) (heq : bytesOf ts = bytesOf us) :
    ts = us := by
  have hnil : ∀ {text rest vs}, Cuts lexis text vs rest → bytesOf vs = 0 → vs = [] := by
    intro text rest vs hvs hzero
    cases hvs with
    | nil => rfl
    | cons ht _ =>
        obtain ⟨part, -, hpart, hne⟩ := ht.exists_append
        obtain ⟨c, part, rfl⟩ := List.exists_cons_of_ne_nil hne
        have := c.utf8Size_pos
        rw [byteLength_cons] at hpart
        rw [bytesOf_cons] at hzero
        omega
  obtain ⟨vs, rfl, hvs⟩ | ⟨vs, rfl, hvs⟩ := h.comparable hleads h'
  · rw [hnil hvs (by rw [bytesOf_append] at heq; omega), List.append_nil]
  · rw [hnil hvs (by rw [bytesOf_append] at heq; omega), List.append_nil]

/-- Where a text is cut like another one and goes on like it, all its cuts are like those of the
other one. -/
theorem Cuts.exists_map_eq {α : Type} {f : Token → α} {text text' back rest : List Char}
    {ts ts' us : List Token} (h : Cuts lexis text ts back) (h' : Cuts lexis text' ts' back)
    (heq : ts.map f = ts'.map f) (hus : Cuts lexis text us rest) :
    ∃ us' rest', Cuts lexis text' us' rest' ∧ us.map f = us'.map f := by
  obtain ⟨vs, rfl, hvs⟩ | ⟨vs, rfl, -⟩ := h.comparable hleads hus
  · exact ⟨ts' ++ vs, rest, h'.append hvs, by rw [List.map_append, List.map_append, heq]⟩
  · rw [List.map_append] at heq
    obtain ⟨us', vs', rfl, hmap, -⟩ := List.map_eq_append_iff.1 heq.symm
    obtain ⟨mid, hmid, -⟩ := h'.exists_mid
    exact ⟨us', mid, hmid, hmap.symm⟩

/-- Behind a cut that ends at something without an end there are no tokens. -/
theorem Cuts.prefix_of_unended {text rest back : List Char} {ts us : List Token}
    (h : Cuts lexis text ts rest) (hend : Unended lexis rest) (h' : Cuts lexis text us back) :
    us <+: ts := by
  obtain ⟨vs, rfl, hvs⟩ | ⟨vs, rfl, -⟩ := h.comparable hleads h'
  · cases hvs with
    | nil => simp
    | cons hv _ => cases (token?_of_takes hleads hv).symm.trans (token?_of_unended hleads hend)
  · exact List.prefix_append us vs

end

end Text
end CodeAtlas
