import CodeAtlas.Proofs.Text.Tokens
import CodeAtlas.Proofs.Text.Trim
import CodeAtlas.Source.Php.Validation

/-!
# Bodies of arrays

An array holds entries with commas between them and behind the last one if need be: values, each
with a key and an arrow in front or without. Values are literals, words and arrays again; white
space and comments stand anywhere. The walk over the rules reads such a body part by part: gaps and
words leave its place, a literal in front of an arrow is a key, and what is nested deeper than the
methods gives nothing.
-/

namespace CodeAtlas.Source.Php

open Text
open Unicode (isBlank)

/-! ## Words, literals and gaps -/

/-- What a walk over the rules looks at: the characters that start literals and comments, and
brackets. -/
def marks : List Char := ['\'', '"', '#', '/', '(', ')', '[', ']']

/-- A number or the name of a constant. -/
structure Word where
  text : List Char
  ne_nil : text ≠ []
  plain : ∀ c ∈ text, isBlank c = false ∧ c ∉ marks ++ [',', '=', '>', ';']

/-- What may stand between two quotes: no quote that is not escaped, and a line end only if such a
literal may go on behind it. -/
inductive Inside (quote : Char) : List Char → Prop
  | nil : Inside quote []
  | escape (c : Char) {rest : List Char} (h : Inside quote rest) : Inside quote ('\\' :: c :: rest)
  | char {c : Char} {rest : List Char} (hslash : c ≠ '\\') (hquote : c ≠ quote)
      (hline : c = '\n' → spansLines quote = true) (h : Inside quote rest) : Inside
        quote (c :: rest)

/-- A string literal: quotes, and between them text in which none of them closes it. -/
structure Literal where
  quote : Char
  inside : List Char
  isQuote : quote = '\'' ∨ quote = '"'
  closed : Inside quote inside

/-- The text of the literal, with its quotes. -/
def Literal.text (l : Literal) : List Char := l.quote :: (l.inside ++ [l.quote])

/-- The string that the literal stands for, as it is written. -/
def Literal.value (l : Literal) : String := String.ofList l.inside

/-- White space or a comment. The star that begins a comment does not end it too. -/
inductive Filler where
  | blank (c : Char) (h : isBlank c = true)
  | line (lead inside : List Char) (hlead : lead = ['#'] ∨ lead = ['/', '/'])
    (hinside : '\n' ∉ inside)
  | block (inside : List Char) (hinside : ¬ ['*', '/'] <:+: '*' :: inside)

/-- A filler as it stands in a text. -/
def Filler.text : Filler → List Char
  | blank c _ => [c]
  | line lead inside _ _ => lead ++ (inside ++ ['\n'])
  | block inside _ => ['/'] ++ (('*' :: inside) ++ ['*', '/'])

/-- Whether a filler is a comment. -/
def Filler.isComment : Filler → Bool
  | blank .. => false
  | line .. | block .. => true

/-- What stands between two words. -/
abbrev Gap := List Filler

/-- A gap as it stands in a text. -/
def Gap.text (g : Gap) : List Char := g.flatMap Filler.text

/-! ## Entries -/

/-- A key of an entry: a literal, or a word that is a number or a constant. -/
inductive Key where
  | literal (l : Literal)
  | word (w : Word)

/-- A key as it stands in a text. -/
def Key.text : Key → List Char
  | literal l => l.text
  | word w => w.text

/-- A key and an arrow. -/
structure Binding where
  key : Key
  gap : Gap := []
  behind : Gap := []

/-- A binding as it stands in a text: the key, the gap, and the arrow with the gap behind it. -/
def Binding.text (b : Binding) : List Char :=
  b.key.text ++ (b.gap.text ++ (['=', '>'] ++ b.behind.text))

/-- What stands in front of a value. -/
structure Lead where
  before : Gap := []
  binding? : Option Binding := none

/-- The lead of an entry as it stands in a text. -/
def Lead.text (l : Lead) : List Char := l.before.text ++ (l.binding?.map Binding.text).getD []

/-- What opens an array: a bracket, or a keyword in small or capital letters with a parenthesis. -/
inductive Opening where
  | bracket
  | keyword (word : List Char) (h : word.map Char.toLower = ['a', 'r', 'r', 'a', 'y']) (gap : Gap)

/-- The opening of an array as it stands in a text. -/
def Opening.text : Opening → List Char
  | bracket => ['[']
  | keyword word _ gap => word ++ (gap.text ++ ['('])

/-- The bracket that closes an array. -/
def Opening.closer : Opening → Char
  | bracket => ']'
  | keyword .. => ')'

mutual

/-- A value: a literal, a word, or an array with its entries. -/
inductive Value where
  | literal (l : Literal)
  | word (w : Word)
  | array (opening : Opening) (items : Items)

/-- The entries of an array: `cons` has a comma behind its entry. -/
inductive Items where
  | nil (gap : Gap)
  | last (lead : Lead) (value : Value) (behind : Gap)
  | cons (lead : Lead) (value : Value) (behind : Gap) (rest : Items)

end

mutual

/-- A value as it stands in a text. -/
def Value.text : Value → List Char
  | .literal l => l.text
  | .word w => w.text
  | .array opening items => opening.text ++ (items.text ++ [opening.closer])

/-- The text between the brackets of an array. -/
def Items.text : Items → List Char
  | .nil gap => gap.text
  | .last lead value behind => lead.text ++ (value.text ++ behind.text)
  | .cons lead value behind rest =>
      lead.text ++ (value.text ++ (behind.text ++ ([','] ++ rest.text)))

end

/-! ## Steps of the walk -/

section
variable {p q r : RulePlace} {offset : Nat} {text rest : List Char} {c : Char}

/-- In the empty text there are no keys of rules. -/
theorem ruleKeysFrom_nil : ruleKeysFrom p offset [] = [] := by
  rw [ruleKeysFrom]
  rfl

/-- The walk passes a comment over. -/
theorem ruleKeysFrom_comment (h : afterComment? text = some rest) :
    ruleKeysFrom p offset text
      = ruleKeysFrom p (offset + (byteLength text - byteLength rest)) rest := by
  rw [ruleKeysFrom]
  split
  · next hsome =>
    cases h.symm.trans hsome
    rfl
  · next hnone => cases h.symm.trans hnone

/-- What starts neither with a hash nor with a slash is no comment. -/
theorem afterComment?_eq_none (hhash : c ≠ '#') (hslash : c ≠ '/') (rest : List Char) :
    afterComment? (c :: rest) = none := by
  rw [afterComment?.eq_def]
  split <;> simp_all

/-- The walk takes a character that starts no comment and no literal. -/
theorem ruleKeysFrom_char (hhash : c ≠ '#') (hslash : c ≠ '/') (hquote : ¬ (c = '\'' ∨ c = '"')) :
    ruleKeysFrom p offset (c :: rest) = ruleKeysFrom (p.after c) (offset + c.utf8Size) rest := by
  rw [ruleKeysFrom]
  split
  · next hsome => cases (afterComment?_eq_none hhash hslash rest).symm.trans hsome
  · exact if_neg hquote

/-- The walk takes a literal, and a key with it if an arrow follows. -/
theorem ruleKeysFrom_quote (hquote : c = '\'' ∨ c = '"') :
    ruleKeysFrom p offset (c :: rest) =
      let literal := literalAt c rest
      let key := String.ofList (unquote (takeBytes literal.1 (c :: rest)))
      if arrowFollows literal.2 then
        (p.key? key offset).toList ++ ruleKeysFrom (p.afterKey key) (offset + literal.1) literal.2
      else ruleKeysFrom p (offset + literal.1) literal.2 := by
  have hnone : afterComment? (c :: rest) = none := by
    obtain rfl | rfl := hquote <;> rfl
  rw [ruleKeysFrom]
  split
  · next hsome => cases hnone.symm.trans hsome
  · exact if_pos hquote

/-- White space in front of an arrow makes no difference. -/
theorem arrowFollows_blank (hc : isBlank c = true) :
    arrowFollows (c :: rest) = arrowFollows rest := by
  rw [arrowFollows, arrowFollows, ← List.singleton_append,
    trimStart_append_blank (List.forall_mem_singleton.2 hc)]

/-- No arrow follows where another character stands. -/
theorem arrowFollows_of_ne (hc : isBlank c = false) (hne : c ≠ '=') :
    arrowFollows (c :: rest) = false := by
  rw [arrowFollows, trimStart_cons hc]
  simp [startsWith, after?, Ne.symm hne]

/-- An arrow follows where it stands. -/
theorem arrowFollows_arrow : arrowFollows (['=', '>'] ++ rest) = true := by
  have hequal : isBlank '=' = false := isBlank_of_isPrinted rfl
  rw [arrowFollows, List.cons_append, trimStart_cons hequal]
  rfl

theorem arrowFollows_nil : arrowFollows [] = false := rfl

end

/-! ## Parts of a text -/

/-- The walk over `part`, with `rest` behind it, finds `keys` and goes on at the place `q`. -/
def Reads (p : RulePlace) (offset : Nat) (part rest : List Char) (keys : List RuleKey)
    (q : RulePlace) : Prop :=
  ruleKeysFrom p offset (part ++ rest) = keys ++ ruleKeysFrom q (offset + byteLength part) rest

section
variable {p q r : RulePlace} {offset : Nat} {part more rest : List Char}
  {keys keys' : List RuleKey} {c : Char}

theorem Reads.nil : Reads p offset [] rest [] p := rfl

/-- What is read part by part is read as a whole. -/
theorem Reads.append (h : Reads p offset part (more ++ rest) keys q)
    (h' : Reads q (offset + byteLength part) more rest keys' r) :
    Reads p offset (part ++ more) rest (keys ++ keys') r := by
  rw [Reads] at h h' ⊢
  rw [List.append_assoc, h, h', byteLength_append, Nat.add_assoc, List.append_assoc]

/-- Reads on behind a part without keys. -/
theorem Reads.silent (h : Reads p offset part (more ++ rest) [] q)
    (h' : Reads q (offset + byteLength part) more rest keys r) :
    Reads p offset (part ++ more) rest keys r :=
  h.append h'

/-- A part without keys behind another is read with it. -/
theorem Reads.behind (h : Reads p offset part (more ++ rest) keys q)
    (h' : Reads q (offset + byteLength part) more rest [] r) :
    Reads p offset (part ++ more) rest keys r := by
  have happend := h.append h'
  rwa [List.append_nil] at happend

/-- A character that starts no comment and no literal changes the place only. -/
theorem Reads.char (hhash : c ≠ '#') (hslash : c ≠ '/') (hquote : ¬ (c = '\'' ∨ c = '"')) :
    Reads p offset [c] rest [] (p.after c) := by
  rw [Reads, List.singleton_append, ruleKeysFrom_char hhash hslash hquote, byteLength_cons,
    byteLength_nil]
  rfl

/-- Plain characters leave the place. -/
theorem Reads.plain (h : ∀ c ∈ part, c ∉ marks) : Reads p offset part rest [] p := by
  induction part generalizing offset with
  | nil => exact .nil
  | cons c part ih =>
      obtain ⟨hc, hpart⟩ := List.forall_mem_cons.1 h
      have hplace : p.after c = p := by
        rw [RulePlace.after, if_neg, if_neg] <;> (rintro (rfl | rfl) <;> exact hc (by decide))
      have hfirst : Reads p offset [c] (part ++ rest) [] (p.after c) := by
        refine .char ?_ ?_ ?_
        · rintro rfl
          exact hc (by decide)
        · rintro rfl
          exact hc (by decide)
        · rintro (rfl | rfl) <;> exact hc (by decide)
      rw [hplace] at hfirst
      exact hfirst.silent (ih hpart)

/-- White space is none of the marks. -/
theorem not_mem_marks_of_isBlank (hc : isBlank c = true) : c ∉ marks :=
  not_mem_of_isBlank (by decide) hc

/-- A comma changes nothing at the place of a rule. -/
theorem Reads.comma : Reads p offset [','] rest [] p := .plain (by simp [marks])

/-- The walk takes a word, and no key with it. -/
theorem Word.reads (w : Word) : Reads p offset w.text rest [] p :=
  .plain fun c hc hmem => (w.plain c hc).2 (List.mem_append_left _ hmem)

/-- A comment changes nothing at the place of a rule. -/
theorem Reads.comment (h : afterComment? (part ++ rest) = some rest) :
    Reads p offset part rest [] p := by
  rw [Reads, ruleKeysFrom_comment h, byteLength_append, Nat.add_sub_cancel_right]
  rfl

/-- A filler changes nothing at the place of a rule. -/
theorem Filler.reads (f : Filler) : Reads p offset f.text rest [] p := by
  cases f with
  | blank c hc => exact .plain (List.forall_mem_singleton.2 (not_mem_marks_of_isBlank hc))
  | line lead inside hlead hinside =>
      have hskip : (inside ++ '\n' :: rest).dropWhile (· != '\n') = '\n' :: rest := by
        have hall : ∀ c ∈ inside, (c != '\n') = true :=
          fun c hc => bne_iff_ne.2 (ne_of_mem_of_not_mem hc hinside)
        rw [List.dropWhile_append_of_pos hall]
        rfl
      have hcomment : afterComment? ((lead ++ inside) ++ '\n' :: rest) = some ('\n' :: rest) := by
        obtain rfl | rfl := hlead <;> exact congrArg some hskip
      have hnewline : Reads p (offset + byteLength (lead ++ inside)) ['\n'] rest [] p :=
        .plain (by simp [marks])
      rw [Filler.text, ← List.append_assoc]
      exact (Reads.comment hcomment).silent hnewline
  | block inside hinside =>
      refine .comment ?_
      have hcut : cut? ['*', '/'] (('*' :: inside) ++ (['*', '/'] ++ rest))
          = some ('*' :: inside, rest) := by
        -- an end in front of the last one takes at most the star of that one with it
        refine cut?_eq_some_iff.2 ⟨rfl, fun a b hsplit hb hprefix => ?_⟩
        rcases b with _ | ⟨d, _ | ⟨e, b⟩⟩
        · exact hb rfl
        · simp at hprefix
        · simp only [List.cons_append, List.cons_prefix_cons, List.nil_prefix, and_true] at hprefix
          obtain ⟨rfl, rfl⟩ := hprefix
          exact hinside ⟨a, b, by rw [hsplit]; simp⟩
      rw [Filler.text, List.append_assoc, List.append_assoc]
      exact congrArg (fun cut => some ((cut.map Prod.snd).getD [])) hcut

/-- A gap changes nothing at the place of a rule. -/
theorem Gap.reads (g : Gap) : Reads p offset g.text rest [] p := by
  induction g generalizing offset with
  | nil => exact .nil
  | cons f g ih => exact f.reads.silent ih

/-- No comment is in the gap. -/
def Gap.isBlank (g : Gap) : Bool := g.all fun f => !f.isComment

/-- An arrow follows behind a filler if it does so without, unless the filler is a comment. -/
theorem Filler.arrowFollows_append (f : Filler) :
    arrowFollows (f.text ++ rest) = (!f.isComment && arrowFollows rest) := by
  cases f with
  | blank c hc => exact arrowFollows_blank hc
  | line lead inside hlead =>
      obtain rfl | rfl := hlead <;> exact arrowFollows_of_ne (isBlank_of_isPrinted rfl) (by decide)
  | block => exact arrowFollows_of_ne (isBlank_of_isPrinted rfl) (by decide)

/-- An arrow is seen through white space and not through comments. -/
theorem Gap.arrowFollows_append (g : Gap) :
    arrowFollows (g.text ++ rest) = (g.isBlank && arrowFollows rest) := by
  induction g with
  | nil => rfl
  | cons f g ih =>
      rw [Gap.text, List.flatMap_cons, List.append_assoc, f.arrowFollows_append, Gap.isBlank,
        List.all_cons, Bool.and_assoc]
      exact congrArg _ ih

/-! ## Literals -/

/-- A literal ends at the first quote that closes it. -/
theorem literalEnd?_inside {quote : Char} {inside : List Char} (h : Inside quote inside)
    (hslash : quote ≠ '\\') (size : Nat) (rest : List Char) :
    literalEnd? quote size (inside ++ quote :: rest)
      = some (size + byteLength (inside ++ [quote]), rest) := by
  induction h generalizing size with
  | nil => simp [literalEnd?_cons hslash]
  | escape c _ ih =>
      rw [List.cons_append, List.cons_append, literalEnd?_escape, ih]
      have hone : Char.utf8Size '\\' = 1 := rfl
      simp [hone, Nat.add_assoc]
  | @char c rest hc hquote hline _ ih =>
      rw [List.cons_append, literalEnd?_cons hc, if_neg hquote, if_neg, ih]
      · simp [Nat.add_assoc]
      · intro h
        simp only [Bool.and_eq_true, decide_eq_true_eq, Bool.not_eq_true'] at h
        rw [hline h.1] at h
        cases h.2

/-- A literal without its quotes is what stands between them. -/
theorem Literal.unquote_text (l : Literal) : unquote l.text = l.inside := by
  have hprinted : isPrinted l.quote = true := by
    obtain h | h := l.isQuote <;> rw [h] <;> rfl
  have hmem : ['"', '\'', Char.ofNat 96].contains l.quote = true := by
    obtain h | h := l.isQuote <;> rw [h] <;> rfl
  have htrim : trim l.text = l.text := by
    refine trim_of_printed ?_ ?_
    · exact hprinted
    · rw [Literal.text, ← List.cons_append, List.getLast?_concat]
      exact hprinted
  obtain ⟨second, rest, hback⟩ :=
    List.exists_cons_of_ne_nil (List.append_ne_nil_of_right_ne_nil l.inside
    (List.cons_ne_nil l.quote []))
  have hlast : (second :: rest).getLast? = some l.quote := by rw [← hback, List.getLast?_concat]
  rw [unquote, htrim, Literal.text, hback]
  simp only [hmem, hlast, beq_self_eq_true, Bool.and_self, if_true]
  rw [← hback, List.dropLast_concat]

/-- How the walk reads a literal. -/
theorem Literal.ruleKeysFrom_text (l : Literal) : ruleKeysFrom p offset (l.text ++ rest) =
    if arrowFollows rest then
      (p.key? l.value offset).toList ++ ruleKeysFrom (p.afterKey l.value)
        (offset + byteLength l.text) rest
    else ruleKeysFrom p (offset + byteLength l.text) rest := by
  have hslash : l.quote ≠ '\\' := by
    obtain h | h := l.isQuote <;> rw [h] <;> decide
  have hat : literalAt l.quote (l.inside ++ l.quote :: rest) = (byteLength l.text, rest) := by
    rw [literalAt, literalEnd?_inside l.closed hslash, Option.getD_some, Literal.text,
      byteLength_cons]
  have hsplit : l.text ++ rest = l.quote :: (l.inside ++ l.quote :: rest) := by simp [Literal.text]
  have htake : takeBytes (byteLength l.text) (l.quote :: (l.inside ++ l.quote :: rest))
      = l.text := by
    rw [← hsplit]
    exact takeBytes_byteLength_append l.text rest
  rw [hsplit, ruleKeysFrom_quote l.isQuote]
  simp only [hat, htake, l.unquote_text]
  rfl

/-- A literal is a key in front of an arrow. -/
theorem Literal.reads_key (l : Literal) (h : arrowFollows rest = true) :
    Reads p offset l.text rest (p.key? l.value offset).toList (p.afterKey l.value) := by
  rw [Reads, l.ruleKeysFrom_text, if_pos h]

/-- A literal without an arrow behind it gives no key. -/
theorem Literal.reads (l : Literal) (h : arrowFollows rest = false) :
    Reads p offset l.text rest [] p := by
  rw [Reads, l.ruleKeysFrom_text, if_neg (by rw [h]; exact Bool.false_ne_true)]
  rfl

/-! ## Entries -/

/-- The literal that is the key of the entry. -/
def Lead.key? (lead : Lead) : Option Literal :=
  match lead.binding? with
  | some ⟨.literal l, _, _⟩ => some l
  | _ => none

/-- The literal that the walk takes for the key of the entry: a comment in front of the arrow hides
it. -/
def Lead.seen? (lead : Lead) : Option Literal :=
  match lead.binding? with
  | some ⟨.literal l, gap, _⟩ => if gap.isBlank then some l else none
  | _ => none

/-- The offset of the key in an entry. -/
def Lead.keyOffset (lead : Lead) (offset : Nat) : Nat := offset + byteLength lead.before.text

/-- The walk over what stands in front of a value takes a key that is seen. -/
theorem Lead.reads (lead : Lead) : Reads p offset lead.text rest
    (lead.seen?.elim [] fun l => (p.key? l.value (lead.keyOffset offset)).toList)
    (lead.seen?.elim p fun l => p.afterKey l.value) := by
  obtain ⟨before, binding?⟩ := lead
  cases binding? with
  | none => exact before.reads.silent .nil
  | some b =>
      obtain ⟨key, gap, behind⟩ := b
      have harrow : ∀ {p offset},
          Reads p offset (gap.text ++ (['=', '>'] ++ behind.text)) rest [] p :=
        gap.reads.silent ((Reads.plain (by simp [marks])).silent behind.reads)
      have hfollows : arrowFollows ((gap.text ++ (['=', '>'] ++ behind.text)) ++ rest)
          = gap.isBlank := by
        rw [List.append_assoc, List.append_assoc, gap.arrowFollows_append, arrowFollows_arrow,
          Bool.and_true]
      refine before.reads.silent ?_
      -- the walk looks for the arrow right behind a literal, so a comment between them hides it
      cases key with
      | word w => exact w.reads.silent harrow
      | literal l =>
          cases hgap : gap.isBlank with
          | false =>
              have hseen : Lead.seen? ⟨before, some ⟨.literal l, gap, behind⟩⟩ = none := by
                simp [Lead.seen?, hgap]
              rw [hseen]
              exact (l.reads (hfollows.trans hgap)).silent harrow
          | true =>
              have hseen : Lead.seen? ⟨before, some ⟨.literal l, gap, behind⟩⟩ = some l := by
                simp [Lead.seen?, hgap]
              rw [hseen]
              exact (l.reads_key (hfollows.trans hgap)).behind harrow

/-- The place in an array that opens here. -/
def RulePlace.inside (p : RulePlace) : RulePlace := { p with depth := p.depth + 1 }

/-- The opening of an array leads one level down. -/
theorem Opening.reads (o : Opening) : Reads p offset o.text rest [] p.inside := by
  cases o with
  | bracket => exact .char (by decide) (by decide) (by decide)
  | keyword word h gap =>
      have hword : ∀ c ∈ word, c ∉ marks := by
        intro c hc hmem
        have hmarks : ∀ c ∈ marks, c.toLower ∉ ['a', 'r', 'r', 'a', 'y'] := by simp [marks]
        exact hmarks c hmem (h ▸ List.mem_map_of_mem hc)
      have hopen : ∀ {offset}, Reads p offset ['('] rest [] p.inside :=
        .char (by decide) (by decide) (by decide)
      exact (Reads.plain hword).silent (gap.reads.silent hopen)

/-- The bracket that closes an array leads back. -/
theorem Opening.reads_closer (o : Opening) : Reads p.inside offset [o.closer] rest [] p := by
  have hclose : ∀ c, c = ']' ∨ c = ')' → Reads p.inside offset [c] rest [] p := by
    intro c hc
    have hback : p.inside.after c = p := by
      obtain rfl | rfl := hc <;> simp [RulePlace.after, RulePlace.inside]
    have hchar : Reads p.inside offset [c] rest [] (p.inside.after c) := by
      obtain rfl | rfl := hc <;> exact .char (by decide) (by decide) (by decide)
    rwa [hback] at hchar
  cases o with
  | bracket => exact hclose ']' (.inl rfl)
  | keyword => exact hclose ')' (.inr rfl)

/-- Only a key one level down may be a method. -/
theorem RulePlace.key?_of_ne (h : p.depth ≠ 1) (key : String) (offset : Nat) :
    p.key? key offset = none := by
  simp [RulePlace.key?, h]

/-- Only a key at the top may be an entity. -/
theorem RulePlace.afterKey_of_ne (h : p.depth ≠ 0) (key : String) : p.afterKey key = p := if_neg h

/-- A key that stands deeper than the methods gives nothing. -/
theorem Lead.reads_deep (lead : Lead) (hdepth : 2 ≤ p.depth) :
    Reads p offset lead.text rest [] p := by
  have h : Reads p offset lead.text rest _ _ := lead.reads
  cases hseen : lead.seen? with
  | none =>
      rw [hseen] at h
      exact h
  | some l =>
      rw [hseen] at h
      have hkey := p.key?_of_ne (by omega) l.value (lead.keyOffset offset)
      have hafter := p.afterKey_of_ne (by omega) l.value
      simp only [Option.elim_some, hkey, hafter] at h
      exact h

/-- No arrow follows where an array is closed. -/
theorem arrowFollows_closer (o : Opening) (rest : List Char) :
    arrowFollows ([o.closer] ++ rest) = false := by
  have hcloser : o.closer = ']' ∨ o.closer = ')' := by cases o <;> simp [Opening.closer]
  obtain h | h := hcloser <;> rw [h]
    <;> exact arrowFollows_of_ne (isBlank_of_isPrinted rfl) (by decide)

/-- No arrow follows where a comma stands. -/
theorem arrowFollows_comma (rest : List Char) : arrowFollows ([','] ++ rest) = false :=
  arrowFollows_of_ne (isBlank_of_isPrinted rfl) (by decide)

/-- If no arrow follows behind a gap, none follows in front of it. -/
theorem Gap.not_arrowFollows (g : Gap) (h : arrowFollows rest = false) :
    arrowFollows (g.text ++ rest) = false := by
  rw [g.arrowFollows_append, h, Bool.and_false]

end

mutual

/-- A value in an array gives nothing, whatever it holds. -/
theorem Value.reads (v : Value) {p : RulePlace} (hdepth : 1 ≤ p.depth) {offset : Nat}
    {rest : List Char} (hrest : arrowFollows rest = false) : Reads p offset v.text rest [] p := by
  match v with
  | .literal l => exact l.reads hrest
  | .word w => exact w.reads
  | .array opening items =>
      have hinside : 2 ≤ p.inside.depth := by
        show 2 ≤ p.depth + 1
        omega
      have hitems : ∀ {offset},
          Reads p.inside offset items.text ([opening.closer] ++ rest) [] p.inside :=
        items.reads hinside (arrowFollows_closer opening rest)
      exact opening.reads.silent (hitems.silent opening.reads_closer)

/-- Entries further down than one level give no key and change nothing. -/
theorem Items.reads (items : Items) {p : RulePlace} (hdepth : 2 ≤ p.depth) {offset : Nat}
    {rest : List Char} (hrest : arrowFollows rest = false) :
    Reads p offset items.text rest [] p := by
  match items with
  | .nil gap => exact gap.reads
  | .last lead value behind =>
      have hvalue : ∀ {offset}, Reads p offset value.text (behind.text ++ rest) [] p :=
        value.reads (by omega) (behind.not_arrowFollows hrest)
      exact (lead.reads_deep hdepth).silent (hvalue.silent behind.reads)
  | .cons lead value behind more =>
      have hcomma := arrowFollows_comma (more.text ++ rest)
      have hvalue : ∀ {offset},
          Reads p offset value.text ((behind.text ++ ([','] ++ more.text)) ++ rest) [] p := by
        refine value.reads (by omega) ?_
        rw [List.append_assoc, List.append_assoc]
        exact behind.not_arrowFollows hcomma
      have hmore : ∀ {offset}, Reads p offset more.text rest [] p := more.reads hdepth hrest
      exact (lead.reads_deep hdepth).silent
        (hvalue.silent (behind.reads.silent (Reads.comma.silent hmore)))

end

end CodeAtlas.Source.Php
