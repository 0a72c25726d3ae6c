import CodeAtlas.Proofs.Reply.Dangling

/-!
# Mending the end of a text

The repair without its last step changes only the end of a text. What it does there depends on the
mark in front, which is a bracket, a colon or a comma: behind it whole values stay, an unfinished
string is closed, an unfinished literal completed, and a key without a colon is dropped.
-/

namespace CodeAtlas.Reply

open Json Text Unicode

/-- Drops what dangles at the end of a text and completes its last value. -/
def finish (text : List Char) : List Char :=
  completeLiteral (completeMember (dropAllDangling text))

/-- The repair without the closing brackets. -/
def mend (text : List Char) : List Char := finish (closeString (trimEnd text))

/-- A repair mends the text and closes its brackets. -/
theorem repair_eq (text : List Char) : repair text = closeBrackets (mend text) := rfl

/-- White space at the end makes no difference to mending. -/
theorem mend_append_blank (a : List Char) {b : List Char} (hb : AllBlank b) :
    mend (a ++ b) = mend a := by
  rw [mend, trimEnd_append_blank a hb, mend]

/-! ## The steps of the repair -/

/-- The white space of documents is white space. -/
theorem allBlank_of_blank {b : List Char} (hb : Blank b) : AllBlank b :=
  fun c hc => isBlank_of_isSpace (hb c hc)

/-- Outside of strings no string is closed. -/
theorem closeString_outside {text : List Char} (h : (openings text).inString = false) :
    closeString text = text := by
  rw [closeString, h]
  rfl

/-- White space is neutral. -/
theorem neutral_of_isBlank {c : Char} (h : isBlank c = true) : Neutral c := by
  have hne : ∀ d, isBlank d = false → c ≠ d := fun d hd => ne_of_isBlank h hd
  refine ⟨hne _ isBlank_quote, ?_, ?_, ?_, ?_⟩
  all_goals exact hne _ (isBlank_of_printed (by decide) (by decide))

/-- White space starts and ends neither strings nor brackets. -/
theorem foldl_allBlank {b : List Char} (hb : AllBlank b) (s : Openings) :
    (b.foldl Openings.step s).inString = s.inString
      ∧ (b.foldl Openings.step s).brackets = s.brackets := by
  induction b generalizing s with
  | nil => exact ⟨rfl, rfl⟩
  | cons c b ih =>
      obtain ⟨hquote, hlist, hlist', hrecord, hrecord'⟩ :=
        neutral_of_isBlank (hb c List.mem_cons_self)
      have hstep : (s.step c).inString = s.inString ∧ (s.step c).brackets = s.brackets := by
        obtain ⟨brackets, inString, escaped⟩ := s
        cases inString with
        | true =>
            by_cases hslash : c = '\\'
            all_goals cases escaped <;> simp [Openings.step, hquote, hslash]
        | false => simp [Openings.step, hquote, hlist, hlist', hrecord, hrecord']
      obtain ⟨hstring, hbrackets⟩ := ih (fun x hx => hb x (List.mem_cons_of_mem _ hx)) (s.step c)
      exact ⟨hstring.trans hstep.1, hbrackets.trans hstep.2⟩

/-- White space at the end opens and closes nothing. -/
theorem openings_trimEnd (text : List Char) :
    (openings (trimEnd text)).inString = (openings text).inString
      ∧ (openings (trimEnd text)).brackets = (openings text).brackets := by
  obtain ⟨b, htext, hb, -⟩ := exists_trimEnd_append text
  have hopen := openings_append (trimEnd text) b
  rw [← htext] at hopen
  obtain ⟨hstring, hbrackets⟩ := foldl_allBlank hb (openings (trimEnd text))
  rw [hopen]
  exact ⟨hstring.symm, hbrackets.symm⟩

/-- If nothing dangles only the white space at the end is dropped. -/
theorem dropAllDangling_eq {text : List Char} (h : dropDangling? (trimEnd text) = none) :
    dropAllDangling text = trimEnd text := by
  rw [dropAllDangling]
  split
  · next hsome =>
    rw [h] at hsome
    cases hsome
  · rfl

/-- What dangles is dropped, and then what dangles in front of it. -/
theorem dropAllDangling_some {text kept : List Char}
    (h : dropDangling? (trimEnd text) = some kept) :
    dropAllDangling text = dropAllDangling kept := by
  rw [dropAllDangling]
  split
  · next hsome =>
    cases h.symm.trans hsome
    rfl
  · next hnone =>
    rw [h] at hnone
    cases hnone

/-- A text that is trimmed at its end is left as it is. -/
theorem trimEnd_trimEnd (text : List Char) : trimEnd (trimEnd text) = trimEnd text := by
  obtain ⟨-, -, -, hsolid⟩ := exists_trimEnd_append text
  exact trimEnd_of_solid hsolid

/-- White space at the end makes no difference to what dangles. -/
theorem dropAllDangling_trimEnd (text : List Char) :
    dropAllDangling (trimEnd text) = dropAllDangling text := by
  cases h : dropDangling? (trimEnd text) with
  | none =>
      rw [dropAllDangling_eq h, dropAllDangling_eq (by rw [trimEnd_trimEnd, h]), trimEnd_trimEnd]
  | some kept =>
      rw [dropAllDangling_some h, dropAllDangling_some (by rw [trimEnd_trimEnd, h])]

/-- Outside of strings the repair starts with what dangles. -/
theorem mend_outside {text : List Char} (h : (openings text).inString = false) :
    mend text = finish text := by
  rw [mend, closeString_outside (by rw [(openings_trimEnd text).1, h]), finish,
    dropAllDangling_trimEnd, finish]

/-- What dangles behind anything but a comma is a key. -/
theorem dropDangling?_of_last {t : List Char} {c : Char} (hcomma : c ≠ ',') :
    dropDangling? (t ++ [c])
      = if (openings (t ++ [c])).brackets.head? = some '\x7b' then dropLoneKey? (t ++ [c])
        else none := by
  have hlast : ¬ ((t ++ [c]).getLast? == some ',') = true := by
    rw [List.getLast?_concat]
    simpa using hcomma
  rw [dropDangling?, if_neg hlast]
  simp only [beq_iff_eq]

/-- Of a text whose last character is a value's only a literal may be unfinished. -/
theorem finish_of_last {text t : List Char} {c : Char} (htext : text = t ++ [c])
    (hblank : isBlank c = false) (hcomma : c ≠ ',') (hcolon : c ≠ ':')
    (hkey : (openings text).brackets.head? = some '\x7b' → dropLoneKey? text = none) :
    finish text = completeLiteral text := by
  subst htext
  have hsolid := trimEnd_of_solid (solid_append_singleton t hblank)
  have hdangling : dropDangling? (trimEnd (t ++ [c])) = none := by
    rw [hsolid, dropDangling?_of_last hcomma]
    split
    · next hbrace => exact hkey hbrace
    · rfl
  have hmember : completeMember (t ++ [c]) = t ++ [c] := by
    rw [completeMember, List.getLast?_concat, if_neg]
    simpa using hcolon
  rw [finish, dropAllDangling_eq hdangling, hsolid, hmember]

/-! ## Places -/

/-- A place in a text outside of strings: behind a mark and some blanks. -/
structure Spot where
  before : List Char
  mark : Char
  blanks : List Char
  stack : List Char
  blank : Blank blanks
  state : openings (before ++ mark :: blanks) = outside stack

namespace Spot

variable (p : Spot)

/-- The text in front of a place. -/
def text : List Char := p.before ++ p.mark :: p.blanks

/-- The place behind more blanks. -/
def behind {b : List Char} (hb : Blank b) : Spot where
  before := p.before
  mark := p.mark
  blanks := p.blanks ++ b
  stack := p.stack
  blank := p.blank.append hb
  state := by
    have hsplit : p.before ++ p.mark :: (p.blanks ++ b)
        = (p.before ++ p.mark :: p.blanks) ++ b := by
      simp
    rw [hsplit, openings_append, p.state, foldl_blank hb]

/-- A text behind a place is that of the place with the white space. -/
theorem text_behind {b : List Char} (hb : Blank b) : (p.behind hb).text = p.text ++ b := by
  simp [text, behind]

/-- A place for a value: behind a colon, or behind the bracket or a comma of an array. -/
def ForValue : Prop := p.mark = ':' ∨ (p.mark = '[' ∨ p.mark = ',') ∧ p.stack.head? ≠ some '\x7b'

/-- The bracket in front of entries. -/
def opener (keyed : Bool) : Char := if keyed then '\x7b' else '['

/-- A place for an entry: behind its bracket, or behind a comma after another entry. -/
def ForEntry (keyed : Bool) : Prop :=
  p.stack.head? = some (opener keyed)
    ∧ (p.mark = opener keyed ∨ p.mark = ',' ∧ openings p.before = outside p.stack)

variable {p}

/-- A place for a value opens one. -/
theorem ForValue.opensValue (h : p.ForValue) : opensValue p.mark = true := by
  rcases h with h | ⟨h | h, -⟩
  all_goals rw [h]; rfl

/-- The mark of a place for a value is no backslash. -/
theorem ForValue.mark_ne (h : p.ForValue) : p.mark ≠ '\\' := by
  rcases h with h | ⟨h | h, -⟩
  all_goals rw [h]; decide

/-- An item is a value. -/
theorem ForEntry.forValue (h : p.ForEntry false) : p.ForValue := by
  obtain ⟨hhead, hmark⟩ := h
  refine .inr ⟨?_, ?_⟩
  · rcases hmark with h | ⟨h, -⟩
    · exact .inl h
    · exact .inr h
  · rw [hhead]
    decide

/-- The state behind a part of a document. -/
theorem state_append {n : Nat} {form : Form} {s : List Char} (h : Text n form s) :
    openings (p.text ++ s) = outside p.stack := by
  rw [openings_append, text, p.state, foldl_text h]

end Spot

/-! ## Whole values -/

variable {p : Spot} {n : Nat} {j : Json} {s : List Char}

/-- Behind a string in the place of a value there is no key. -/
theorem dropLoneKey?_value (hp : p.ForValue) {q cs : List Char} (hq : Spells q cs)
    (hbrace : p.stack.head? = some '\x7b') :
    dropLoneKey? (p.text ++ '"' :: (q ++ ['"'])) = none := by
  have hmark : p.mark = ':' := by
    rcases hp with h | ⟨-, h⟩
    · exact h
    · exact absurd hbrace h
  have hsplit : p.text ++ '"' :: (q ++ ['"'])
      = p.before ++ p.mark :: (p.blanks ++ '"' :: (q ++ ['"'])) := by simp [Spot.text]
  obtain ⟨hblank, -⟩ := of_opensValue hp.opensValue
  rw [hsplit, dropLoneKey?_string hblank hp.mark_ne (allBlank_of_blank p.blank) hq, hmark]
  rfl

/-- A whole string in the place of a value stays. -/
theorem finish_string (hp : p.ForValue) {q cs : List Char} (hq : Spells q cs) :
    finish (p.text ++ '"' :: (q ++ ['"'])) = p.text ++ '"' :: (q ++ ['"']) := by
  have hstate := Spot.state_append (p := p) (Text.str (n := 0) hq)
  have hlast : p.text ++ '"' :: (q ++ ['"']) = (p.text ++ '"' :: q) ++ ['"'] := by simp
  have hkey : (openings (p.text ++ '"' :: (q ++ ['"']))).brackets.head? = some '\x7b' →
      dropLoneKey? (p.text ++ '"' :: (q ++ ['"'])) = none := by
    rw [hstate]
    exact dropLoneKey?_value hp hq
  rw [finish_of_last hlast isBlank_quote (by decide) (by decide) hkey, hlast]
  exact completeLiteral_of_mem isBlank_quote rfl nofun nofun

/-- A character of literals is neutral. -/
theorem neutral_of_isLiteralChar {c : Char} (h : isLiteralChar c = true) : Neutral c := by
  have hne : ∀ d, isLiteralChar d = false → c ≠ d := by
    rintro d hd rfl
    rw [hd] at h
    cases h
  exact ⟨hne _ rfl, hne _ rfl, hne _ rfl, hne _ rfl, hne _ rfl⟩

/-- Letters of a literal in the place of a value become the literal. -/
theorem finish_letters (hp : p.ForValue) (hs : ∀ c ∈ s, isLiteralChar c = true) (hne : s ≠ []) :
    finish (p.text ++ s) = p.text ++ (unfinished? s).getD s := by
  rcases List.eq_nil_or_concat s with rfl | ⟨t, c, rfl⟩
  · exact absurd rfl hne
  · rw [List.concat_eq_append] at hs hne ⊢
    have hc := hs c (List.mem_append_right _ List.mem_cons_self)
    have hblank := isBlank_of_isLiteralChar hc
    have hne' : ∀ d, isLiteralChar d = false → c ≠ d := by
      rintro d hd rfl
      rw [hd] at hc
      cases hc
    have hkey : dropLoneKey? (p.text ++ (t ++ [c])) = none := by
      rw [← List.append_assoc]
      exact dropLoneKey?_of_last hblank (hne' _ rfl)
    rw [finish_of_last (List.append_assoc ..).symm hblank (hne' _ rfl) (hne' _ rfl) fun _ => hkey,
      Spot.text, List.append_assoc, List.cons_append,
      completeLiteral_append hp.opensValue (allBlank_of_blank p.blank) hs hne]
    simp

/-- What ends in a closing bracket stays. -/
theorem finish_closed {t : List Char} {c : Char}
    (hc : c = ']' ∨ c = '\x7d' ∨ c = '[' ∨ c = '\x7b') :
    finish (t ++ [c]) = t ++ [c] := by
  have hfacts : isBlank c = false ∧ isLiteralChar c = false ∧ c ≠ ',' ∧ c ≠ ':' ∧ c ≠ '"' := by
    rcases hc with rfl | rfl | rfl | rfl
    all_goals exact ⟨isBlank_of_printed (by decide) (by decide), rfl,
      by decide, by decide, by decide⟩
  obtain ⟨hblank, hliteral, hcomma, hcolon, hquote⟩ := hfacts
  rw [finish_of_last rfl hblank hcomma hcolon fun _ => dropLoneKey?_of_last hblank hquote]
  exact completeLiteral_of_mem hblank hliteral (fun _ => rfl) nofun

/-- A character of numbers is not white space. -/
theorem isBlank_of_isNumberChar {c : Char} (h : isNumberChar c = true) : isBlank c = false := by
  simp only [isNumberChar, Bool.or_eq_true, beq_iff_eq] at h
  rcases h with ((((h | rfl) | rfl) | rfl) | rfl) | rfl
  · exact isBlank_of_isDigit h
  all_goals exact isBlank_of_printed (by decide) (by decide)

/-- A character of numbers does not open a value. -/
theorem opensValue_of_isNumberChar {c : Char} (h : isNumberChar c = true) :
    opensValue c = false := by
  rw [Bool.eq_false_iff]
  intro hopen
  simp only [opensValue, Bool.or_eq_true, beq_iff_eq] at hopen
  rcases hopen with (rfl | rfl) | rfl
  all_goals cases h

/-- A number does not start with the letter of its exponent, and so with none of a literal. -/
theorem isLiteralChar_of_readNumber? {c : Char} {t : List Char} {x : Json.Number}
    (h : readNumber? (c :: t) = some (x, [])) : isLiteralChar c = false := by
  have hc := (isNumberChar_of_readNumber? h).2 c List.mem_cons_self
  rw [Bool.eq_false_iff]
  intro hliteral
  have hmem := List.contains_iff_mem.1 hliteral
  simp only [List.mem_cons, List.not_mem_nil, or_false] at hmem
  rcases hmem with rfl | rfl | rfl | rfl | rfl | rfl | rfl | rfl | rfl
  case inr.inr.inr.inl => cases h
  all_goals cases hc

/-- A whole number stays. -/
theorem finish_number {x : Json.Number} (h : readNumber? s = some (x, [])) (a : List Char) :
    finish (a ++ s) = a ++ s := by
  obtain ⟨hne, hchars⟩ := isNumberChar_of_readNumber? h
  have hliteral : completeLiteral (a ++ s) = a ++ s := by
    obtain ⟨c, t, rfl⟩ := List.exists_cons_of_ne_nil hne
    have hc := hchars c List.mem_cons_self
    refine completeLiteral_of_mem (isBlank_of_isNumberChar hc)
      (isLiteralChar_of_readNumber? h) ?_ ?_
    · intro hopen
      rw [opensValue_of_isNumberChar hc] at hopen
      cases hopen
    · exact fun d hd => opensValue_of_isNumberChar (hchars d (List.mem_cons_of_mem _ hd))
  rcases List.eq_nil_or_concat s with rfl | ⟨t, c, rfl⟩
  · exact absurd rfl hne
  · rw [List.concat_eq_append] at hchars hliteral ⊢
    have hc := hchars c (List.mem_append_right _ List.mem_cons_self)
    have hblank := isBlank_of_isNumberChar hc
    have hkey : dropLoneKey? (a ++ (t ++ [c])) = none := by
      rw [← List.append_assoc]
      exact dropLoneKey?_of_last hblank ((ne_of_isNumberChar rfl hc).symm)
    rw [finish_of_last (List.append_assoc ..).symm hblank ((ne_of_isNumberChar rfl hc).symm)
      ((ne_of_isNumberChar rfl hc).symm) fun _ => hkey, hliteral]

/-- A whole value stays. -/
theorem finish_value (hp : p.ForValue) (h : Text n (.value j) s) :
    finish (p.text ++ s) = p.text ++ s := by
  cases h with
  | null => exact finish_letters hp (List.all_eq_true.1 rfl) (by decide)
  | yes => exact finish_letters hp (List.all_eq_true.1 rfl) (by decide)
  | no => exact finish_letters hp (List.all_eq_true.1 rfl) (by decide)
  | num h => exact finish_number h p.text
  | str h => exact finish_string hp h
  | @arr _ _ s =>
      have hlast : p.text ++ '[' :: (s ++ [']']) = (p.text ++ '[' :: s) ++ [']'] := by simp
      rw [hlast]
      exact finish_closed (.inl rfl)
  | @obj _ _ s =>
      have hlast : p.text ++ '\x7b' :: (s ++ ['\x7d']) = (p.text ++ '\x7b' :: s) ++ ['\x7d'] := by
        simp
      rw [hlast]
      exact finish_closed (.inr (.inl rfl))

/-- Behind a whole value the repair takes the blanks only. -/
theorem mend_value (hp : p.ForValue) (h : Text n (.value j) s) {b : List Char} (hb : AllBlank b) :
    mend (p.text ++ (s ++ b)) = p.text ++ s := by
  rw [← List.append_assoc, mend_append_blank _ hb, mend_outside, finish_value hp h]
  rw [Spot.state_append h]
  rfl

/-- An unfinished literal is completed. -/
theorem mend_literal (hp : p.ForValue) {literal t : List Char} (hliteral : literal ∈ literals)
    (hsplit : literal = s ++ t) (hs : s ≠ []) (ht : t ≠ []) :
    mend (p.text ++ s) = p.text ++ literal := by
  have hletters : ∀ c ∈ s, isLiteralChar c = true := by
    intro c hc
    exact mem_literals hliteral c (hsplit ▸ List.mem_append_left _ hc)
  have hunfinished : unfinished? s = some literal := by
    have hall : ∀ literal ∈ literals, ∀ k < literal.length, k ≠ 0 →
        unfinished? (literal.take k) = some literal := by decide
    have hlength : s.length < literal.length := by
      rw [hsplit, List.length_append]
      exact Nat.lt_add_of_pos_right (List.length_pos_iff.2 ht)
    have htake := hall literal hliteral s.length hlength (mt List.length_eq_zero_iff.1 hs)
    rwa [hsplit, List.take_left, ← hsplit] at htake
  have hstate : (openings (p.text ++ s)).inString = false := by
    rw [openings_append, Spot.text, p.state,
      foldl_neutral fun c hc => neutral_of_isLiteralChar (hletters c hc)]
    rfl
  rw [mend_outside hstate, finish_letters hp hletters hs, hunfinished]
  rfl

/-! ## Unfinished strings -/

/-- An escape of four digits is solid. -/
theorem solid_hexEscape {u : List Char} {d : Char} (h : HexEscape u d) : Solid u := by
  intro c hc
  rcases h.chars c (List.mem_of_getLast? hc) with rfl | rfl | hhex
  · exact isBlank_backslash
  · exact isBlank_of_printed (by decide) (by decide)
  · have hrange : 33 ≤ c.toNat ∧ c.toNat < 127 := by
      rw [HexDigit] at hhex
      omega
    exact isBlank_of_printed hrange.1 hrange.2

/-- The letter of an escape is not white space. -/
theorem isBlank_of_escapeOf? {c d : Char} (h : escapeOf? c = some d) : isBlank c = false := by
  unfold escapeOf? at h
  split at h
  case h_9 => cases h
  all_goals exact isBlank_of_printed (by decide) (by decide)

/-- White space at the end of what is between quotes spells itself. -/
theorem exists_solid_of_spells {q cs : List Char} (h : Spells q cs) :
    ∃ q' cs' b, q = q' ++ b ∧ cs = cs' ++ b ∧ AllBlank b ∧ Spells q' cs' ∧ Solid q' := by
  induction h with
  | nil => exact ⟨[], [], [], rfl, rfl, nofun, .nil, solid_nil⟩
  | @plain c s cs hquote hslash hcontrol _ ih =>
      obtain ⟨q', cs', b, rfl, rfl, hb, hq', hsolid⟩ := ih
      by_cases hblank : isBlank c = true ∧ q' = []
      · obtain ⟨hc, rfl⟩ := hblank
        cases hq'.eq_nil
        exact ⟨[], [], c :: b, rfl, rfl, List.forall_mem_cons.2 ⟨hc, hb⟩, .nil, solid_nil⟩
      · refine ⟨c :: q', c :: cs', b, rfl, rfl, hb, .plain hquote hslash hcontrol hq', ?_⟩
        cases hc : isBlank c with
        | false => exact (solid_singleton hc).append hsolid
        | true =>
            obtain ⟨x, q'', rfl⟩ := List.exists_cons_of_ne_nil fun h => hblank ⟨hc, h⟩
            intro d hd
            exact hsolid d (by rwa [List.getLast?_cons_cons] at hd)
  | @letter c d s cs hd _ ih =>
      obtain ⟨q', cs', b, rfl, rfl, hb, hq', hsolid⟩ := ih
      refine ⟨'\\' :: c :: q', d :: cs', b, rfl, rfl, hb, .letter hd hq', ?_⟩
      exact solid_append_cons ['\\'] (isBlank_of_escapeOf? hd) hsolid
  | @hex u d s cs h _ ih =>
      obtain ⟨q', cs', b, rfl, rfl, hb, hq', hsolid⟩ := ih
      refine ⟨u ++ q', d :: cs', b, (List.append_assoc ..).symm, rfl, hb, .hex h hq', ?_⟩
      exact (solid_hexEscape h).append hsolid

/-- A quote and a spelling behind it open a string. -/
theorem openings_quote {a stack : List Char} (ha : openings a = outside stack) {q cs : List Char}
    (hq : Spells q cs) : openings (a ++ '"' :: q) = inside stack := by
  have hopen : (outside stack).step '"' = inside stack := rfl
  rw [openings_append, ha, List.foldl_cons, hopen, foldl_spells hq]

/-- The repair closes an unfinished string behind its last character that is no white space. -/
theorem closeString_spells {a : List Char} {stack : List Char} (ha : openings a = outside stack)
    {q cs : List Char} (hq : Spells q cs) : ∃ q' cs' b, q = q' ++ b ∧ cs = cs' ++ b ∧ AllBlank b
      ∧ Spells q' cs' ∧ closeString (trimEnd (a ++ '"' :: q)) = a ++ '"' :: (q' ++ ['"']) := by
  obtain ⟨q', cs', b, rfl, rfl, hb, hq', hsolid⟩ := exists_solid_of_spells hq
  refine ⟨q', cs', b, rfl, rfl, hb, hq', ?_⟩
  have htrim : trimEnd (a ++ '"' :: (q' ++ b)) = a ++ '"' :: q' := by
    rw [← List.cons_append, ← List.append_assoc, trimEnd_append_blank _ hb]
    exact trimEnd_of_solid (solid_append_cons a isBlank_quote hsolid)
  rw [htrim, closeString, openings_quote ha hq']
  simp [inside]

/-- The repair drops a backslash at the end. -/
theorem closeString_backslash {a : List Char} {stack : List Char} (ha : openings a = outside stack)
    {q cs : List Char} (hq : Spells q cs) :
    closeString (trimEnd (a ++ '"' :: (q ++ ['\\']))) = a ++ '"' :: (q ++ ['"']) := by
  have hsplit : a ++ '"' :: (q ++ ['\\']) = (a ++ '"' :: q) ++ ['\\'] := by simp
  have hescaped : openings ((a ++ '"' :: q) ++ ['\\']) = ⟨stack, true, true⟩ := by
    rw [openings_append, openings_quote ha hq]
    rfl
  rw [hsplit, trimEnd_of_solid (solid_append_singleton _ isBlank_backslash), closeString, hescaped,
    List.dropLast_concat]
  simp

/-! ## What is dropped -/

namespace Spot

/-- What remains of the text in front of a place for an entry if nothing of the entry does. -/
def cleared (p : Spot) : List Char := if p.mark = ',' then mend p.before else p.before ++ [p.mark]

end Spot

/-- White space at the end makes no difference to what a text is finished as. -/
theorem finish_trimEnd (text : List Char) : finish (trimEnd text) = finish text := by
  rw [finish, dropAllDangling_trimEnd, finish]

/-- A text is finished as what is left when what dangles is dropped. -/
theorem finish_of_dropDangling? {text kept : List Char}
    (h : dropDangling? (trimEnd text) = some kept) :
    finish text = finish kept := by
  rw [finish, dropAllDangling_some h, finish]

variable {keyed : Bool}

/-- What dangles in the place of an entry goes with the comma in front of it. -/
theorem finish_before (hp : p.ForEntry keyed) (hmark : p.mark = ',') :
    finish p.before = mend p.before := by
  obtain ⟨-, h | ⟨-, h⟩⟩ := hp
  · rw [hmark] at h
    cases keyed <;> exact absurd h (by decide)
  · rw [mend_outside (by rw [h]; rfl)]

/-- A bracket without entries stays. -/
theorem finish_opener (hp : p.ForEntry keyed) (hmark : p.mark ≠ ',') :
    finish (p.before ++ [p.mark]) = p.before ++ [p.mark] := by
  obtain ⟨-, h | ⟨h, -⟩⟩ := hp
  · refine finish_closed ?_
    rw [h]
    cases keyed
    · exact .inr (.inr (.inl rfl))
    · exact .inr (.inr (.inr rfl))
  · exact absurd h hmark

/-- The mark of a place is not white space. -/
theorem isBlank_mark (hp : p.ForEntry keyed) : isBlank p.mark = false := by
  obtain ⟨-, h | ⟨h, -⟩⟩ := hp
  · rw [h]
    cases keyed <;> exact isBlank_of_printed (by decide) (by decide)
  · rw [h]
    exact isBlank_comma

/-- With nothing behind a place the place is cleared. -/
theorem mend_nothing (hp : p.ForEntry keyed) : mend p.text = p.cleared := by
  have htrim : trimEnd p.text = p.before ++ [p.mark] := by
    have hsplit : p.text = (p.before ++ [p.mark]) ++ p.blanks := by simp [Spot.text]
    rw [hsplit, trimEnd_append_blank _ (allBlank_of_blank p.blank)]
    exact trimEnd_of_solid (solid_append_singleton _ (isBlank_mark hp))
  have hstate : (openings p.text).inString = false := by
    rw [Spot.text, p.state]
    rfl
  rw [mend_outside hstate, Spot.cleared]
  split
  · next hmark =>
    have hdangling : dropDangling? (trimEnd p.text) = some p.before := by
      rw [htrim, hmark, dropDangling?, List.getLast?_concat, if_pos (beq_self_eq_true _),
        List.dropLast_concat]
    rw [finish_of_dropDangling? hdangling, finish_before hp hmark]
  · next hmark => rw [← finish_trimEnd, htrim, finish_opener hp hmark]

/-- A key without a colon is dropped. -/
theorem finish_key (hp : p.ForEntry true) {q cs : List Char} (hq : Spells q cs) :
    finish (p.text ++ '"' :: (q ++ ['"'])) = p.cleared := by
  have hlast : p.text ++ '"' :: (q ++ ['"']) = (p.text ++ '"' :: q) ++ ['"'] := by simp
  have htrim : trimEnd (p.text ++ '"' :: (q ++ ['"'])) = p.text ++ '"' :: (q ++ ['"']) := by
    rw [hlast]
    exact trimEnd_of_solid (solid_append_singleton _ isBlank_quote)
  have hstate := Spot.state_append (p := p) (Text.str (n := 0) hq)
  have hslash : p.mark ≠ '\\' := by
    obtain ⟨-, h | ⟨h, -⟩⟩ := hp
    all_goals rw [h]; decide
  have hfound := dropLoneKey?_string (a := p.before) (isBlank_mark hp) hslash
    (allBlank_of_blank p.blank) hq
  have hsplit : p.before ++ p.mark :: (p.blanks ++ '"' :: (q ++ ['"']))
      = p.text ++ '"' :: (q ++ ['"']) := by simp [Spot.text]
  rw [hsplit] at hfound
  -- the key stands in a record, so a lone key is looked for
  have hbrace : (openings (p.text ++ '"' :: (q ++ ['"']))).brackets.head? = some '\x7b' := by
    rw [hstate]
    exact hp.1
  have hdangling : dropDangling? (trimEnd (p.text ++ '"' :: (q ++ ['"'])))
      = dropLoneKey? (p.text ++ '"' :: (q ++ ['"'])) := by
    rw [hlast] at hbrace
    rw [htrim, hlast, dropDangling?_of_last (by decide), if_pos hbrace]
  rw [hfound] at hdangling
  rw [Spot.cleared]
  -- a comma goes with its key, a brace stays
  by_cases hmark : p.mark = ','
  · rw [if_neg (by rw [hmark]; decide), if_pos hmark] at hdangling
    rw [if_pos hmark, finish_of_dropDangling? hdangling, finish_before hp hmark]
  · have hopener : p.mark = '\x7b' := by
      obtain ⟨-, h | ⟨h, -⟩⟩ := hp
      · exact h
      · exact absurd h hmark
    rw [if_pos hopener] at hdangling
    rw [if_neg hmark, finish_of_dropDangling? hdangling, ← hopener, finish_opener hp hmark]

/-- A key whose string is not closed is dropped. -/
theorem mend_openKey (hp : p.ForEntry true) {q cs : List Char} (hq : Spells q cs) :
    mend (p.text ++ '"' :: q) = p.cleared
      ∧ mend (p.text ++ '"' :: (q ++ ['\\'])) = p.cleared := by
  constructor
  · obtain ⟨q', cs', b, -, -, -, hq', hclose⟩ := closeString_spells p.state hq
    rw [mend]
    exact (congrArg finish hclose).trans (finish_key hp hq')
  · rw [mend]
    exact (congrArg finish (closeString_backslash p.state hq)).trans (finish_key hp hq)

/-- A key without a colon behind it is dropped. -/
theorem mend_loneKey (hp : p.ForEntry true) {q cs b : List Char} (hq : Spells q cs)
    (hb : AllBlank b) : mend (p.text ++ '"' :: (q ++ '"' :: b)) = p.cleared := by
  have hsplit : p.text ++ '"' :: (q ++ '"' :: b) = (p.text ++ '"' :: (q ++ ['"'])) ++ b := by simp
  have hstate := Spot.state_append (p := p) (Text.str (n := 0) hq)
  rw [hsplit, mend_append_blank _ hb, mend_outside (by rw [hstate]; rfl), finish_key hp hq]

/-- An unfinished string in the place of a value is closed. -/
theorem mend_openString (hp : p.ForValue) {q cs : List Char} (hq : Spells q cs) :
    ∃ q' cs' b, cs = cs' ++ b ∧ AllBlank b ∧ Spells q' cs'
      ∧ mend (p.text ++ '"' :: q) = p.text ++ '"' :: (q' ++ ['"']) := by
  obtain ⟨q', cs', b, -, hcs, hb, hq', hclose⟩ := closeString_spells p.state hq
  refine ⟨q', cs', b, hcs, hb, hq', ?_⟩
  rw [mend]
  exact (congrArg finish hclose).trans (finish_string hp hq')

/-- A string that ends in a backslash loses it and is closed. -/
theorem mend_backslash (hp : p.ForValue) {q cs : List Char} (hq : Spells q cs) :
    mend (p.text ++ '"' :: (q ++ ['\\'])) = p.text ++ '"' :: (q ++ ['"']) := by
  rw [mend]
  exact (congrArg finish (closeString_backslash p.state hq)).trans (finish_string hp hq)

/-- A colon without a value gets one. -/
theorem mend_colon {a b stack : List Char} (ha : openings (a ++ ':' :: b) = outside stack)
    (hb : AllBlank b) : mend (a ++ ':' :: b) = a ++ ':' :: [' ', 'n', 'u', 'l', 'l'] := by
  have hblank : isBlank ':' = false := isBlank_of_printed (by decide) (by decide)
  have hsplit : a ++ ':' :: b = (a ++ [':']) ++ b := by simp
  have htrim : trimEnd (a ++ ':' :: b) = a ++ [':'] := by
    rw [hsplit, trimEnd_append_blank _ hb]
    exact trimEnd_of_solid (solid_append_singleton _ hblank)
  have hdangling : dropDangling? (trimEnd (a ++ ':' :: b)) = none := by
    rw [htrim, dropDangling?_of_last (by decide), dropLoneKey?_of_last hblank (by decide)]
    split <;> rfl
  have hmember : completeMember (a ++ [':']) = a ++ ':' :: ([' '] ++ ['n', 'u', 'l', 'l']) := by
    rw [completeMember, List.getLast?_concat, if_pos (beq_self_eq_true _)]
    simp
  rw [mend_outside (by rw [ha]; rfl), finish, dropAllDangling_eq hdangling, htrim, hmember,
    completeLiteral_append rfl
      (by rintro c hc; cases List.mem_singleton.1 hc; exact isBlank_of_isSpace rfl)
      (List.all_eq_true.1 rfl) (by decide)]
  rfl

end CodeAtlas.Reply
