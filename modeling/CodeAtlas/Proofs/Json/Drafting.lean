import CodeAtlas.Json.Draft
import CodeAtlas.Proofs.Json.Fields
import Mathlib.Data.List.TakeDrop

/-!
# Reading drafts of what was written

What is written of a document is read as its draft, however deep it is nested. A draft that is
looked at closely is nested no deeper than there is room. So a document that is nested too deep for
the reader is not read by any shape under which all of it counts.
-/

namespace CodeAtlas.Json

namespace Draft

/-! ## Drafts of documents -/

/-- The characters of a string as they are written between its quotes. -/
def bodyOf (s : String) : List (Option Char) := (s.toList.flatMap escapeChar).map some

mutual

/-- The draft of a document that is written. -/
def of : Json → Draft
  | .null => .word .null
  | .bool b => .word (.bool b)
  | .num n => .number n.chars
  | .str s => .str (bodyOf s)
  | .arr items => .arr (ofItems items)
  | .obj members => .obj (ofMembers members)

/-- The drafts of items. -/
def ofItems : List Json → List Draft
  | [] => []
  | item :: items => of item :: ofItems items

/-- The drafts of members. -/
def ofMembers : List (String × Json) → List (List (Option Char) × Draft)
  | [] => []
  | (key, value) :: members => (bodyOf key, of value) :: ofMembers members

end

/-! ## Characters -/

/-- White space is skipped as in the text. -/
theorem skipSpace_map (s : List Char) : skipSpace (s.map some) = (Json.skipSpace s).map some := by
  rw [skipSpace, Json.skipSpace, List.dropWhile_map]
  rfl

/-- Nothing is skipped in front of a character that is not white space. -/
theorem skipSpace_some_cons {c : Char} (hc : isSpace c = false) (text : List (Option Char)) :
    skipSpace (some c :: text) = some c :: text :=
  List.dropWhile_cons_of_neg (by simp [hc])

/-- Four hexadecimal digits are such one by one. -/
theorem isSome_of_hex4? {a b c d : Char} {n : Nat} (h : hex4? a b c d = some n) :
    ([some a, some b, some c, some d].all fun c? => (c? >>= hexDigitValue?).isSome) = true := by
  obtain ⟨va, ha, h⟩ := Option.bind_eq_some_iff.1 h
  obtain ⟨vb, hb, h⟩ := Option.bind_eq_some_iff.1 h
  obtain ⟨vc, hc, h⟩ := Option.bind_eq_some_iff.1 h
  obtain ⟨vd, hd, -⟩ := Option.bind_eq_some_iff.1 h
  simp [ha, hb, hc, hd]

/-- The body of a string goes on behind an escape of four digits. -/
theorem body?_hex {a b c d : Char} {n : Nat} (h : hex4? a b c d = some n)
    (read text : List (Option Char)) :
    body? read (['\\', 'u', a, b, c, d].map some ++ text)
      = body? ((['\\', 'u', a, b, c, d].map some).reverse ++ read) text := by
  simp only [List.map_cons, List.map_nil, List.cons_append, List.nil_append]
  rw [body?, isSome_of_hex4? h]
  rfl

/-- The body of a string goes on behind an escape of one letter. -/
theorem body?_letter {c d : Char} (h : escapeOf? c = some d) (read text : List (Option Char)) :
    body? read (some '\\' :: some c :: text) = body? (some c :: some '\\' :: read) text := by
  have hc : c ≠ 'u' := ne_of_escapeOf? (Option.isSome_of_eq_some h) rfl
  have hsome : (some c >>= escapeOf?).isSome = true := Option.isSome_of_eq_some h
  rw [body?, hsome]
  · rfl
  · rintro a b c' d' text hu
    exact absurd (Option.some.inj hu) hc

/-- The body of a string goes on behind a character that stands for itself. -/
theorem body?_plain {c : Char} (hquote : c ≠ '"') (hslash : c ≠ '\\') (hcontrol : 32 ≤ c.toNat)
    (read text : List (Option Char)) :
    body? read (some c :: text) = body? (some c :: read) text := by
  have hnot : ((some c).any fun c => c.toNat < 32 || c == '\\') = false := by
    simp only [Option.any_some, Bool.or_eq_false_iff, decide_eq_false_iff_not, beq_eq_false_iff_ne]
    exact ⟨Nat.not_lt.2 hcontrol, hslash⟩
  rw [body?, hnot]
  · rfl
  · exact fun h => hquote (Option.some.inj h)
  · exact fun _ _ _ _ _ h => absurd (Option.some.inj h) hslash
  · exact fun _ _ h => absurd (Option.some.inj h) hslash

/-- What spells a string is taken up to the quote, as it is. -/
theorem body?_spells {s cs : List Char} (h : Spells s cs) (read text : List (Option Char)) :
    body? read (s.map some ++ some '"' :: text) = some (read.reverse ++ s.map some, text) := by
  induction h generalizing read with
  | nil => rw [List.map_nil, List.nil_append, body?, List.append_nil]
  | plain hquote hslash hcontrol _ ih =>
      rw [List.map_cons, List.cons_append, body?_plain hquote hslash hcontrol, ih,
        List.reverse_cons, List.append_assoc, List.singleton_append]
  | letter h _ ih =>
      rw [List.map_cons, List.map_cons, List.cons_append, List.cons_append, body?_letter h, ih]
      simp only [List.reverse_cons, List.append_assoc, List.cons_append, List.nil_append]
  | @hex u d s cs h _ ih =>
      have hstep : body? read (u.map some ++ (s.map some ++ some '"' :: text))
          = body? ((u.map some).reverse ++ read) (s.map some ++ some '"' :: text) := by
        cases h with
        | one h => exact body?_hex h read _
        | two h _ h' =>
            exact (body?_hex h read _).trans (body?_hex h' _ _)
      rw [List.map_append, List.append_assoc, hstep, ih, List.reverse_append, List.reverse_reverse,
        List.append_assoc]

/-- A key that was written is read with its colon. -/
theorem key?_quoted {b : List Char} (hb : Blank b) (key : String) (text : List Char) :
    key? ((b ++ (quoted key ++ ':' :: text)).map some) = some (bodyOf key, text.map some) := by
  have hbody : body? [] ((key.toList.flatMap escapeChar ++ '"' :: ':' :: text).map some)
      = some (bodyOf key, (':' :: text).map some) := by
    rw [List.map_append, List.map_cons, body?_spells (spells_flatMap_escapeChar key.toList)]
    rfl
  rw [key?, skipSpace_map, skipSpace_append hb, quoted]
  simp only [List.cons_append, List.append_assoc, List.nil_append]
  rw [skipSpace_cons rfl, List.map_cons]
  simp only [hbody, List.map_cons, skipSpace_some_cons (c := ':') rfl]

/-! ## Integers -/

/-- Digits are read up to what no digit follows. -/
theorem digits_append {ds rest : List Char} (hds : ∀ c ∈ ds, c.isDigit = true)
    (hrest : Delimited rest) : digits ((ds ++ rest).map some) = (ds, rest.map some) := by
  have htake : ((ds ++ rest).map some).takeWhile (fun c? => c?.any Char.isDigit) = ds.map some := by
    rw [List.map_append, List.takeWhile_append_of_pos (by simpa using hds)]
    cases rest with
    | nil => rw [List.map_nil, List.takeWhile_nil, List.append_nil]
    | cons c rest =>
        have hc := not_isDigit_of_not_isNumberChar (delimited_cons.1 hrest)
        rw [List.map_cons, List.takeWhile_cons_of_neg (by simp [hc]), List.append_nil]
  have hdrop : ((ds ++ rest).map some).dropWhile (fun c? => c?.any Char.isDigit)
      = rest.map some := by
    have hall := List.takeWhile_append_dropWhile (p := fun c? : Option Char => c?.any Char.isDigit)
      (l := (ds ++ rest).map some)
    rw [htake, List.map_append] at hall
    rw [List.map_append]
    exact List.append_cancel_left hall
  rw [digits, List.span_eq_takeWhile_dropWhile, htake, hdrop]
  simp

/-- A number has digits. -/
theorem natChars_ne_nil (n : Nat) : natChars n ≠ [] := by
  rcases Nat.eq_zero_or_pos n with rfl | hn
  · exact List.cons_ne_nil _ _
  · obtain ⟨c, s, hs, -⟩ := natChars_cons hn
    exact hs ▸ List.cons_ne_nil _ _

/-- The digits of a number do not start with a zero unless it is the only one. -/
theorem natChars_leading (n : Nat) :
    ((natChars n).isEmpty || ((natChars n).head? == some '0' && (natChars n).length != 1))
      = false := by
  rcases Nat.eq_zero_or_pos n with rfl | hn
  · decide
  · obtain ⟨c, s, hs, hc⟩ := natChars_cons hn
    rw [hs]
    simp [hc]

/-- What delimits a number is no character of numbers. -/
theorem not_isNumberChar_of_map_eq {rest : List Char} (h : Delimited rest) {c : Char}
    {text : List (Option Char)} (heq : rest.map some = some c :: text) :
    isNumberChar c = false := by
  obtain ⟨c, rest, rfl, hc, -⟩ := List.map_eq_cons_iff.1 heq
  cases hc
  exact delimited_cons.1 h

/-- A number without a fraction has none. -/
theorem fraction?_of_delimited {rest : List Char} (h : Delimited rest) :
    fraction? (rest.map some) = some ([], rest.map some) := by
  rw [fraction?]
  intro text heq
  exact nomatch not_isNumberChar_of_map_eq h heq

/-- A number without an exponent has none. -/
theorem exponent?_of_delimited {rest : List Char} (h : Delimited rest) :
    exponent? (rest.map some) = some ([], rest.map some) := by
  rw [exponent?]
  all_goals
    intro text heq
    exact nomatch not_isNumberChar_of_map_eq h heq

/-- An integer that was written is read up to its end. -/
theorem number?_intChars (n : Int) {rest : List Char} (h : Delimited rest) :
    number? ((intChars n ++ rest).map some) = some (intChars n, rest.map some) := by
  have hdigits := digits_append (fun c => isDigit_of_mem_natChars (n := n.natAbs)) h
  have hfraction := fraction?_of_delimited h
  have hexponent := exponent?_of_delimited h
  rw [intChars]
  by_cases hneg : n < 0
  · rw [if_pos hneg, List.cons_append, List.map_cons, number?, hdigits]
    simp only [natChars_leading, hfraction]
    simp [hexponent]
  · have hplain : ∀ text, (natChars n.natAbs ++ rest).map some ≠ some '-' :: text := by
      intro text heq
      obtain ⟨c, s, hs⟩ := List.exists_cons_of_ne_nil (natChars_ne_nil n.natAbs)
      have hc : c.isDigit = true := isDigit_of_mem_natChars (hs ▸ List.mem_cons_self)
      rw [hs, List.cons_append, List.map_cons] at heq
      cases heq
      cases hc
    rw [if_neg hneg, number?, hdigits]
    · simp only [natChars_leading, hfraction]
      simp [hexponent]
    · exact fun text heq => hplain text heq

/-! ## Documents -/

/-- A text that is read as a draft, whatever stands around and behind it, with a step for every
character at most. -/
def Drafted (s : List Char) (d : Draft) : Prop :=
  ∀ (around : List Container) ⦃rest : List Char⦄, Delimited rest → ∃ k ≤ s.length, ∀ fuel,
    readInside? (fuel + k) none around ((s ++ rest).map some)
      = readInside? fuel (some d) around (rest.map some)

/-- White space in front of a value is skipped. -/
theorem readInside?_blank (fuel : Nat) (around : List Container) {b : List Char} (hb : Blank b)
    (s : List Char) :
    readInside? fuel none around ((b ++ s).map some)
      = readInside? fuel none around (s.map some) := by
  cases fuel with
  | zero => rfl
  | succ fuel => rw [readInside?, readInside?, skipSpace_map, skipSpace_map, skipSpace_append hb]

/-- An integer starts with a character of numbers. -/
theorem intChars_cons (n : Int) : ∃ c s, intChars n = c :: s ∧ isNumberChar c = true := by
  rw [intChars]
  split
  · exact ⟨_, _, rfl, rfl⟩
  · obtain ⟨c, s, hs⟩ := List.exists_cons_of_ne_nil (natChars_ne_nil n.natAbs)
    have hc : c.isDigit = true := isDigit_of_mem_natChars (hs ▸ List.mem_cons_self)
    exact ⟨c, s, hs, isNumberChar_of_isDigit hc⟩

/-- A character of numbers is not white space. -/
theorem isSpace_of_isNumberChar {c : Char} (h : isNumberChar c = true) : isSpace c = false := by
  by_contra hspace
  have hblank : Blank [c] := blank_cons.2 ⟨Bool.not_eq_false _ ▸ hspace, blank_nil⟩
  have hnot := delimited_cons.1 (delimited_blank_append hblank delimited_nil)
  rw [h] at hnot
  cases hnot

/-- An integer is drafted as its digits. -/
theorem drafted_intChars (n : Int) : Drafted (intChars n) (.number (intChars n)) := by
  intro around rest hrest
  obtain ⟨c, s, hs, hc⟩ := intChars_cons n
  have hread := number?_intChars n hrest
  rw [hs] at hread ⊢
  rw [List.cons_append, List.map_cons] at hread ⊢
  refine ⟨1, Nat.succ_pos _, fun fuel => ?_⟩
  have hfirst : ∀ d t, some c :: (s ++ rest).map some = some d :: t → isNumberChar d = true := by
    intro d t heq
    cases heq
    exact hc
  rw [readInside?, skipSpace_some_cons (isSpace_of_isNumberChar hc)]
  split
  case h_7 => rw [hread]
  all_goals
    rename_i heq
    exact absurd (hfirst _ _ heq) (by decide)

/-- A string in quotes is drafted as its body. -/
theorem drafted_quoted (s : String) : Drafted (quoted s) (.str (bodyOf s)) := by
  intro around rest hrest
  refine ⟨1, Nat.succ_pos _, fun fuel => ?_⟩
  have hbody : body? [] ((s.toList.flatMap escapeChar ++ '"' :: rest).map some)
      = some (bodyOf s, rest.map some) := by
    rw [List.map_append, List.map_cons, body?_spells (spells_flatMap_escapeChar s.toList)]
    rfl
  rw [quoted]
  simp only [List.cons_append, List.append_assoc, List.nil_append]
  rw [readInside?, List.map_cons, skipSpace_some_cons rfl]
  simp only [hbody]

section
variable {gap b' : List Char} (around : List Container) (rest : List Char)

/-- Items with commas between them are read up to the bracket behind them. -/
theorem drafted_items (hgap : Blank gap) (hb' : Blank b') {write : Json → List Char}
    {items : List Json} (hne : items ≠ []) (h : ∀ j ∈ items, Drafted (write j) (of j))
    (read : List Draft) :
    ∃ k ≤ (separated gap (items.map write)).length + b'.length + 1, ∀ fuel,
      readInside? (fuel + k) none (.items read :: around)
          ((separated gap (items.map write) ++ (b' ++ ']' :: rest)).map some)
        = readInside? fuel (some (.arr (read.reverse ++ ofItems items))) around
          (rest.map some) := by
  induction items generalizing read with
  | nil => exact absurd rfl hne
  | cons item items ih =>
      obtain ⟨hitem, hitems⟩ := List.forall_mem_cons.1 h
      cases items with
      | nil =>
          have hclose : Delimited (b' ++ ']' :: rest) :=
            delimited_blank_append hb' (delimited_cons.2 rfl)
          obtain ⟨k, hk, hread⟩ := hitem (.items read :: around) hclose
          refine ⟨1 + k, ?_, fun fuel => ?_⟩
          · simp only [List.map_cons, List.map_nil, separated]
            omega
          · rw [← Nat.add_assoc]
            refine (hread (fuel + 1)).trans ?_
            rw [readInside?, skipSpace_map, skipSpace_append hb', skipSpace_cons rfl, List.map_cons]
            simp [ofItems]
      | cons item' items =>
          obtain ⟨k', hk', hmore⟩ := ih (List.cons_ne_nil item' items) hitems (of item :: read)
          -- the item is read in `k` steps, the comma in one, and the others in `k'` steps
          have hcomma : Delimited (',' :: (gap ++ (separated gap ((item' :: items).map write)
              ++ (b' ++ ']' :: rest)))) := delimited_cons.2 rfl
          obtain ⟨k, hk, hread⟩ := hitem (.items read :: around) hcomma
          refine ⟨k' + 1 + k, ?_, fun fuel => ?_⟩
          · simp only [List.map_cons, separated, List.length_append, List.length_cons] at hk' ⊢
            omega
          · rw [← Nat.add_assoc, ← Nat.add_assoc, List.map_cons, List.map_cons, separated_cons,
              ← List.map_cons, List.append_assoc, List.cons_append, List.append_assoc]
            refine (hread (fuel + k' + 1)).trans ?_
            have hnext := hmore fuel
            rw [← readInside?_blank _ _ hgap, List.reverse_cons, List.append_assoc] at hnext
            rw [List.map_cons, readInside?, skipSpace_some_cons rfl]
            exact hnext

/-- Members with commas between them are read, behind the first key, up to the brace behind them. -/
theorem drafted_members (hgap : Blank gap) (hb' : Blank b') {colon : List Char}
    (hcolon : Blank colon) {write : Json → List Char} {m : String × Json}
    {members : List (String × Json)} (h : ∀ e ∈ m :: members, Drafted (write e.2) (of e.2))
    (read : List (List (Option Char) × Draft)) :
    ∃ text, separated gap ((m :: members).map fun e => quoted e.1 ++ ':' :: (colon ++ write e.2))
        = quoted m.1 ++ ':' :: text ∧
      ∃ k ≤ text.length + b'.length + 1, ∀ fuel,
        readInside? (fuel + k) none (.members read (bodyOf m.1) :: around)
            ((text ++ (b' ++ '\x7d' :: rest)).map some)
          = readInside? fuel (some (.obj (read.reverse ++ ofMembers (m :: members)))) around
            (rest.map some) := by
  induction members generalizing m read with
  | nil =>
      -- the last member: the brace behind it closes the object
      have hclose : Delimited (b' ++ '\x7d' :: rest) :=
        delimited_blank_append hb' (delimited_cons.2 rfl)
      obtain ⟨k, hk, hread⟩ := h m List.mem_cons_self (.members read (bodyOf m.1) :: around) hclose
      refine ⟨colon ++ write m.2, rfl, 1 + k, ?_, fun fuel => ?_⟩
      · rw [List.length_append]
        omega
      · rw [← Nat.add_assoc, List.append_assoc, readInside?_blank _ _ hcolon]
        refine (hread (fuel + 1)).trans ?_
        rw [readInside?, skipSpace_map, skipSpace_append hb', skipSpace_cons rfl, List.map_cons]
        simp [ofMembers]
  | cons m' members ih =>
      -- a member and a comma: what follows is read with this one among those read
      obtain ⟨hm, hmembers⟩ := List.forall_mem_cons.1 h
      obtain ⟨text, htext, k', hk', hmore⟩ := ih hmembers ((bodyOf m.1, of m.2) :: read)
      have hcomma : Delimited (',' :: (gap ++ (quoted m'.1 ++ ':' ::
          (text ++ (b' ++ '\x7d' :: rest))))) := delimited_cons.2 rfl
      obtain ⟨k, hk, hread⟩ := hm (.members read (bodyOf m.1) :: around) hcomma
      refine ⟨colon ++ (write m.2 ++ ',' :: (gap ++ (quoted m'.1 ++ ':' :: text))), ?_,
        k' + 1 + k, ?_, fun fuel => ?_⟩
      · rw [← htext]
        simp [separated]
      · simp only [List.length_append, List.length_cons]
        omega
      · rw [← Nat.add_assoc, ← Nat.add_assoc, List.append_assoc, readInside?_blank _ _ hcolon]
        simp only [List.append_assoc, List.cons_append]
        refine (hread (fuel + k' + 1)).trans ?_
        rw [List.map_cons, readInside?, skipSpace_some_cons rfl]
        simp only [key?_quoted hgap]
        rw [hmore, List.reverse_cons, List.append_assoc]
        rfl
end

/-- What is written of a document starts with neither a blank nor a closing bracket. -/
theorem writePretty_cons {j : Json} (h : Plain j) (depth : Nat) :
    ∃ c s, writePretty depth j = c :: s ∧ isSpace c = false ∧ c ≠ ']' := by
  cases h with
  | null => exact ⟨_, _, rfl, rfl, by decide⟩
  | bool b => cases b <;> exact ⟨_, _, rfl, rfl, by decide⟩
  | @int n =>
      obtain ⟨c, s, hs, hc⟩ := intChars_cons n
      refine ⟨c, s, hs, isSpace_of_isNumberChar hc, ?_⟩
      rintro rfl
      cases hc
  | str s => exact ⟨_, _, rfl, rfl, by decide⟩
  | @arr items => cases items <;> exact ⟨_, _, rfl, rfl, by decide⟩
  | @obj members => cases members <;> exact ⟨_, _, rfl, rfl, by decide⟩

/-- Items that are not none start with a character that neither is white space nor closes the
list. -/
theorem writePrettyItems_cons {item : Json} (h : Plain item) (items : List Json) (depth : Nat) :
    ∃ c s, writePrettyItems depth (item :: items) = c :: s ∧ isSpace c = false ∧ c ≠ ']' := by
  obtain ⟨c, s, hs, hc⟩ := writePretty_cons h depth
  cases items with
  | nil => exact ⟨c, s, hs, hc⟩
  | cons item' items => exact ⟨c, _, congrArg (· ++ _) hs, hc⟩

/-- A bracket with an item behind it opens a list. -/
theorem readInside?_bracket (fuel : Nat) (around : List Container) {b : List Char} (hb : Blank b)
    {c : Char} (hc : isSpace c = false) (hne : c ≠ ']') (s : List Char) :
    readInside? (fuel + 1) none around (('[' :: (b ++ c :: s)).map some)
      = readInside? fuel none (.items [] :: around) ((c :: s).map some) := by
  have hskip : skipSpace ((b ++ c :: s).map some) = some c :: s.map some := by
    rw [skipSpace_map, skipSpace_append hb, skipSpace_cons hc, List.map_cons]
  rw [List.map_cons, readInside?, skipSpace_some_cons rfl]
  simp only [hskip]
  split
  · next heq =>
    cases heq
    exact absurd rfl hne
  · rfl

/-- A brace with a key behind it opens an object with this member. -/
theorem readInside?_brace (fuel : Nat) (around : List Container) {b : List Char} (hb : Blank b)
    (key : String) (s : List Char) :
    readInside? (fuel + 1) none around (('\x7b' :: (b ++ (quoted key ++ ':' :: s))).map some)
      = readInside? fuel none (.members [] (bodyOf key) :: around) (s.map some) := by
  have hskip : skipSpace ((b ++ (quoted key ++ ':' :: s)).map some)
      = (quoted key ++ ':' :: s).map some := by
    rw [skipSpace_map, skipSpace_append hb, quoted, List.cons_append, skipSpace_cons rfl]
  have hkey := key?_quoted blank_nil key s
  rw [List.map_cons, readInside?, skipSpace_some_cons rfl]
  simp only [hskip]
  split
  · next heq => simp [quoted] at heq
  · rw [← List.nil_append (quoted key ++ ':' :: s), hkey]

/-- A list is written with its items on lines of their own. -/
theorem writePretty_items (depth : Nat) (item : Json) (items : List Json) :
    writePretty depth (.arr (item :: items)) = '[' :: (newLine (depth + 1)
      ++ writePrettyItems (depth + 1) (item :: items) ++ newLine depth ++ [']']) := rfl

/-- An object is written with its members on lines of their own. -/
theorem writePretty_members (depth : Nat) (m : String × Json) (members : List (String × Json)) :
    writePretty depth (.obj (m :: members)) = '\x7b' :: (newLine (depth + 1)
      ++ writePrettyMembers (depth + 1) (m :: members) ++ newLine depth ++ ['\x7d']) := rfl

/-- A word that is written is read. -/
theorem drafted_word {j : Json} {c : Char} {s : List Char}
    (h : ∀ fuel around rest, readInside? (fuel + 1) none around ((c :: s).map some ++ rest)
      = readInside? fuel (some (.word j)) around rest) : Drafted (c :: s) (.word j) := by
  intro around rest _
  refine ⟨1, Nat.succ_pos _, fun fuel => ?_⟩
  rw [List.map_append]
  exact h fuel around _

/-- What is written of a document is read as its draft. -/
theorem drafted_writePretty {j : Json} (h : Plain j) (depth : Nat) :
    Drafted (writePretty depth j) (of j) := by
  have hspace : Blank [' '] := blank_cons.2 ⟨rfl, blank_nil⟩
  induction h generalizing depth with
  | null => exact drafted_word fun _ _ _ => rfl
  | bool b =>
      cases b with
      | false => exact drafted_word fun _ _ _ => rfl
      | true => exact drafted_word fun _ _ _ => rfl
  | @int n _ => exact drafted_intChars n
  | str s => exact drafted_quoted s
  | @arr items hplain ih =>
      intro around rest _
      cases items with
      | nil => exact ⟨1, Nat.succ_pos _, fun _ => rfl⟩
      | cons item items =>
          obtain ⟨k, hk, hread⟩ := drafted_items around rest (blank_newLine (depth + 1))
            (blank_newLine depth) (List.cons_ne_nil item items) (fun j hj => ih j hj (depth + 1)) []
          -- the first item starts with no bracket, so the array is not taken for an empty one
          obtain ⟨c, s, hs, hc, hne⟩ :=
            writePrettyItems_cons (hplain item List.mem_cons_self) items (depth + 1)
          rw [← writePrettyItems_eq, hs] at hk hread
          refine ⟨k + 1, ?_, fun fuel => ?_⟩
          · simp only [writePretty_items, hs, List.length_cons, List.length_append, List.length_nil]
              at hk ⊢
            omega
          · rw [writePretty_items, hs]
            simp only [List.cons_append, List.append_assoc, List.nil_append]
            rw [← Nat.add_assoc, readInside?_bracket _ _ (blank_newLine (depth + 1)) hc hne]
            exact hread fuel
  | @obj members _ ih =>
      intro around rest _
      cases members with
      | nil => exact ⟨1, Nat.succ_pos _, fun _ => rfl⟩
      | cons m members =>
          obtain ⟨text, htext, k, hk, hread⟩ := drafted_members around rest
            (blank_newLine (depth + 1)) (blank_newLine depth) hspace
            (fun e he => ih e he (depth + 1)) []
          rw [← writePrettyMembers_eq] at htext
          refine ⟨k + 1, ?_, fun fuel => ?_⟩
          · simp only [writePretty_members, htext, List.length_cons, List.length_append,
              List.length_nil]
            omega
          · rw [writePretty_members, htext]
            simp only [List.cons_append, List.append_assoc, List.nil_append]
            rw [← Nat.add_assoc, readInside?_brace _ _ (blank_newLine (depth + 1))]
            exact hread fuel

/-- What was written of a document is read as its draft, however deep it is nested. -/
theorem read?_writePretty {j : Json} (h : Plain j) :
    Draft.read? ((writePretty 0 j).map some) = some (of j) := by
  obtain ⟨k, hk, hread⟩ := drafted_writePretty h 0 [] delimited_nil
  rw [List.append_nil] at hread
  have hfuel : ((writePretty 0 j).map some).length + 2
      = ((writePretty 0 j).length + 1 - k) + 1 + k := by
    rw [List.length_map]
    omega
  rw [Draft.read?, hfuel, hread]
  rfl

/-! ## Looking closely -/

/-- A string is read back from its body. -/
theorem string?_bodyOf (s : String) : string? (bodyOf s) = some s := by
  have hchars : (bodyOf s).mapM id = some (s.toList.flatMap escapeChar) :=
    mapM_of_forall (f := id) (g := some) fun _ _ => rfl
  have hread := readString?_spells (spells_flatMap_escapeChar s.toList) [] []
  rw [string?, hchars, Option.bind_eq_bind, Option.bind_some, hread, List.reverse_nil,
    List.nil_append, String.ofList_toList]
  rfl

mutual

/-- A draft that is looked at closely is nested no deeper than there is room. -/
theorem nesting_le_of_close? {room : Nat} : ∀ {j k : Json}, close? room (of j) = some k →
    j.nesting ≤ room
  | .null, _, _ => Nat.zero_le _
  | .bool _, _, _ => Nat.zero_le _
  | .num _, _, _ => Nat.zero_le _
  | .str _, _, _ => Nat.zero_le _
  | .arr items, _, h => by
      rw [of, close?] at h
      split at h
      · cases h
      · obtain ⟨_, hclose, -⟩ := Option.map_eq_some_iff.1 h
        have hitems := nesting_le_of_closeItems? hclose
        rw [nesting]
        omega
  | .obj members, _, h => by
      rw [of, close?] at h
      split at h
      · cases h
      · obtain ⟨_, hclose, -⟩ := Option.map_eq_some_iff.1 h
        have hmembers := nesting_le_of_closeMembers? hclose
        rw [nesting]
        omega

/-- Items that are closed within a room are nested no deeper than it. -/
theorem nesting_le_of_closeItems? {room : Nat} : ∀ {items l : List Json},
    closeItems? room (ofItems items) = some l → nestingItems items ≤ room
  | [], _, _ => Nat.zero_le _
  | item :: items, _, h => by
      rw [ofItems, closeItems?] at h
      obtain ⟨_, hitem, h⟩ := Option.bind_eq_some_iff.1 h
      obtain ⟨_, hitems, -⟩ := Option.bind_eq_some_iff.1 h
      exact Nat.max_le.2 ⟨nesting_le_of_close? hitem, nesting_le_of_closeItems? hitems⟩

/-- Members that are closed within a room are nested no deeper than it. -/
theorem nesting_le_of_closeMembers? {room : Nat} : ∀ {members l : List (String × Json)},
    closeMembers? room (ofMembers members) = some l → nestingMembers members ≤ room
  | [], _, _ => Nat.zero_le _
  | (key, value) :: members, _, h => by
      rw [ofMembers, closeMembers?] at h
      obtain ⟨_, -, h⟩ := Option.bind_eq_some_iff.1 h
      obtain ⟨_, hvalue, h⟩ := Option.bind_eq_some_iff.1 h
      obtain ⟨_, hmembers, -⟩ := Option.bind_eq_some_iff.1 h
      exact Nat.max_le.2 ⟨nesting_le_of_close? hvalue, nesting_le_of_closeMembers? hmembers⟩

end

end Draft

/-! ## Shapes -/

/-- Whether all of a document counts under a shape. -/
inductive Shape.Covers : Shape → Json → Prop
  | whole (j : Json) : Covers .whole j
  | list {item : Shape} {items : List Json} (h : ∀ j ∈ items, Covers item j) :
      Covers (.list item) (.arr items)
  | record {fields : List (String × Shape)} {members : List (String × Json)}
    (shapeOf : String → Shape)
      (hfields : ∀ m ∈ members, fields.lookup m.1 = some (shapeOf m.1))
      (h : ∀ m ∈ members, Covers (shapeOf m.1) m.2) : Covers (.record fields) (.obj members)

namespace Shape

open Draft

/-- The whole of a draft is closed as the draft. -/
theorem close?_whole (room : Nat) (d : Draft) : Shape.whole.close? room d = d.close? room := by
  cases d with
  | arr items =>
      rw [close?, Draft.close?]
      split
      · rfl
      · simp
  | obj members =>
      rw [close?, Draft.close?]
      split
      · rfl
      · simp
  | _ => rfl

/-- Items of one shape that are closed within a room are nested no deeper than it. -/
theorem nesting_le_of_closeItems? {shape : Shape} {room : Nat} {items l : List Json}
    (h : ∀ j ∈ items, ∀ {k}, shape.close? room (of j) = some k → j.nesting ≤ room)
    (hclose : closeItems? shape room (ofItems items) = some l) : nestingItems items ≤ room := by
  induction items generalizing l with
  | nil => exact Nat.zero_le _
  | cons item items ih =>
      obtain ⟨hitem, hitems⟩ := List.forall_mem_cons.1 h
      rw [ofItems, closeItems?] at hclose
      obtain ⟨_, hfirst, hclose⟩ := Option.bind_eq_some_iff.1 hclose
      obtain ⟨_, hrest, -⟩ := Option.bind_eq_some_iff.1 hclose
      exact Nat.max_le.2 ⟨hitem hfirst, ih hitems hrest⟩

/-- Members whose shapes are known and that are closed within a room are nested no deeper than
it. -/
theorem nesting_le_of_closeMembers? {shapeOf? : String → Option Shape} {shapeOf : String → Shape}
    {room : Nat} {members l : List (String × Json)}
    (hshape : ∀ m ∈ members, shapeOf? m.1 = some (shapeOf m.1))
    (h : ∀ m ∈ members, ∀ {k}, (shapeOf m.1).close? room (of m.2) = some k → m.2.nesting ≤ room)
    (hclose : closeMembers? shapeOf? room (Draft.ofMembers members) = some l) :
    nestingMembers members ≤ room := by
  induction members generalizing l with
  | nil => exact Nat.zero_le _
  | cons m members ih =>
      obtain ⟨key, value⟩ := m
      obtain ⟨hmember, hmembers⟩ := List.forall_mem_cons.1 h
      obtain ⟨hfound, hshapes⟩ := List.forall_mem_cons.1 hshape
      rw [Draft.ofMembers, closeMembers?, string?_bodyOf, Option.bind_eq_bind, Option.bind_some]
        at hclose
      simp only [hfound] at hclose
      obtain ⟨_, hfirst, hclose⟩ := Option.bind_eq_some_iff.1 hclose
      obtain ⟨_, hrest, -⟩ := Option.bind_eq_some_iff.1 hclose
      exact Nat.max_le.2 ⟨hmember hfirst, ih hshapes hmembers hrest⟩

/-- A document that counts as a whole is looked at closely only if there is room for it. -/
theorem Covers.nesting_le {shape : Shape} {j k : Json} {room : Nat} (h : Covers shape j)
    (hclose : shape.close? room (of j) = some k) : j.nesting ≤ room := by
  induction h generalizing room k with
  | whole j => exact nesting_le_of_close? (close?_whole room (of j) ▸ hclose)
  | list _ ih =>
      rw [of, close?] at hclose
      split at hclose
      · cases hclose
      · obtain ⟨_, hitems, -⟩ := Option.map_eq_some_iff.1 hclose
        have hle := nesting_le_of_closeItems? (fun j hj _ => ih j hj) hitems
        rw [nesting]
        omega
  | record shapeOf hfields _ ih =>
      rw [of, close?] at hclose
      split at hclose
      · cases hclose
      · obtain ⟨_, hmembers, -⟩ := Option.map_eq_some_iff.1 hclose
        have hle := nesting_le_of_closeMembers? hfields (fun m hm _ => ih m hm) hmembers
        rw [nesting]
        omega

end Shape

/-! ## Too deep -/

/-- The values of entries are nested as members are. -/
theorem nestingItems_map (es : List (String × Json)) :
    nestingItems (es.map Prod.snd) = nestingMembers es := by
  induction es with
  | nil => rfl
  | cons e es ih =>
      obtain ⟨key, value⟩ := e
      rw [List.map_cons, nestingItems, nestingMembers, ih]

/-- How deep a part of a text is nested. -/
def Form.nesting : Form → Nat
  | value j => j.nesting
  | entry _ e => e.2.nesting
  | entries _ es | more _ es => nestingMembers es

/-- A text is for no nesting less than that of its document. -/
theorem Text.nesting_le {n : Nat} {form : Form} {s : List Char} (h : Text n form s) :
    form.nesting ≤ n := by
  induction h with
  | null | yes | no | num | str | nil | last => exact Nat.zero_le _
  | @arr n es _ _ ih =>
      have hitems := nestingItems_map es
      simp only [Form.nesting, Json.nesting] at ih ⊢
      omega
  | obj _ ih => exact Nat.succ_le_succ ih
  | item _ ih | member _ _ _ _ ih | comma _ ih => exact ih
  | cons _ _ _ _ ih ihm => exact Nat.max_le.2 ⟨ih, ihm⟩

/-- What was written of a document that is nested too deep is not read. -/
theorem readChars?_eq_none {j : Json} (h : Plain j) (hdeep : maxNesting < j.nesting) :
    readChars? (writePretty 0 j) = none := by
  rw [Option.eq_none_iff_forall_ne_some]
  intro k hk
  obtain ⟨b, s, b', htext, hb, hs, hb'⟩ := readChars?_eq_some_iff.1 hk
  have hread := (hs.mono (Nat.le_of_lt hdeep)).read (2 * (writePretty 0 j).length) b'
    (by simp only [htext, List.length_append]; omega)
    (by simpa using delimited_blank_append hb' delimited_nil)
  have hread' := (text_writePretty h 0).read (2 * (writePretty 0 j).length) [] (Nat.le_succ _) nofun
  rw [← readValue?_blank _ _ hb, ← htext] at hread
  rw [List.append_nil, hread] at hread'
  cases hread'
  exact absurd hs.nesting_le (Nat.not_le.2 hdeep)

/-- A document that is nested too deep is not read by a shape under which all of it counts. -/
theorem Shape.read?_eq_none {shape : Shape} {j : Json} (hshape : Covers shape j) (h : Plain j)
    (hdeep : maxNesting < j.nesting) : shape.read? ((writePretty 0 j).map some) = none := by
  have hchars : ((writePretty 0 j).map some).mapM id = some (writePretty 0 j) :=
    mapM_of_forall (f := id) (g := some) fun _ _ => rfl
  have hclose : shape.close? maxNesting (Draft.of j) = none := by
    rw [Option.eq_none_iff_forall_ne_some]
    intro k hk
    exact absurd (hshape.nesting_le hk) (Nat.not_le.2 hdeep)
  rw [Shape.read?, hchars, Option.bind_eq_bind, Option.bind_some, readChars?_eq_none h hdeep,
    Draft.read?_writePretty h, Option.bind_eq_bind, Option.bind_some, hclose]
  rfl

end CodeAtlas.Json
