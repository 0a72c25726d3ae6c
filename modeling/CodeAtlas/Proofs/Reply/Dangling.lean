import CodeAtlas.Proofs.Json.Grammar
import CodeAtlas.Proofs.Text.Trim
import CodeAtlas.Reply.Repair

/-!
# What a text leaves open

The scan of brackets and quotes follows the texts of documents: behind a whole part it is where it
was in front of it, and within a string it stays there until the closing quote.

The search for a key without a colon goes through the whole text from the left, and through strings
that hold commas, braces and quotes. It finds nothing but the last string of the text, and that only
if a comma or a brace comes before it: a quote outside of strings that no backslash precedes ends
every string that an earlier match could have started. The search for an unfinished literal finds
nothing but what stands behind the last bracket, colon or comma.
-/

namespace CodeAtlas.Reply

open Json Text Unicode

/-- The state outside of strings with these brackets open. -/
def outside (stack : List Char) : Openings := ⟨stack, false, false⟩

/-- The state within a string, where no backslash comes before. -/
def inside (stack : List Char) : Openings := ⟨stack, true, false⟩

/-- What is open behind two texts is found by going on behind the first one. -/
theorem openings_append (a s : List Char) :
    openings (a ++ s) = s.foldl Openings.step (openings a) := List.foldl_append

section

variable {stack : List Char}

/-! ## Within strings -/

/-- Within a string a character that neither ends it nor escapes changes nothing. -/
theorem step_inside {c : Char} (hquote : c ≠ '"') (hslash : c ≠ '\\') :
    (inside stack).step c = inside stack := by
  simp [Openings.step, inside, hquote, hslash]

/-- Within a string an escape changes nothing. -/
theorem step_escape (c : Char) :
    ((inside stack).step '\\').step c = inside stack := rfl

/-- Within a string a hexadecimal digit changes nothing. -/
theorem step_hexDigit {c : Char} (h : HexDigit c) : (inside stack).step c = inside stack :=
  step_inside (h.ne (by decide)) (h.ne (by decide))

/-- Within a string an escape of four digits changes nothing. -/
theorem foldl_hexEscape {u : List Char} {d : Char} (h : HexEscape u d) :
    u.foldl Openings.step (inside stack) = inside stack := by
  cases h with
  | one h =>
      obtain ⟨ha, hb, hc, hd⟩ := hexDigits_of_hex4? h
      simp only [List.foldl_cons, List.foldl_nil, step_escape, step_hexDigit, ha, hb, hc, hd]
  | two h hhigh h' =>
      obtain ⟨ha, hb, hc, hd⟩ := hexDigits_of_hex4? h
      obtain ⟨ha', hb', hc', hd'⟩ := hexDigits_of_hex4? h'
      simp only [List.foldl_cons, List.foldl_nil, step_escape, step_hexDigit, ha, hb, hc, hd, ha',
        hb', hc', hd']

/-- Within a string a spelling changes nothing. -/
theorem foldl_spells {s cs : List Char} (h : Spells s cs) :
    s.foldl Openings.step (inside stack) = inside stack := by
  induction h with
  | nil => rfl
  | plain hquote hslash _ _ ih => rw [List.foldl_cons, step_inside hquote hslash, ih]
  | letter _ _ ih => rw [List.foldl_cons, List.foldl_cons, step_escape, ih]
  | hex h _ ih => rw [List.foldl_append, foldl_hexEscape h, ih]

/-! ## Outside of strings -/

/-- A character that neither opens nor closes anything. -/
def Neutral (c : Char) : Prop :=
  c ≠ '"' ∧ c ≠ '[' ∧ c ≠ ']' ∧ c ≠ '\x7b' ∧ c ≠ '\x7d'

/-- Outside of strings a neutral character changes nothing. -/
theorem step_outside {c : Char} (h : Neutral c) : (outside stack).step c = outside stack := by
  obtain ⟨h₁, h₂, h₃, h₄, h₅⟩ := h
  simp [Openings.step, outside, h₁, h₂, h₃, h₄, h₅]

/-- Outside of strings neutral text changes nothing. -/
theorem foldl_neutral {s : List Char} (h : ∀ c ∈ s, Neutral c) :
    s.foldl Openings.step (outside stack) = outside stack := by
  induction s with
  | nil => rfl
  | cons c s ih =>
      obtain ⟨hc, hs⟩ := List.forall_mem_cons.1 h
      rw [List.foldl_cons, step_outside hc, ih hs]

/-- White space is neutral. -/
theorem neutral_of_isSpace {c : Char} (h : isSpace c = true) : Neutral c := by
  simp only [isSpace, Bool.or_eq_true, beq_iff_eq] at h
  rcases h with ((rfl | rfl) | rfl) | rfl
  all_goals exact ⟨by decide, by decide, by decide, by decide, by decide⟩

/-- Outside of strings white space changes nothing. -/
theorem foldl_blank {b : List Char} (hb : Blank b) :
    b.foldl Openings.step (outside stack) = outside stack :=
  foldl_neutral fun c hc => neutral_of_isSpace (hb c hc)

/-- A character of a number is neutral. -/
theorem neutral_of_isNumberChar {c : Char} (h : isNumberChar c = true) : Neutral c := by
  have hne : ∀ d, isNumberChar d = false → c ≠ d := by
    rintro d hd rfl
    rw [hd] at h
    cases h
  exact ⟨hne _ rfl, hne _ rfl, hne _ rfl, hne _ rfl, hne _ rfl⟩

/-- A string leaves nothing open. -/
theorem foldl_quoted {s cs : List Char} (h : Spells s cs) (rest : List Char) :
    ('"' :: (s ++ '"' :: rest)).foldl Openings.step (outside stack)
      = rest.foldl Openings.step (outside stack) := by
  rw [List.foldl_cons, List.foldl_append, List.foldl_cons]
  have hopen : (outside stack).step '"' = inside stack := rfl
  rw [hopen, foldl_spells h]
  rfl

/-- A part of a document leaves nothing open. -/
theorem foldl_text {n : Nat} {form : Form} {s : List Char} (h : Text n form s) :
    ∀ stack, s.foldl Openings.step (outside stack) = outside stack := by
  induction h with
  | null | yes | no => intro stack; rfl
  | num h =>
      intro stack
      exact foldl_neutral fun c hc =>
        neutral_of_isNumberChar ((isNumberChar_of_readNumber? h).2 c hc)
  | str h =>
      intro stack
      exact foldl_quoted h []
  | arr _ ih =>
      -- the bracket that is opened here is closed by the last character
      intro stack
      have hopen : (outside stack).step '[' = outside ('[' :: stack) := rfl
      rw [List.foldl_cons, List.foldl_append, hopen, ih]
      rfl
  | obj _ ih =>
      intro stack
      have hopen : (outside stack).step '\x7b' = outside ('\x7b' :: stack) := rfl
      rw [List.foldl_cons, List.foldl_append, hopen, ih]
      rfl
  | item _ ih => exact ih
  | member hk hb hb' _ ih =>
      intro stack
      have hcolon : (outside stack).step ':' = outside stack := rfl
      rw [foldl_quoted hk, List.foldl_append, foldl_blank hb, List.foldl_cons, hcolon,
        List.foldl_append, foldl_blank hb', ih]
  | nil hb =>
      intro stack
      exact foldl_blank hb
  | cons hb hb' _ _ ih ihm =>
      intro stack
      rw [List.foldl_append, foldl_blank hb, List.foldl_append, ih, List.foldl_append,
        foldl_blank hb', ihm]
  | last => intro stack; rfl
  | comma _ ih => exact ih

end

/-! ## Strings at the end -/

theorem isBlank_quote : isBlank '"' = false := isBlank_of_printed (by decide) (by decide)

theorem isBlank_backslash : isBlank '\\' = false := isBlank_of_printed (by decide) (by decide)

theorem isBlank_brace : isBlank '\x7b' = false := isBlank_of_printed (by decide) (by decide)

theorem isBlank_comma : isBlank ',' = false := isBlank_of_printed (by decide) (by decide)

/-- White space is different from what is none. -/
theorem ne_of_isBlank {c d : Char} (hc : isBlank c = true) (hd : isBlank d = false) : c ≠ d := by
  rintro rfl
  rw [hd] at hc
  cases hc

/-- An escape does not end the string, unless it is one of a newline. -/
theorem endsString_escape (c : Char) (s : List Char) :
    endsString ('\\' :: c :: s) = (c != '\n' && endsString s) := by rw [endsString]

/-- A quote ends the string if white space stands behind it. -/
theorem endsString_quote (s : List Char) : endsString ('"' :: s) = s.all isBlank := by
  rw [endsString, if_pos]
  · rfl
  · intro c s' h
    cases h

/-- A character that neither ends the string nor escapes makes no difference to its end. -/
theorem endsString_plain {c : Char} (hquote : c ≠ '"') (hslash : c ≠ '\\') (s : List Char) :
    endsString (c :: s) = endsString s := by
  rw [endsString]
  · simp [hquote, hslash]
  · intro c' s' h
    exact absurd h hslash

/-- A quote that no backslash precedes is the last, up to white space. -/
theorem allBlank_of_endsString {s u v : List Char} {d : Char} (hd : d ≠ '\\')
    (hs : s = u ++ d :: '"' :: v) (h : endsString s = true) : AllBlank v := by
  fun_induction endsString s generalizing u with
  | case1 => exact nomatch (List.append_eq_nil_iff.1 hs.symm).2
  | case2 c rest ih =>
      have hrest := (Bool.and_eq_true_iff.1 h).2
      -- the escape begins at `d`, takes `d`, or lies in front of it
      match u, hs with
      | [], hs => exact absurd (List.cons.inj hs).1.symm hd
      | [_], hs =>
          cases hs
          rwa [endsString_quote, all_isBlank_iff] at hrest
      | _ :: _ :: u, hs =>
          cases hs
          exact ih rfl hrest
  | case3 c rest _ _ =>
      -- the string has ended already, and the quote behind it is no white space
      have hmem : '"' ∈ rest := by
        cases u with
        | nil =>
            cases hs
            exact List.mem_cons_self
        | cons _ u =>
            cases hs
            exact List.mem_append_right _ (List.mem_cons_of_mem _ List.mem_cons_self)
      have hblank := all_isBlank_iff.1 h '"' hmem
      rw [isBlank_quote] at hblank
      cases hblank
  | case4 c rest _ _ ih =>
      have hrest := (Bool.and_eq_true_iff.1 h).2
      cases u with
      | nil =>
          cases hs
          rwa [endsString_quote, all_isBlank_iff] at hrest
      | cons _ u =>
          cases hs
          exact ih rfl hrest

/-- What a string ends in. -/
theorem exists_of_endsString {s : List Char} (h : endsString s = true) :
    ∃ t b, s = t ++ '"' :: b ∧ AllBlank b := by
  fun_induction endsString s with
  | case1 => cases h
  | case2 c rest ih =>
      obtain ⟨t, b, rfl, hb⟩ := ih (Bool.and_eq_true_iff.1 h).2
      exact ⟨'\\' :: c :: t, b, rfl, hb⟩
  | case3 c rest _ hquote =>
      rw [beq_iff_eq] at hquote
      exact ⟨[], rest, by rw [hquote]; rfl, all_isBlank_iff.1 h⟩
  | case4 c rest _ _ ih =>
      obtain ⟨t, b, rfl, hb⟩ := ih (Bool.and_eq_true_iff.1 h).2
      exact ⟨c :: t, b, rfl, hb⟩

/-- An escape of four digits makes no difference to the end of the string. -/
theorem endsString_hexEscape {u : List Char} {d : Char} (h : HexEscape u d) (t : List Char) :
    endsString (u ++ t) = endsString t := by
  have hplain : ∀ {c : Char}, HexDigit c → ∀ t, endsString (c :: t) = endsString t :=
    fun hc t => endsString_plain (hc.ne (by decide)) (hc.ne (by decide)) t
  cases h with
  | one h =>
      obtain ⟨ha, hb, hc, hd⟩ := hexDigits_of_hex4? h
      simp only [List.cons_append, List.nil_append]
      rw [endsString_escape, hplain ha, hplain hb, hplain hc, hplain hd]
      rfl
  | two h hhigh h' =>
      obtain ⟨ha, hb, hc, hd⟩ := hexDigits_of_hex4? h
      obtain ⟨ha', hb', hc', hd'⟩ := hexDigits_of_hex4? h'
      simp only [List.cons_append, List.nil_append]
      rw [endsString_escape, hplain ha, hplain hb, hplain hc, hplain hd, endsString_escape,
        hplain ha', hplain hb', hplain hc', hplain hd']
      rfl

/-- A spelling makes no difference to the end of the string. -/
theorem endsString_spells {s cs : List Char} (h : Spells s cs) (b : List Char) :
    endsString (s ++ '"' :: b) = b.all isBlank := by
  induction h with
  | nil => exact endsString_quote b
  | plain hquote hslash _ _ ih => rw [List.cons_append, endsString_plain hquote hslash, ih]
  | letter h _ ih =>
      have hbreak := ne_of_escapeOf? (d := '\n') (Option.isSome_of_eq_some h) rfl
      rw [List.cons_append, List.cons_append, endsString_escape, ih]
      simp [hbreak]
  | hex h _ ih => rw [List.append_assoc, endsString_hexEscape h, ih]

/-! ## Lone strings -/

/-- A lone string is a string behind white space that ends with the text. -/
theorem exists_of_isLoneString {s : List Char} (h : isLoneString s = true) :
    ∃ b t, s = b ++ '"' :: t ∧ AllBlank b ∧ endsString t = true := by
  obtain ⟨b, hb, hs⟩ := exists_append_trimStart s
  rw [isLoneString] at h
  split at h
  · next t ht => exact ⟨b, t, by rw [← ht]; exact hs, hb, h⟩
  · cases h

/-- In front of a quote that no backslash precedes and that is not the last, a lone string cannot
start. -/
theorem allBlank_of_isLoneString {y v : List Char} (hy : ∀ d, y.getLast? = some d → d ≠ '\\')
    (h : isLoneString (y ++ '"' :: v) = true) (hv : ¬ AllBlank v) : AllBlank y := by
  obtain ⟨b, t, heq, hb, ht⟩ := exists_of_isLoneString h
  rcases List.append_eq_append_iff.1 heq with ⟨z, rfl, hz⟩ | ⟨z, rfl, hz⟩
  · exact fun c hc => hb c (List.mem_append_left _ hc)
  · cases z with
    | nil =>
        rw [List.append_nil]
        exact hb
    | cons c z =>
        have ht' : t = z ++ '"' :: v := (List.cons.inj hz).2
        refine absurd ?_ hv
        rcases List.eq_nil_or_concat z with rfl | ⟨z, d, rfl⟩
        · rwa [ht', List.nil_append, endsString_quote, all_isBlank_iff] at ht
        · rw [List.concat_eq_append] at hy ht'
          have hd : d ≠ '\\' := by
            refine hy d ?_
            rw [List.getLast?_append, List.getLast?_cons, List.getLast?_concat]
            rfl
          rw [List.append_assoc, List.singleton_append] at ht'
          exact allBlank_of_endsString hd ht' ht

/-- White space in front of a lone string makes no difference. -/
theorem isLoneString_blank {c : Char} (hc : isBlank c = true) (s : List Char) :
    isLoneString (c :: s) = isLoneString s := by
  rw [isLoneString, isLoneString, trimStart, List.dropWhile_cons_of_pos hc]
  rfl

/-- What starts with a character other than a quote is no lone string. -/
theorem isLoneString_of_head {c : Char} (hc : isBlank c = false) (hquote : c ≠ '"')
    (s : List Char) : isLoneString (c :: s) = false := by
  rw [isLoneString, trimStart_cons hc]
  split
  · next heq => exact absurd (List.cons.inj heq).1 hquote
  · rfl

/-- Within a string no other starts. -/
theorem isLoneString_spells {s cs : List Char} (h : Spells s cs) :
    isLoneString (s ++ ['"']) = false := by
  induction h with
  | nil =>
      rw [List.nil_append, isLoneString, trimStart_cons isBlank_quote]
      rfl
  | @plain c s cs hquote _ _ _ ih =>
      rw [List.cons_append]
      cases hc : isBlank c with
      | true => rw [isLoneString_blank hc, ih]
      | false => rw [isLoneString_of_head hc hquote]
  | letter => exact isLoneString_of_head isBlank_backslash (by decide) _
  | hex h =>
      cases h with
      | one => exact isLoneString_of_head isBlank_backslash (by decide) _
      | two => exact isLoneString_of_head isBlank_backslash (by decide) _

/-! ## Keys without a colon -/

/-- No key is dropped at a character behind which no lone string stands. -/
theorem dropLoneKey?_cons {c : Char} {s : List Char}
    (h : c = '\x7b' ∨ c = ',' → isLoneString s = false) :
    dropLoneKey? (c :: s) = (dropLoneKey? s).map (c :: ·) := by
  rw [dropLoneKey?]
  by_cases hbrace : c = '\x7b'
  · simp [h (.inl hbrace)]
  · by_cases hcomma : c = ','
    · simp [h (.inr hcomma)]
    · simp [hbrace, hcomma]

/-- No key is dropped at a text without braces and commas. -/
theorem dropLoneKey?_append {s : List Char} (hs : ∀ c ∈ s, c ≠ '\x7b' ∧ c ≠ ',') (t : List Char) :
    dropLoneKey? (s ++ t) = (dropLoneKey? t).map (s ++ ·) := by
  induction s with
  | nil => simp
  | cons c s ih =>
      obtain ⟨⟨hbrace, hcomma⟩, hs⟩ := List.forall_mem_cons.1 hs
      rw [List.cons_append, dropLoneKey?_cons fun h => absurd h (not_or.2 ⟨hbrace, hcomma⟩), ih hs,
        Option.map_map]
      rfl

/-- No key is dropped within a spelling. -/
theorem dropLoneKey?_spells {s cs : List Char} (h : Spells s cs) :
    dropLoneKey? (s ++ ['"']) = none := by
  induction h with
  | nil => 
      rw [List.nil_append, dropLoneKey?_cons (by decide)]
      rfl
  | plain _ _ _ h ih =>
      rw [List.cons_append, dropLoneKey?_cons fun _ => isLoneString_spells h, ih]
      rfl
  | @letter c d s cs hd h ih =>
      have hbrace := ne_of_escapeOf? (d := '\x7b') (Option.isSome_of_eq_some hd) rfl
      have hcomma := ne_of_escapeOf? (d := ',') (Option.isSome_of_eq_some hd) rfl
      have hplain : ∀ c' ∈ ['\\', c], c' ≠ '\x7b' ∧ c' ≠ ',' := by
        simp [hbrace, hcomma]
      have hsplit : '\\' :: c :: s ++ ['"'] = ['\\', c] ++ (s ++ ['"']) := rfl
      rw [hsplit, dropLoneKey?_append hplain, ih]
      rfl
  | @hex u d s cs h _ ih =>
      have hplain : ∀ c ∈ u, c ≠ '\x7b' ∧ c ≠ ',' := by
        intro c hc
        rcases h.chars c hc with rfl | rfl | hc
        · decide
        · decide
        · exact ⟨hc.ne (by decide), hc.ne (by decide)⟩
      rw [List.append_assoc, dropLoneKey?_append hplain, ih]
      rfl

/-- A lone key that is dropped ends with a quote. -/
theorem exists_of_dropLoneKey? {s kept : List Char} (h : dropLoneKey? s = some kept) :
    ∃ t b, s = t ++ '"' :: b ∧ AllBlank b := by
  induction s generalizing kept with
  | nil => cases h
  | cons c s ih =>
      by_cases hlone : isLoneString s = true
      · obtain ⟨b, t, rfl, -, ht⟩ := exists_of_isLoneString hlone
        obtain ⟨t, b', rfl, hb'⟩ := exists_of_endsString ht
        exact ⟨c :: (b ++ '"' :: t), b', by simp, hb'⟩
      · rw [dropLoneKey?_cons fun _ => Bool.eq_false_iff.2 hlone] at h
        obtain ⟨k, hk, -⟩ := Option.map_eq_some_iff.1 h
        obtain ⟨t, b, rfl, hb⟩ := ih hk
        exact ⟨c :: t, b, rfl, hb⟩

/-- A text that does not end in a quote ends in no key. -/
theorem dropLoneKey?_of_last {s : List Char} {c : Char} (hc : isBlank c = false)
    (hquote : c ≠ '"') :
    dropLoneKey? (s ++ [c]) = none := by
  rw [Option.eq_none_iff_forall_ne_some]
  intro kept h
  obtain ⟨t, b, heq, hb⟩ := exists_of_dropLoneKey? h
  have hlast := congrArg List.getLast? heq
  rw [List.getLast?_concat, List.getLast?_append, List.getLast?_cons] at hlast
  cases hb' : b.getLast? with
  | none =>
      rw [hb'] at hlast
      exact hquote (Option.some.inj hlast)
  | some d =>
      rw [hb'] at hlast
      have hcd : c = d := Option.some.inj hlast
      rw [hcd, hb d (List.mem_of_getLast? hb')] at hc
      cases hc

/-- The string at the end of a text, and what comes in front of it: a key is found only if it
follows a brace or a comma. -/
theorem dropLoneKey?_string {a b s cs : List Char} {c : Char} (hc : isBlank c = false)
    (hslash : c ≠ '\\') (hb : AllBlank b) (hs : Spells s cs) :
    dropLoneKey? (a ++ c :: (b ++ '"' :: (s ++ ['"'])))
      = if c = '\x7b' then some (a ++ ['\x7b']) else if c = ',' then some a else none := by
  -- by induction on what stands in front of `c`: at its end the lone key begins, further in front
  -- it does not
  induction a with
  | nil =>
      have hend : endsString (s ++ ['"']) = true := endsString_spells hs []
      have hlone : isLoneString (b ++ '"' :: (s ++ ['"'])) = true := by
        rw [isLoneString, trimStart_append_blank hb, trimStart_cons isBlank_quote]
        exact hend
      have hin : dropLoneKey? (b ++ '"' :: (s ++ ['"'])) = none := by
        have hquote : '"' = '\x7b' ∨ '"' = ',' → isLoneString (s ++ ['"']) = false := by
          rintro (h | h) <;> cases h
        rw [dropLoneKey?_append, dropLoneKey?_cons hquote, dropLoneKey?_spells hs]
        · rfl
        · intro x hx
          exact ⟨ne_of_isBlank (hb x hx) isBlank_brace, ne_of_isBlank (hb x hx) isBlank_comma⟩
      rw [List.nil_append, dropLoneKey?, hlone, hin]
      by_cases hbrace : c = '\x7b'
      · simp [hbrace]
      · by_cases hcomma : c = ','
        · simp [hcomma]
        · simp [hbrace, hcomma]
  | cons x a ih =>
      have hlone : isLoneString (a ++ c :: (b ++ '"' :: (s ++ ['"']))) = false := by
        rw [Bool.eq_false_iff]
        intro hlone
        have hsplit : a ++ c :: (b ++ '"' :: (s ++ ['"']))
            = (a ++ c :: b) ++ '"' :: (s ++ ['"']) := by simp
        rw [hsplit] at hlone
        -- `c` is no backslash, so the quote behind `b` is not escaped
        have hlast : ∀ d, (a ++ c :: b).getLast? = some d → d ≠ '\\' := by
          intro d hd
          rw [List.getLast?_append, List.getLast?_cons] at hd
          cases hb' : b.getLast? with
          | none =>
              rw [hb'] at hd
              exact Option.some.inj hd ▸ hslash
          | some e =>
              rw [hb'] at hd
              have he := ne_of_isBlank (hb e (List.mem_of_getLast? hb')) isBlank_backslash
              exact Option.some.inj hd ▸ he
        have hrest : ¬ AllBlank (s ++ ['"']) := by
          intro h
          have hquote := h '"' (List.mem_append_right _ List.mem_cons_self)
          rw [isBlank_quote] at hquote
          cases hquote
        -- a lone string would have only white space in front, but `c` is none
        have hblank := allBlank_of_isLoneString hlast hlone hrest
        exact ne_of_isBlank (hblank c (List.mem_append_right _ List.mem_cons_self)) hc rfl
      rw [List.cons_append, dropLoneKey?_cons fun _ => hlone, ih]
      by_cases hbrace : c = '\x7b'
      · simp [hbrace]
      · by_cases hcomma : c = ','
        · simp [hcomma]
        · simp [hbrace, hcomma]

/-! ## Unfinished literals -/

/-- The letters of literals. -/
def isLiteralChar (c : Char) : Bool := ['t', 'r', 'u', 'e', 'f', 'a', 'l', 's', 'n'].contains c

/-- A character of literals is not white space. -/
theorem isBlank_of_isLiteralChar {c : Char} (h : isLiteralChar c = true) : isBlank c = false := by
  have hall : ['t', 'r', 'u', 'e', 'f', 'a', 'l', 's', 'n'].all
      fun c => 33 ≤ c.toNat && c.toNat < 127 := rfl
  have hc := List.all_eq_true.1 hall c (List.contains_iff_mem.1 h)
  simp only [Bool.and_eq_true, decide_eq_true_eq] at hc
  obtain ⟨hlow, hhigh⟩ := hc
  exact isBlank_of_printed hlow hhigh

/-- Literals consist of characters of literals. -/
theorem mem_literals {literal : List Char} (h : literal ∈ literals) :
    ∀ c ∈ literal, isLiteralChar c = true := by
  have hall : literals.all fun literal => literal.all isLiteralChar := rfl
  exact List.all_eq_true.1 (List.all_eq_true.1 hall literal h)

/-- An unfinished literal starts a literal. -/
theorem exists_of_unfinished? {s literal : List Char} (h : unfinished? s = some literal) :
    ∃ t, literal = s ++ t ∧ literal ∈ literals := by
  rw [unfinished?] at h
  split at h
  · cases h
  · have hfound := List.find?_some h
    have hstart := (Bool.and_eq_true_iff.1 hfound).1
    rw [startsWith, Option.isSome_iff_exists] at hstart
    obtain ⟨t, ht⟩ := hstart
    exact ⟨t, after?_eq_some_iff.1 ht, List.mem_of_find?_eq_some h⟩

/-- What holds a character that is in no literal is no unfinished one. -/
theorem unfinished?_eq_none {s : List Char} {c : Char} (hc : isLiteralChar c = false)
    (hmem : c ∈ s) : unfinished? s = none := by
  rw [Option.eq_none_iff_forall_ne_some]
  intro literal h
  obtain ⟨t, rfl, hliteral⟩ := exists_of_unfinished? h
  have := mem_literals hliteral c (List.mem_append_left _ hmem)
  rw [hc] at this
  cases this

/-- Trimming the start leaves what is no white space. -/
theorem mem_trimStart {s : List Char} {c : Char} (hc : isBlank c = false) (hmem : c ∈ s) :
    c ∈ trimStart s := by
  obtain ⟨b, hb, hs⟩ := exists_append_trimStart s
  rw [hs] at hmem
  rcases List.mem_append.1 hmem with h | h
  · exact absurd rfl (ne_of_isBlank (hb c h) hc)
  · exact h

/-- A literal is completed at the first place that opens a value, or behind it. -/
theorem completeLiteral_cons {c : Char} {s : List Char}
    (h : opensValue c = true → unfinished? (trimStart s) = none) :
    completeLiteral (c :: s) = c :: completeLiteral s := by
  rw [completeLiteral]
  cases hc : opensValue c with
  | true => simp [h hc]
  | false => rfl

/-- In a text without a place that opens a value no literal is completed. -/
theorem completeLiteral_plain {s : List Char} (h : ∀ c ∈ s, opensValue c = false) :
    completeLiteral s = s := by
  induction s with
  | nil => rfl
  | cons c s ih =>
      obtain ⟨hc, hs⟩ := List.forall_mem_cons.1 h
      rw [completeLiteral_cons, ih hs]
      intro hopen
      rw [hc] at hopen
      cases hopen

/-- What opens a value is neither white space nor a character of literals. -/
theorem of_opensValue {c : Char} (hc : opensValue c = true) :
    isBlank c = false ∧ isLiteralChar c = false := by
  simp only [opensValue, Bool.or_eq_true, beq_iff_eq] at hc
  rcases hc with (rfl | rfl) | rfl
  all_goals exact ⟨isBlank_of_printed (by decide) (by decide), rfl⟩

/-- Behind the last bracket, colon or comma an unfinished literal is completed. -/
theorem completeLiteral_append {a b s : List Char} {c : Char} (hc : opensValue c = true)
    (hb : AllBlank b) (hs : ∀ x ∈ s, isLiteralChar x = true) (hne : s ≠ []) :
    completeLiteral (a ++ c :: (b ++ s)) = a ++ c :: (b ++ (unfinished? s).getD s) := by
  obtain ⟨hblank, hliteral⟩ := of_opensValue hc
  induction a with
  | nil =>
      obtain ⟨x, s, rfl⟩ := List.exists_cons_of_ne_nil hne
      have hx := isBlank_of_isLiteralChar (hs x List.mem_cons_self)
      have htrim : trimStart (b ++ x :: s) = x :: s := by
        rw [trimStart_append_blank hb, trimStart_cons hx]
      rw [List.nil_append, List.nil_append]
      cases hunfinished : unfinished? (x :: s) with
      | some literal =>
          have htake : (b ++ x :: s).takeWhile isBlank = b := by
            rw [List.takeWhile_append_of_pos hb, List.takeWhile_cons_of_neg, List.append_nil]
            rw [hx]
            exact Bool.false_ne_true
          rw [completeLiteral, if_pos hc, htrim, hunfinished, htake]
          rfl
      | none =>
          have hplain : ∀ y ∈ b ++ x :: s, opensValue y = false := by
            intro y hy
            rw [Bool.eq_false_iff]
            intro hopen
            obtain ⟨hyblank, hyliteral⟩ := of_opensValue hopen
            rcases List.mem_append.1 hy with hy | hy
            · exact ne_of_isBlank (hb y hy) hyblank rfl
            · have := hs y hy
              rw [hyliteral] at this
              cases this
          rw [completeLiteral_cons fun _ =>
            by rw [htrim, hunfinished], completeLiteral_plain hplain]
          rfl
  | cons x a ih =>
      -- in front of `c` nothing is unfinished, as the rest holds a character that is in no literal
      rw [List.cons_append, completeLiteral_cons, ih, List.cons_append]
      intro _
      have hmem : c ∈ a ++ c :: (b ++ s) := List.mem_append_right _ List.mem_cons_self
      exact unfinished?_eq_none hliteral (mem_trimStart hblank hmem)

/-- What holds a character that is in no literal, and behind it no place for a value, has no
unfinished literal. -/
theorem completeLiteral_of_mem {s t : List Char} {c : Char} (hc : isBlank c = false)
    (hliteral : isLiteralChar c = false) (hlast : opensValue c = true → t = [])
    (ht : ∀ x ∈ t, opensValue x = false) : completeLiteral (s ++ c :: t) = s ++ c :: t := by
  induction s with
  | nil =>
      rw [List.nil_append, completeLiteral_cons, completeLiteral_plain ht]
      intro hopen
      rw [hlast hopen]
      rfl
  | cons x s ih =>
      rw [List.cons_append, completeLiteral_cons, ih]
      intro _
      have hmem : c ∈ s ++ c :: t := List.mem_append_right _ List.mem_cons_self
      exact unfinished?_eq_none hliteral (mem_trimStart hc hmem)

end CodeAtlas.Reply
