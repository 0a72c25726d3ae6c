import CodeAtlas.Json.Number

/-!
# Reading numbers

A number is read up to the first character that cannot go on with it. So what was read is read again
in front of any text that does not start with such a character.
-/

namespace CodeAtlas.Json

/-- Whether a character may stand in a number. -/
def isNumberChar (c : Char) : Bool :=
  c.isDigit || c == '+' || c == '-' || c == '.' || c == 'e' || c == 'E'

/-- A text in front of which a number ends. -/
def Delimited (text : List Char) : Prop := ∀ c, text.head? = some c → isNumberChar c = false

theorem delimited_nil : Delimited [] := nofun

/-- A character delimits a number if it is none of numbers. -/
theorem delimited_cons {c : Char} {text : List Char} :
    Delimited (c :: text) ↔ isNumberChar c = false := by
  constructor
  · intro h
    exact h c rfl
  · rintro h _ ⟨⟩
    exact h

/-- What holds of the first character of a text, and of those that end numbers, holds when something
else comes behind its start. -/
theorem Delimited.head_append {P : Char → Prop} {s rest rest' : List Char}
    (h : ∀ c, (s ++ rest).head? = some c → P c) (hP : ∀ c, isNumberChar c = false → P c)
    (hrest' : Delimited rest') : ∀ c, (s ++ rest').head? = some c → P c := by
  cases s with
  | nil =>
      intro c hc
      exact hP c (hrest' c hc)
  | cons d s => exact h

/-- What is no character of numbers is different from every one. -/
theorem ne_of_isNumberChar {c d : Char} (hc : isNumberChar c = false) (hd : isNumberChar d = true) :
    c ≠ d := by
  rintro rfl
  rw [hc] at hd
  cases hd

/-- What a text does not start with is not its first character. -/
theorem head_ne {d : Char} {text : List Char} (h : ∀ t, text = d :: t → False) :
    ∀ c, text.head? = some c → c ≠ d := by
  rintro c hc rfl
  obtain ⟨t, rfl⟩ := List.head?_eq_some_iff.1 hc
  exact h t rfl

/-- A digit is a character of numbers. -/
theorem isNumberChar_of_isDigit {c : Char} (h : c.isDigit = true) : isNumberChar c = true := by
  simp [isNumberChar, h]

/-- What is no character of numbers is no digit. -/
theorem not_isDigit_of_not_isNumberChar {c : Char} (h : isNumberChar c = false) :
    ¬ c.isDigit = true := by
  intro hd
  rw [isNumberChar_of_isDigit hd] at h
  cases h

/-- A reader that reads characters of numbers, and the same ones whatever comes behind them, unless
that goes on with a number. -/
def Local {α : Type} (f : List Char → Option (α × List Char)) : Prop :=
  ∀ ⦃text a rest⦄, f text = some (a, rest) → ∃ s, text = s ++ rest
    ∧ (∀ c ∈ s, isNumberChar c = true)
    ∧ ∀ rest', Delimited rest' → f (s ++ rest') = some (a, rest')

/-- A reader that goes on behind a character like a local one. -/
theorem Local.behind {α : Type} {f g : List Char → Option (α × List Char)} (hg : Local g) {c : Char}
    (hc : isNumberChar c = true) (hfg : ∀ text, f (c :: text) = g text) {text rest : List Char}
    {a : α} (h : f (c :: text) = some (a, rest)) : ∃ s, c :: text = s ++ rest
      ∧ (∀ c ∈ s, isNumberChar c = true)
      ∧ ∀ rest', Delimited rest' → f (s ++ rest') = some (a, rest') := by
  rw [hfg] at h
  obtain ⟨s, rfl, hs, hlocal⟩ := hg h
  refine ⟨c :: s, rfl, List.forall_mem_cons.2 ⟨hc, hs⟩, ?_⟩
  intro rest' hrest'
  rw [List.cons_append, hfg]
  exact hlocal rest' hrest'

/-! ## Digits -/

/-- A text in front of which digits end. -/
def NoDigit (text : List Char) : Prop := ∀ c, text.head? = some c → ¬ c.isDigit = true

/-- A text does not start with a digit if its first character is none. -/
theorem noDigit_cons {c : Char} {text : List Char} :
    NoDigit (c :: text) ↔ ¬ c.isDigit = true := by
  constructor
  · intro h
    exact h c rfl
  · rintro h _ ⟨⟩
    exact h

/-- What delimits a number does not start with a digit. -/
theorem Delimited.noDigit {text : List Char} (h : Delimited text) : NoDigit text :=
  fun c hc => not_isDigit_of_not_isNumberChar (h c hc)

/-- Where no digit stands none is skipped. -/
theorem skipDigits_of_noDigit {rest : List Char} (h : NoDigit rest) (count : Nat) :
    skipDigits count rest = (count, rest) := by
  cases rest with
  | nil => rfl
  | cons c rest => rw [skipDigits, if_neg (noDigit_cons.1 h)]

/-- Where no digit stands none is added. -/
theorem addDigits_of_noDigit {rest : List Char} (h : NoDigit rest) (sum count : Nat) :
    addDigits sum count rest = (sum, count, rest) := by
  cases rest with
  | nil => rfl
  | cons c rest =>
      rw [addDigits, if_neg fun hand => noDigit_cons.1 h (Bool.and_eq_true_iff.1 hand).1]

/-- Digits are skipped up to a character that is none, whatever stands behind. -/
theorem skipDigits_local {count more : Nat} {text rest : List Char}
    (h : skipDigits count text = (more, rest)) : NoDigit rest ∧ ∃ s, text = s ++ rest
      ∧ (∀ c ∈ s, c.isDigit = true)
      ∧ ∀ rest', NoDigit rest' → skipDigits count (s ++ rest') = (more, rest') := by
  induction text generalizing count with
  | nil =>
      cases h
      exact ⟨nofun, [], rfl, nofun, fun rest' hrest' => skipDigits_of_noDigit hrest' _⟩
  | cons c text ih =>
      rw [skipDigits] at h
      by_cases hc : c.isDigit = true
      · rw [if_pos hc] at h
        obtain ⟨hstop, s, rfl, hs, hlocal⟩ := ih h
        refine ⟨hstop, c :: s, rfl, List.forall_mem_cons.2 ⟨hc, hs⟩, ?_⟩
        intro rest' hrest'
        rw [List.cons_append, skipDigits, if_pos hc, hlocal rest' hrest']
      · rw [if_neg hc] at h
        cases h
        exact ⟨noDigit_cons.2 hc, [], rfl, nofun,
          fun rest' hrest' => skipDigits_of_noDigit hrest' _⟩

/-- Digits that are added while they fit, and then passed over. -/
theorem addDigits_local {sum count sum' count' more : Nat} {text mid rest : List Char}
    (hadd : addDigits sum count text = (sum', count', mid))
    (hskip : skipDigits 0 mid = (more, rest)) : NoDigit rest ∧ ∃ s, text = s ++ rest
      ∧ (∀ c ∈ s, c.isDigit = true)
      ∧ ∀ rest', NoDigit rest' → ∃ mid', addDigits sum count (s ++ rest') = (sum', count', mid')
          ∧ skipDigits 0 mid' = (more, rest') := by
  induction text generalizing sum count with
  | nil =>
      cases hadd
      cases hskip
      exact ⟨nofun, [], rfl, nofun, fun rest' hrest' =>
        ⟨rest', addDigits_of_noDigit hrest' _ _, skipDigits_of_noDigit hrest' 0⟩⟩
  | cons c text ih =>
      rw [addDigits] at hadd
      split at hadd
      · next hc =>
        obtain ⟨hstop, s, rfl, hs, hlocal⟩ := ih hadd
        refine ⟨hstop, c :: s, rfl, ?_, ?_⟩
        · exact List.forall_mem_cons.2 ⟨(Bool.and_eq_true_iff.1 hc).1, hs⟩
        · intro rest' hrest'
          rw [List.cons_append, addDigits, if_pos hc]
          exact hlocal rest' hrest'
      · next hc =>
        -- the first digit that is not added is passed over like those behind it
        cases hadd
        obtain ⟨hstop, s, hs, hdigits, hlocal⟩ := skipDigits_local hskip
        refine ⟨hstop, s, hs, hdigits, ?_⟩
        intro rest' hrest'
        refine ⟨s ++ rest', ?_, hlocal rest' hrest'⟩
        cases s with
        | nil => exact addDigits_of_noDigit hrest' _ _
        | cons d s =>
            obtain ⟨rfl, rfl⟩ := List.cons.inj hs
            rw [List.cons_append, addDigits, if_neg hc]

/-! ## The parts of a number -/

/-- Digits in front of a text that ends them. -/
theorem takeWhile_isDigit_append {s rest : List Char} (hs : ∀ c ∈ s, c.isDigit = true)
    (h : NoDigit rest) : (s ++ rest).takeWhile Char.isDigit = s := by
  rw [List.takeWhile_append_of_pos hs]
  cases rest with
  | nil => rw [List.takeWhile_nil, List.append_nil]
  | cons c rest => rw [List.takeWhile_cons_of_neg (noDigit_cons.1 h), List.append_nil]

/-- A power is read up to what delimits it, whatever stands behind. -/
theorem readPower?_local (negative : Bool) : Local (readPower? negative) := by
  intro text e rest h
  obtain ⟨behind, htext⟩ : ∃ behind, text = text.takeWhile Char.isDigit ++ behind :=
    ⟨_, List.takeWhile_append_dropWhile.symm⟩
  have hs : ∀ c ∈ text.takeWhile Char.isDigit, c.isDigit = true :=
    List.all_eq_true.1 List.all_takeWhile
  revert h htext hs
  rw [readPower?]
  generalize text.takeWhile Char.isDigit = s
  intro h htext hs
  subst htext
  simp only [List.drop_left] at h
  split at h
  · cases h
  · next hne =>
    cases h
    refine ⟨s, rfl, fun c hc => isNumberChar_of_isDigit (hs c hc), ?_⟩
    intro rest' hrest'
    rw [readPower?, takeWhile_isDigit_append hs hrest'.noDigit, List.drop_left, if_neg hne]

/-- An exponent without a sign. -/
theorem readExponent?_plain {text : List Char}
    (h : ∀ c, text.head? = some c → c ≠ '+' ∧ c ≠ '-') :
    readExponent? text = readPower? false text := by
  unfold readExponent?
  split
  · exact absurd rfl (h _ rfl).1
  · exact absurd rfl (h _ rfl).2
  · rfl

/-- An exponent is read up to what delimits it, whatever stands behind. -/
theorem readExponent?_local : Local readExponent? := by
  intro text e rest h
  have hread := h
  unfold readExponent? at hread
  split at hread
  · exact (readPower?_local false).behind rfl (fun _ => rfl) h
  · exact (readPower?_local true).behind rfl (fun _ => rfl) h
  · next hplus hminus =>
    obtain ⟨s, rfl, hs, hlocal⟩ := readPower?_local false hread
    refine ⟨s, rfl, hs, ?_⟩
    intro rest' hrest'
    have hplain := hrest'.head_append (P := fun c => c ≠ '+' ∧ c ≠ '-')
      (fun c hc => ⟨head_ne hplus c hc, head_ne hminus c hc⟩)
      fun c hc => ⟨ne_of_isNumberChar hc rfl, ne_of_isNumberChar hc rfl⟩
    rw [readExponent?_plain hplain]
    exact hlocal rest' hrest'

/-- A number without exponent. -/
theorem readScaled?_plain {negative : Bool} {significand : Nat} {exponent : Int} {text : List Char}
    (h : ∀ c, text.head? = some c → c ≠ 'e' ∧ c ≠ 'E') :
    readScaled? negative significand exponent text
      = (floatNumber? negative significand exponent).map (·, text) := by
  unfold readScaled?
  split
  · exact absurd rfl (h _ rfl).1
  · exact absurd rfl (h _ rfl).2
  · rfl

/-- A number behind the letter of its exponent. -/
theorem exponent_local (negative : Bool) (significand : Nat) (exponent : Int) :
    Local fun text => readExponent? text >>= fun (e, rest) =>
      (floatNumber? negative significand (exponent + e)).map (·, rest) := by
  intro text n rest h
  obtain ⟨⟨e, behind⟩, he, h⟩ := Option.bind_eq_some_iff.1 h
  obtain ⟨m, hm, heq⟩ := Option.map_eq_some_iff.1 h
  cases heq
  obtain ⟨s, rfl, hs, hlocal⟩ := readExponent?_local he
  refine ⟨s, rfl, hs, ?_⟩
  intro rest' hrest'
  refine Option.bind_eq_some_iff.2 ⟨(e, rest'), hlocal rest' hrest', ?_⟩
  exact Option.map_eq_some_iff.2 ⟨n, hm, rfl⟩

/-- A scaled number is read up to what delimits it, whatever stands behind. -/
theorem readScaled?_local (negative : Bool) (significand : Nat) (exponent : Int) :
    Local (readScaled? negative significand exponent) := by
  intro text n rest h
  have hread := h
  unfold readScaled? at hread
  split at hread
  · exact (exponent_local negative significand exponent).behind rfl (fun _ => rfl) h
  · exact (exponent_local negative significand exponent).behind rfl (fun _ => rfl) h
  · next hsmall hlarge =>
    obtain ⟨m, hm, heq⟩ := Option.map_eq_some_iff.1 hread
    cases heq
    refine ⟨[], rfl, nofun, ?_⟩
    intro rest' hrest'
    rw [List.nil_append, readScaled?_plain fun c hc =>
      ⟨ne_of_isNumberChar (hrest' c hc) rfl, ne_of_isNumberChar (hrest' c hc) rfl⟩, hm]
    rfl

/-- A fraction is read up to what delimits it, whatever stands behind. -/
theorem readFraction?_local (negative : Bool) (significand : Nat) (exponent : Int) :
    Local (readFraction? negative significand exponent) := by
  intro text n rest h
  rw [readFraction?] at h
  cases hadd : addDigits significand 0 text with
  | mk sum p =>
      obtain ⟨count, mid⟩ := p
      cases hskip : skipDigits 0 mid with
      | mk more behind =>
          simp only [hadd, hskip] at h
          split at h
          · cases h
          · next hcount =>
            obtain ⟨hstop, s, rfl, hs, hlocal⟩ := addDigits_local hadd hskip
            obtain ⟨s', rfl, hs', hlocal'⟩ := readScaled?_local _ _ _ h
            refine ⟨s ++ s', (List.append_assoc ..).symm, ?_, ?_⟩
            · intro c hc
              rcases List.mem_append.1 hc with hc | hc
              · exact isNumberChar_of_isDigit (hs c hc)
              · exact hs' c hc
            · intro rest' hrest'
              obtain ⟨mid', hadd', hskip'⟩ := hlocal _
                (hrest'.head_append hstop fun _ => not_isDigit_of_not_isNumberChar)
              rw [List.append_assoc, readFraction?]
              simp only [hadd', hskip', if_neg hcount]
              exact hlocal' rest' hrest'

/-- A number without point and exponent. -/
theorem readTail?_plain {negative : Bool} {significand dropped : Nat} {text : List Char}
    (h : ∀ c, text.head? = some c → c ≠ '.' ∧ c ≠ 'e' ∧ c ≠ 'E') :
    readTail? negative significand dropped text
      = (if dropped = 0 then intNumber? negative significand
          else floatNumber? negative significand dropped).map (·, text) := by
  unfold readTail?
  split
  · exact absurd rfl (h _ rfl).1
  · exact absurd rfl (h _ rfl).2.1
  · exact absurd rfl (h _ rfl).2.2
  · split <;> rfl

/-- The tail of a number is read up to what delimits it, whatever stands behind. -/
theorem readTail?_local (negative : Bool) (significand dropped : Nat) :
    Local (readTail? negative significand dropped) := by
  intro text n rest h
  by_cases hplain : ∀ c, text.head? = some c → c ≠ '.' ∧ c ≠ 'e' ∧ c ≠ 'E'
  · rw [readTail?_plain hplain] at h
    obtain ⟨m, hm, heq⟩ := Option.map_eq_some_iff.1 h
    cases heq
    refine ⟨[], rfl, nofun, ?_⟩
    intro rest' hrest'
    rw [List.nil_append, readTail?_plain fun c hc => ⟨ne_of_isNumberChar (hrest' c hc) rfl,
      ne_of_isNumberChar (hrest' c hc) rfl, ne_of_isNumberChar (hrest' c hc) rfl⟩, hm]
    rfl
  · have hread := h
    unfold readTail? at hread
    split at hread
    · exact (readFraction?_local negative significand dropped).behind rfl (fun _ => rfl) h
    · exact (exponent_local negative significand dropped).behind rfl (fun _ => rfl) h
    · exact (exponent_local negative significand dropped).behind rfl (fun _ => rfl) h
    · next hpoint hsmall hlarge =>
      exact absurd (fun c hc => ⟨head_ne hpoint c hc, head_ne hsmall c hc, head_ne hlarge c hc⟩)
        hplain

/-- A number that starts with zero has no more digits in front of its point. -/
theorem readUnsigned?_zero {negative : Bool} {text : List Char} (h : NoDigit text) :
    readUnsigned? negative ('0' :: text) = readTail? negative 0 0 text := by
  cases text with
  | nil => rfl
  | cons c text =>
      have hc : ¬ c.isDigit = true := noDigit_cons.1 h
      simp [readUnsigned?, hc]

/-- A number that starts with a digit other than zero has the digits behind it, and then its
tail. -/
theorem readUnsigned?_digits {negative : Bool} {c : Char} {text mid rest : List Char}
    {sum count dropped : Nat} (hc : c.isDigit = true) (hzero : c ≠ '0')
    (hadd : addDigits 0 0 (c :: text) = (sum, count, mid))
    (hskip : skipDigits 0 mid = (dropped, rest)) :
    readUnsigned? negative (c :: text) = readTail? negative sum dropped rest := by
  unfold readUnsigned?
  split
  · next heq => exact absurd (List.cons.inj heq).1 hzero
  · next heq =>
    cases heq
    rw [if_pos hc]
    simp only [hadd, hskip]
  · next heq => exact nomatch heq

/-- A number without a sign is read up to what delimits it, whatever stands behind. -/
theorem readUnsigned?_local (negative : Bool) : Local (readUnsigned? negative) := by
  intro text n rest h
  unfold readUnsigned? at h
  split at h
  · -- a leading zero stands alone, a digit behind it is refused
    next t =>
    split at h
    · cases h
    · next hdigit =>
      have hstop : NoDigit t := by
        intro c hc hd
        rw [hc] at hdigit
        exact hdigit hd
      obtain ⟨s, rfl, hs, hlocal⟩ := readTail?_local negative 0 0 h
      refine ⟨'0' :: s, rfl, List.forall_mem_cons.2 ⟨rfl, hs⟩, ?_⟩
      intro rest' hrest'
      rw [List.cons_append, readUnsigned?_zero
        (hrest'.head_append hstop fun _ => not_isDigit_of_not_isNumberChar)]
      exact hlocal rest' hrest'
  · -- digits that fit are summed up, those behind are only counted
    next d t hzero =>
    split at h
    · next hd =>
      cases hadd : addDigits 0 0 (d :: t) with
      | mk sum p =>
          obtain ⟨count, mid⟩ := p
          cases hskip : skipDigits 0 mid with
          | mk dropped behind =>
              simp only [hadd, hskip] at h
              obtain ⟨hstop, s, heq, hs, hlocal⟩ := addDigits_local hadd hskip
              obtain ⟨s', rfl, hs', hlocal'⟩ := readTail?_local negative sum dropped h
              refine ⟨s ++ s', heq.trans (List.append_assoc ..).symm, ?_, ?_⟩
              · intro c hc
                rcases List.mem_append.1 hc with hc | hc
                · exact isNumberChar_of_isDigit (hs c hc)
                · exact hs' c hc
              · intro rest' hrest'
                obtain ⟨mid', hadd', hskip'⟩ := hlocal _
                  (hrest'.head_append hstop fun _ => not_isDigit_of_not_isNumberChar)
                -- the text begins with a digit, so the digits read are not none
                cases s with
                | nil => exact absurd hd (hstop d (heq ▸ rfl))
                | cons d' s =>
                    obtain ⟨rfl, -⟩ := List.cons.inj heq
                    rw [List.append_assoc, List.cons_append]
                    refine (readUnsigned?_digits hd hzero hadd' hskip').trans ?_
                    exact hlocal' rest' hrest'
    · cases h
  · cases h

/-- A number that starts without a sign is read as one. -/
theorem readNumber?_plain {text : List Char} (h : ∀ c, text.head? = some c → c ≠ '-') :
    readNumber? text = readUnsigned? false text := by
  unfold readNumber?
  split
  · exact absurd rfl (h _ rfl)
  · rfl

/-- A number is read up to what delimits it, whatever stands behind. -/
theorem readNumber?_local : Local readNumber? := by
  intro text n rest h
  have hread := h
  unfold readNumber? at hread
  split at hread
  · exact (readUnsigned?_local true).behind rfl (fun _ => rfl) h
  · next hminus =>
    obtain ⟨s, rfl, hs, hlocal⟩ := readUnsigned?_local false hread
    refine ⟨s, rfl, hs, ?_⟩
    intro rest' hrest'
    rw [readNumber?_plain
      (hrest'.head_append (head_ne hminus) fun c hc => ne_of_isNumberChar hc rfl)]
    exact hlocal rest' hrest'

end CodeAtlas.Json
