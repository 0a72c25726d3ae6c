import CodeAtlas.Proofs.Unicode.Words

/-!
# Small letters

White space and the dot above are no letters or numbers in edition 17. The small form of a character
consists of characters that are their own small forms, and of a letter or number it consists of
these, but for the capital I with a dot, the small form of which has the dot above in it.
-/

namespace CodeAtlas.Unicode

open CharSet

/-- The capital letter I with a dot above. -/
def dottedI : Char := Char.ofNat 0x130

/-- The dot above as a mark of its own. -/
def dotAbove : Char := Char.ofNat 0x307

/-! ## Masks of ranges

A table is compared with others by one operation on numbers, the binary digits of which are its
members.
-/

namespace CharSet

/-- The number with the digits that lie in ranges. -/
def digitsOf (ranges : List (Nat × Nat)) : Nat :=
  ranges.foldr (fun r m => ((1 <<< (r.2 + 1 - r.1)) - 1) <<< r.1 ||| m) 0

/-- The bits of the number that stands for ranges are set for the numbers in them. -/
theorem testBit_digitsOf (ranges : List (Nat × Nat)) (n : Nat) :
    (digitsOf ranges).testBit n = true ↔ Within ranges n := by
  induction ranges with
  | nil => simp [digitsOf]
  | cons r ranges ih =>
      rw [digitsOf, List.foldr_cons, ← digitsOf, Nat.testBit_or, Bool.or_eq_true, ih, within_cons,
        Nat.testBit_shiftLeft, Nat.one_shiftLeft, Nat.testBit_two_pow_sub_one, Bool.and_eq_true,
          decide_eq_true_eq, decide_eq_true_eq]
      refine or_congr_left ?_
      omega

/-- Whether no number lies in ranges of both. -/
def areApart (a b : List (Nat × Nat)) : Bool := digitsOf a &&& digitsOf b == 0

/-- Ranges that are found to be apart have no number in common. -/
theorem not_within_of_areApart {a b : List (Nat × Nat)} (h : areApart a b = true) {n : Nat}
    (ha : Within a n) :
    ¬ Within b n := by
  intro hb
  have hdigit := congrArg (·.testBit n) (beq_iff_eq.1 h)
  simp only [Nat.testBit_and, (testBit_digitsOf a n).2 ha, (testBit_digitsOf b n).2 hb,
    Nat.zero_testBit, Bool.and_true, Bool.true_eq_false] at hdigit

/-- Whether what lies in the first ranges lies in the second ones. -/
def arePart (a b : List (Nat × Nat)) : Bool := digitsOf a &&& digitsOf b == digitsOf a

/-- Ranges that are found to be a part of others have their numbers in them. -/
theorem within_of_arePart {a b : List (Nat × Nat)} (h : arePart a b = true) {n : Nat}
    (ha : Within a n) : Within b n := by
  have hdigit := congrArg (·.testBit n) (beq_iff_eq.1 h)
  simp only [Nat.testBit_and, (testBit_digitsOf a n).2 ha, Bool.true_and] at hdigit
  exact (testBit_digitsOf b n).1 hdigit

end CharSet

/-! ## Letters and numbers -/

/-- The categories of letters and numbers. -/
def alphanumericCategories : List Category := letterCategories ++ [.decimalNumber, .otherNumber]

/-- White space, and the dot above. -/
def foreignRanges : List (Nat × Nat) := (dotAbove.toNat, dotAbove.toNat) :: blankRanges

/-- Whether a table stands in order and has no member in these ranges. -/
def isOwnTable (ranges : List (Nat × Nat)) : Bool :=
  startsFrom 0 ranges && areApart ranges foreignRanges

/-- A table that has been checked has ascending starts and no foreign number. -/
theorem of_isOwnTable {ranges : List (Nat × Nat)} (h : isOwnTable ranges = true) :
    Starts ranges ∧ ∀ n, Within ranges n → ¬ Within foreignRanges n := by
  obtain ⟨hstarts, hapart⟩ := Bool.and_eq_true_iff.1 h
  exact ⟨(starts_of_startsFrom hstarts).1, fun n => not_within_of_areApart hapart⟩

/-- Whether the tables of a category, and what edition 17 moves and adds, are such tables. -/
def areOwnTables (chars moved added : List Char) : Bool :=
  isOwnTable (rangesOf chars) && isOwnTable (rangesOf moved) && isOwnTable (rangesOf added)

/-- The members of a category by its tables. -/
theorem current_of_tables {c : Category} {chars moved added : List Char}
    (h : c.text = String.ofList chars) (hmoved : c.movedText = String.ofList moved)
    (hadded : c.addedText = String.ofList added) (hread : areOwnTables chars moved added = true) :
    Regular c.current ∧ ∀ n ≤ topCodePoint, c.current.holds n = true ↔
      (Within (rangesOf chars) n ∧ ¬ Within (rangesOf moved) n) ∨ Within (rangesOf added) n := by
  rw [areOwnTables, Bool.and_eq_true, Bool.and_eq_true] at hread
  obtain ⟨⟨hread, hread'⟩, hread''⟩ := hread
  obtain ⟨hregular, hholds⟩ := regular_ofText h (of_isOwnTable hread).1
  obtain ⟨hcurrent, hcurrent'⟩ :=
    regular_current hregular hmoved hadded (of_isOwnTable hread').1 (of_isOwnTable hread'').1
  exact ⟨hcurrent, fun n hn => (hcurrent' n hn).trans (or_congr_left (and_congr_left' (hholds n)))⟩

/-- A category with such tables is apart from white space and the dot above. -/
theorem current_of_areOwnTables {c : Category} {chars moved added : List Char}
    (h : c.text = String.ofList chars) (hmoved : c.movedText = String.ofList moved)
    (hadded : c.addedText = String.ofList added) (hread : areOwnTables chars moved added = true) :
    Regular c.current ∧ ∀ n ≤ topCodePoint, c.current.holds n = true →
      ¬ Within foreignRanges n := by
  obtain ⟨hregular, hholds⟩ := current_of_tables h hmoved hadded hread
  rw [areOwnTables, Bool.and_eq_true, Bool.and_eq_true] at hread
  refine ⟨hregular, fun n hn hmember => ?_⟩
  rcases (hholds n hn).1 hmember with ⟨hmember, -⟩ | hmember
  · exact (of_isOwnTable hread.1.1).2 n hmember
  · exact (of_isOwnTable hread.2).2 n hmember

set_option maxRecDepth 100000 in
/-- The categories of letters and numbers are regular and hold no foreign number. -/
theorem regular_alphanumericCategories : ∀ c ∈ alphanumericCategories, Regular c.current ∧
    ∀ n ≤ topCodePoint, c.current.holds n = true → ¬ Within foreignRanges n := by
  simp only [alphanumericCategories, letterCategories, List.cons_append, List.nil_append,
    List.forall_mem_cons]
  refine ⟨?_, ?_, ?_, ?_, ?_, ?_, ?_, ?_, List.forall_mem_nil _⟩ <;>
    exact current_of_areOwnTables rfl rfl rfl (by decide +kernel)

/-- The small roman numerals, which are letter numbers. -/
def smallRomans : List (Nat × Nat) := [(0x2170, 0x217F)]

/-- The small letters in circles, which count as letters. -/
def smallCircled : List (Nat × Nat) := [(0x24D0, 0x24E9)]

/-- What edition 17 adds to a listed property joins its members, and with such tables the property
is apart from white space and the dot above. -/
theorem currentTrait_of_tables {t : Trait} {chars added : List Char}
    (h : t.text = String.ofList chars) (hadded : t.addedText = String.ofList added)
    {ranges : List (Nat × Nat)}
    (hread : (isOwnTable (rangesOf chars) && isOwnTable (rangesOf added)
      && arePart ranges (rangesOf chars)) = true) :
    Regular t.current ∧ (∀ n, t.current.holds n = true → ¬ Within foreignRanges n)
      ∧ ∀ n, Within ranges n → t.current.holds n = true := by
  rw [Bool.and_eq_true, Bool.and_eq_true] at hread
  obtain ⟨⟨hread, hread'⟩, hpart⟩ := hread
  obtain ⟨hstarts, hown⟩ := of_isOwnTable hread
  obtain ⟨hstarts', hown'⟩ := of_isOwnTable hread'
  obtain ⟨hregular, hholds⟩ := regular_ofText h hstarts
  obtain ⟨hregular', hholds'⟩ := regular_ofText hadded hstarts'
  obtain ⟨hunion, hunion'⟩ := regular_union hregular hregular'
  have hcurrent : ∀ n, t.current.holds n = true
      ↔ Within (rangesOf chars) n ∨ Within (rangesOf added) n := fun n => by
    rw [Trait.current, hunion', Bool.or_eq_true, hholds, hholds']
  exact ⟨hunion, fun n hn => ((hcurrent n).1 hn).elim (hown n) (hown' n),
    fun n hn => (hcurrent n).2 (.inl (within_of_arePart hpart hn))⟩

set_option maxRecDepth 100000 in
/-- The other alphabetic characters are a regular set without foreign numbers, and the small circled
letters are among them. -/
theorem regular_otherAlphabetic : Regular (Trait.current .otherAlphabetic)
    ∧ (∀ n, (Trait.current .otherAlphabetic).holds n = true → ¬ Within foreignRanges n)
      ∧ ∀ n, Within smallCircled n → (Trait.current .otherAlphabetic).holds n = true :=
  currentTrait_of_tables rfl rfl (by decide +kernel)

/-- The letters and numbers are the members of the categories, and what counts as a letter. -/
theorem holds_currentAlphanumeric (n : Nat) : currentAlphanumeric.holds n = true ↔
    (∃ c ∈ alphanumericCategories, c.current.holds n = true)
      ∨ (Trait.current .otherAlphabetic).holds n = true := by
  have hregular : ∀ cs ⊆ alphanumericCategories, ∀ s ∈ cs.map Category.current, Regular s := by
    intro cs hcs s hs
    obtain ⟨c, hc, rfl⟩ := List.mem_map.1 hs
    exact (regular_alphanumericCategories c (hcs hc)).1
  have hunions : ∀ cs ⊆ alphanumericCategories, Regular (ofCurrentCategories cs) ∧
      ((ofCurrentCategories cs).holds n = true ↔ ∃ c ∈ cs, c.current.holds n = true) := by
    intro cs hcs
    obtain ⟨hunions, hholds⟩ := regular_unions (hregular cs hcs)
    exact ⟨hunions, (hholds n).trans (by simp)⟩
  obtain ⟨hletters, hletters'⟩ := hunions letterCategories (List.subset_append_left _ _)
  obtain ⟨hnumbers, hnumbers'⟩ :=
    hunions [.decimalNumber, .otherNumber] (List.subset_append_right _ _)
  obtain ⟨halphabetic, halphabetic'⟩ := regular_union hletters regular_otherAlphabetic.1
  have hall := (regular_union halphabetic hnumbers).2 n
  rw [halphabetic', Bool.eq_iff_iff, Bool.or_eq_true, Bool.or_eq_true, hletters', hnumbers'] at hall
  refine hall.trans ?_
  simp only [alphanumericCategories, List.mem_append, or_and_right, exists_or]
  exact or_right_comm

/-- A property of ASCII characters that holds of all code points below 128. -/
theorem forall_ascii {p : Char → Prop} (h : ∀ n < 128, p (Char.ofNat n)) {c : Char}
    (hc : c.toNat < 128) : p c := by
  have hchar := h c.toNat hc
  rwa [Char.ofNat_toNat] at hchar

/-- A foreign character is neither letter nor number. -/
theorem not_isAlphanumeric_of_within {c : Char} (h : Within foreignRanges c.toNat) :
    isAlphanumeric c = false := by
  rw [isAlphanumeric]
  split
  · next hc =>
    have hascii : ∀ n < 128, Within foreignRanges (Char.ofNat n).toNat →
        (Char.ofNat n).isAlphanum = false := by
      decide
    exact forall_ascii (p := fun c => Within foreignRanges c.toNat →
      c.isAlphanum = false) hascii hc h
  · rw [contains, ← Bool.not_eq_true, holds_currentAlphanumeric]
    rintro (⟨category, hcategory, hmember⟩ | hmember)
    · exact (regular_alphanumericCategories category hcategory).2 _
        (toNat_le_topCodePoint c) hmember h
    · exact regular_otherAlphabetic.2.1 _ hmember h

/-- No letter or number is white space. -/
theorem not_isAlphanumeric_of_isBlank {c : Char} (h : isBlank c = true) :
    isAlphanumeric c = false := by
  obtain ⟨r, hr, hin⟩ := (regular_blanks.2 _).1 h
  exact not_isAlphanumeric_of_within ⟨r, List.mem_cons_of_mem _ hr, hin⟩

/-- The dot above is neither letter nor number. -/
theorem not_isAlphanumeric_dotAbove : isAlphanumeric dotAbove = false :=
  not_isAlphanumeric_of_within ⟨_, List.mem_cons_self, Nat.le_refl _, Nat.le_refl _⟩

/-! ## Small forms -/

namespace CaseRun

/-- A run of cases maps a number within it at its steps to the number at the same distance from its
target. -/
theorem map?_eq_some_iff {r : CaseRun} {n m : Nat} : r.map? n = some m ↔
    r.first ≤ n ∧ n ≤ r.last ∧ (n - r.first) % r.step = 0 ∧ m = r.target + (n - r.first) := by
  simp only [map?, Bool.and_eq_true, decide_eq_true_eq, beq_iff_eq, Option.ite_none_right_eq_some,
    Option.some.injEq, and_assoc, eq_comm (a := m)]

/-- A number with its small form is one of the pairs of a run. -/
theorem mem_pairs_of_map? {r : CaseRun} {n m : Nat} (h : r.map? n = some m) : (n, m) ∈ r.pairs := by
  obtain ⟨hfirst, hlast, hstep, rfl⟩ := map?_eq_some_iff.1 h
  have hsteps : (n - r.first) / r.step * r.step = n - r.first :=
    Nat.div_mul_cancel (Nat.dvd_of_mod_eq_zero hstep)
  refine List.mem_map.2 ⟨(n - r.first) / r.step, List.mem_range.2 (Nat.lt_succ_of_le ?_), ?_⟩
  · exact Nat.div_le_div_right (Nat.sub_le_sub_right hlast r.first)
  · rw [hsteps, Nat.add_sub_cancel' hfirst]

end CaseRun

/-- The code points with a small form of one other character, each as a range. -/
def capitals : List (Nat × Nat) := lowercaseRuns.toList.flatMap fun r =>
    r.pairs.map fun p => (p.1, p.1)

/-- Their small forms. -/
def smallForms : List (Nat × Nat) := lowercaseRuns.toList.flatMap fun r =>
    r.pairs.map fun p => (p.2, p.2)

/-- A number with a small form is one of capitals, and the form is one of small forms. -/
theorem within_of_lowercaseRuns {n m : Nat} (h : lowercaseRuns.findSome? (·.map? n) = some m) :
    Within capitals n ∧ Within smallForms m := by
  obtain ⟨r, hr, hmap⟩ := Array.exists_of_findSome?_eq_some h
  have hpair := CaseRun.mem_pairs_of_map? hmap
  exact ⟨⟨(n, n), List.mem_flatMap.2 ⟨r, hr.val, List.mem_map.2 ⟨_, hpair, rfl⟩⟩, Nat.le_refl _,
    Nat.le_refl _⟩,
      ⟨(m, m), List.mem_flatMap.2 ⟨r, hr.val, List.mem_map.2 ⟨_, hpair, rfl⟩⟩, Nat.le_refl _,
      Nat.le_refl _⟩⟩

/-- What lies in the tables of a category is in the category. -/
theorem current_of_arePart (c : Category) (ranges others : List (Nat × Nat))
    {chars moved added : List Char} (h : c.text = String.ofList chars)
    (hmoved : c.movedText = String.ofList moved) (hadded : c.addedText = String.ofList added)
    (hread : (areOwnTables chars moved added && areApart ranges (rangesOf moved)
      && arePart ranges (rangesOf chars ++ (rangesOf added ++ others))) = true) :
    ∀ n ≤ topCodePoint, Within ranges n → c.current.holds n = true ∨ Within others n := by
  rw [Bool.and_eq_true, Bool.and_eq_true] at hread
  obtain ⟨⟨htables, hapart⟩, hpart⟩ := hread
  intro n hn hin
  have hholds := (current_of_tables h hmoved hadded htables).2 n hn
  rcases within_append.1 (within_of_arePart hpart hin) with hmember | hrest
  · exact .inl (hholds.2 (.inl ⟨hmember, not_within_of_areApart hapart hin⟩))
  · exact (within_append.1 hrest).imp_left fun hmember => hholds.2 (.inr hmember)

/-- The code points of characters. -/
def charRanges : List (Nat × Nat) := [(0, 0xD7FF), (0xE000, topCodePoint)]

set_option maxRecDepth 100000 in
/-- Small forms are letters or numbers. -/
theorem holds_smallForms {n : Nat} (h : Within smallForms n) (hn : n ≤ topCodePoint) :
    currentAlphanumeric.holds n = true := by
  have hletters := current_of_arePart .lowercaseLetter smallForms (smallRomans ++ smallCircled)
    rfl rfl rfl (by decide +kernel)
  have hromans := current_of_arePart .letterNumber smallRomans [] rfl rfl rfl (by decide +kernel)
  rw [holds_currentAlphanumeric]
  rcases hletters n hn h with hletter | hother
  · exact .inl ⟨_, by decide, hletter⟩
  · rcases within_append.1 hother with hroman | hcircled
    · exact .inl ⟨_, by decide, (hromans n hn hroman).resolve_right (not_within_nil n)⟩
    · exact .inr (regular_otherAlphabetic.2.2 n hcircled)

/-- What is no small form: ASCII characters but small letters, the capital I with a dot, and
capitals. -/
def bigRanges : List (Nat × Nat) :=
  (0, 96) :: (123, 127) :: (dottedI.toNat, dottedI.toNat) :: capitals

/-- A small form is a character and has no other small form. -/
theorem smallForms_apart {n : Nat} (h : Within smallForms n) :
    Within charRanges n ∧ ¬ Within bigRanges n :=
  ⟨within_of_arePart (by decide +kernel) h, not_within_of_areApart (by decide +kernel) h⟩

/-- A number of characters is that of its character. -/
theorem toNat_ofNat_of_within {n : Nat} (h : Within charRanges n) : (Char.ofNat n).toNat = n := by
  have hvalid : n.isValidChar := by
    simp only [charRanges, within_cons, not_within_nil, or_false] at h
    rcases h with h | h
    · exact .inl (by omega)
    · exact .inr ⟨by omega, Nat.lt_succ_of_le h.2⟩
  rw [Char.ofNat, dif_pos hvalid]
  rfl

/-- A character has a small form. -/
theorem lowerChars_ne_nil (c : Char) : lowerChars c ≠ [] := by
  rw [lowerChars]
  split
  · exact List.cons_ne_nil _ _
  · split
    · exact List.cons_ne_nil _ _
    · split
      · exact List.cons_ne_nil _ _
      · exact List.cons_ne_nil _ _

/-- How the characters of a small form come about. -/
theorem mem_lowerChars_cases {c d : Char} (h : d ∈ lowerChars c) :
    (c.toNat < 128 ∧ d = c.toLower) ∨ (c = dottedI ∧ (d = 'i' ∨ d = dotAbove))
      ∨ Within smallForms d.toNat
      ∨ (c ≠ dottedI ∧ d = c ∧ lowerChars c = [c]) := by
  by_cases hascii : c.toNat < 128
  · rw [lowerChars, if_pos hascii, List.mem_singleton] at h
    exact .inl ⟨hascii, h⟩
  by_cases hdotted : c.toNat = 0x130
  · rw [lowerChars, if_neg hascii, if_pos (beq_iff_eq.2 hdotted), List.mem_cons,
      List.mem_singleton] at h
    exact .inr (.inl ⟨Char.toNat_inj.1 hdotted, h⟩)
  cases hfind : lowercaseRuns.findSome? (·.map? c.toNat) with
  | some m =>
      rw [lowerChars, if_neg hascii, if_neg (by simpa using hdotted), hfind,
        List.mem_singleton] at h
      have hsmall := (within_of_lowercaseRuns hfind).2
      rw [h, toNat_ofNat_of_within (smallForms_apart hsmall).1]
      exact .inr (.inr (.inl hsmall))
  | none =>
      have hself : lowerChars c = [c] := by
        rw [lowerChars, if_neg hascii, if_neg (by simpa using hdotted), hfind]
      rw [hself, List.mem_singleton] at h
      exact .inr (.inr (.inr ⟨fun hc => hdotted (congrArg Char.toNat hc), h, hself⟩))

/-- The small form of another character is its own small form. -/
theorem lowerChars_of_smallForm {d : Char} (h : Within smallForms d.toNat) :
    lowerChars d = [d] := by
  have hapart := (smallForms_apart h).2
  simp only [bigRanges, within_cons, not_or] at hapart
  obtain ⟨hfront, -, hdotted, hcapital⟩ := hapart
  rw [lowerChars]
  split
  · next hascii =>
    have hlower : ∀ n < 128, 96 < n → (Char.ofNat n).toLower = Char.ofNat n := by decide
    have hd := hlower d.toNat hascii (by omega)
    rw [Char.ofNat_toNat] at hd
    rw [hd]
  · split
    · next hd => exact absurd ⟨Nat.le_of_eq (beq_iff_eq.1 hd).symm,
        Nat.le_of_eq (beq_iff_eq.1 hd)⟩ hdotted
    · split
      · next m hm => exact absurd (within_of_lowercaseRuns hm).1 hcapital
      · rfl

/-- The characters of a small form are their own small forms. -/
theorem lowerChars_of_mem {c d : Char} (h : d ∈ lowerChars c) : lowerChars d = [d] := by
  rcases mem_lowerChars_cases h with ⟨hascii, rfl⟩ | ⟨-, rfl | rfl⟩ | hsmall | ⟨-, rfl, hself⟩
  · have hlower : ∀ n < 128, lowerChars (Char.ofNat n).toLower = [(Char.ofNat n).toLower] := by
      decide
    exact forall_ascii (p := fun c => lowerChars c.toLower = [c.toLower]) hlower hascii
  · rfl
  · decide +kernel
  · exact lowerChars_of_smallForm hsmall
  · exact hself

/-- But for the capital I with a dot the small form of a letter or number consists of such. -/
theorem isAlphanumeric_of_mem_lowerChars {c d : Char} (hc : c ≠ dottedI)
    (halphanumeric : isAlphanumeric c = true) (h : d ∈ lowerChars c) : isAlphanumeric d = true := by
  rcases mem_lowerChars_cases h with ⟨hascii, rfl⟩ | ⟨hdotted, -⟩ | hsmall | ⟨-, rfl, -⟩
  · have hletters : ∀ n < 128, isAlphanumeric (Char.ofNat n) = true →
        isAlphanumeric (Char.ofNat n).toLower = true := by
      decide
    exact forall_ascii (p := fun c => isAlphanumeric c = true → isAlphanumeric c.toLower = true)
      hletters hascii
      halphanumeric
  · exact absurd hdotted hc
  · rw [isAlphanumeric]
    split
    · next hascii =>
      have hletters : ∀ n < 128, 96 < n → n < 123 → (Char.ofNat n).isAlphanum = true := by decide
      have hapart := (smallForms_apart hsmall).2
      simp only [bigRanges, within_cons, not_or] at hapart
      have hd := hletters d.toNat hascii (by omega) (by omega)
      rwa [Char.ofNat_toNat] at hd
    · exact holds_smallForms hsmall (toNat_le_topCodePoint d)
  · exact halphanumeric

/-- A character in front of the small letters is in the small form of no other. -/
theorem eq_of_mem_lowerChars {c d : Char} (hd : d.toNat < 65) (h : d ∈ lowerChars c) : c = d := by
  rcases mem_lowerChars_cases h with ⟨hascii, rfl⟩ | ⟨-, rfl | rfl⟩ | hsmall | ⟨-, rfl, -⟩
  · have hlower : ∀ n < 128, (Char.ofNat n).toLower.toNat < 65 →
        Char.ofNat n = (Char.ofNat n).toLower := by decide
    exact forall_ascii (p := fun c => c.toLower.toNat < 65 → c = c.toLower) hlower hascii hd
  · exact absurd hd (by decide)
  · exact absurd hd (by decide)
  · exact absurd ⟨(0, 96), List.mem_cons_self, Nat.zero_le _, by omega⟩ (smallForms_apart hsmall).2
  · rfl

/-- Only a colon has a colon in its small form. -/
theorem colon_not_mem_lowerChars {c : Char} (hc : c ≠ ':') : ':' ∉ lowerChars c :=
  fun h => hc (eq_of_mem_lowerChars (by decide) h)

/-! ## The capital I with a dot -/

set_option maxRecDepth 100000 in
/-- The capital with a dot is a letter. -/
theorem isAlphanumeric_dottedI : isAlphanumeric dottedI = true := by
  have hcapital := current_of_arePart .uppercaseLetter [(dottedI.toNat, dottedI.toNat)] []
    rfl rfl rfl (by decide +kernel)
  have hmember := (hcapital dottedI.toNat (toNat_le_topCodePoint dottedI)
    ⟨_, List.mem_cons_self, Nat.le_refl _, Nat.le_refl _⟩).resolve_right (not_within_nil _)
  exact (holds_currentAlphanumeric _).2 (.inl ⟨_, by decide, hmember⟩)

/-- Its small form has a character that is no letter or number. -/
theorem lowerChars_dottedI : lowerChars dottedI = ['i', dotAbove] := rfl

end CodeAtlas.Unicode
