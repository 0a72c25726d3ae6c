import CodeAtlas.Proofs.Text.Trim
import CodeAtlas.Proofs.Unicode.CharSet
import Mathlib.Data.List.Forall2

/-!
# Word characters

What the tables of the character database say about word characters: none of them is white space or
an ASCII character but a letter, a digit or the underscore, and their set takes no more runs of
bytes than its tables. ASCII letters are letters.
-/

namespace CodeAtlas.Unicode

namespace CharSet

/-! ## Tables -/

/-- The ranges that a table lists, in its order. -/
def rangesOf (chars : List Char) : List (Nat × Nat) :=
  (chars.foldl TableReading.step {}).close.ranges.reverse

/-- A table of ascending ranges is read as its characters tell. -/
theorem ofText_eq {table : String} {chars : List Char} (h : table = String.ofList chars) :
    ofText table = ofAscending (rangesOf chars) := by
  rw [ofText, String.foldl_eq_foldl_toList, h, String.toList_ofList]
  rfl

/-- Whether ranges that are not empty stand in the order of their starts, from `start` on. -/
def startsFrom (start : Nat) : List (Nat × Nat) → Bool
  | [] => true
  | r :: ranges => start ≤ r.1 && r.1 ≤ r.2 && startsFrom r.1 ranges

/-- The check of starts says that they ascend and where they begin. -/
theorem starts_of_startsFrom {start : Nat} {ranges : List (Nat × Nat)}
    (h : startsFrom start ranges = true) :
    Starts ranges ∧ ∀ r ∈ ranges, start ≤ r.1 := by
  induction ranges generalizing start with
  | nil => exact ⟨⟨nofun, .nil⟩, nofun⟩
  | cons r ranges ih =>
      rw [startsFrom, Bool.and_eq_true, Bool.and_eq_true, decide_eq_true_eq, decide_eq_true_eq] at h
      obtain ⟨⟨hstart, hr⟩, hrest⟩ := h
      obtain ⟨⟨hvalid, hsorted⟩, hle⟩ := ih hrest
      refine ⟨⟨List.forall_mem_cons.2 ⟨hr, hvalid⟩, List.pairwise_cons.2 ⟨hle, hsorted⟩⟩, ?_⟩
      exact List.forall_mem_cons.2 ⟨hstart, fun s hs => Nat.le_trans hstart (hle s hs)⟩

/-- A set read from a table of ascending starts is regular and holds the numbers of the table. -/
theorem regular_ofText {table : String} {chars : List Char} (h : table = String.ofList chars)
    (hstarts : Starts (rangesOf chars)) :
    Regular (ofText table) ∧ ∀ n, (ofText table).holds n = true ↔ Within (rangesOf chars) n := by
  rw [ofText_eq h]
  exact regular_ofAscending hstarts

/-! ## Loads -/

/-- One, and more for a range that starts a block of 64 or of 4096 code points, or leaves one. -/
def rangeLoad (r : Nat × Nat) : Nat :=
  1 + (if r.1 / 64 = r.2 / 64 ∧ r.1 % 64 ≠ 0 then 0 else 7)
    + if r.1 / 4096 = r.2 / 4096 ∧ r.1 % 4096 ≠ 0 then 0 else 22

/-- The loads of ranges together. -/
def loadOf (ranges : List (Nat × Nat)) : Nat := ranges.foldr (fun r n => rangeLoad r + n) 0

/-- The load of the ranges of a set. -/
def load (s : CharSet) : Nat := loadOf s.ranges.toList

/-- The load of one range is bounded. -/
theorem rangeLoad_le (r : Nat × Nat) : rangeLoad r ≤ 30 := by
  rw [rangeLoad]
  split <;> split <;> omega

@[simp] theorem loadOf_nil : loadOf [] = 0 := rfl

/-- The load of ranges is that of the first one and that of the others. -/
theorem loadOf_cons (r : Nat × Nat) (ranges : List (Nat × Nat)) :
    loadOf (r :: ranges) = rangeLoad r + loadOf ranges := rfl

/-- The loads of two lists of ranges add up. -/
theorem loadOf_append (a b : List (Nat × Nat)) : loadOf (a ++ b) = loadOf a + loadOf b := by
  induction a with
  | nil => rw [List.nil_append, loadOf_nil, Nat.zero_add]
  | cons r a ih => rw [List.cons_append, loadOf_cons, loadOf_cons, ih, Nat.add_assoc]

/-- The load of ranges does not depend on their order. -/
theorem loadOf_perm {a b : List (Nat × Nat)} (h : a.Perm b) : loadOf a = loadOf b := by
  induction h with
  | nil => rfl
  | cons r _ ih => rw [loadOf_cons, loadOf_cons, ih]
  | swap r q l => rw [loadOf_cons, loadOf_cons, loadOf_cons, loadOf_cons, Nat.add_left_comm]
  | trans _ _ ih ih' => exact ih.trans ih'

/-- Ranges that meet have no larger load as one range: a block that only this one leaves is left by
the second range, or starts with it. -/
theorem rangeLoad_join {lo hi : Nat} {r : Nat × Nat} (h : r.1 ≤ hi + 1) :
    rangeLoad (lo, max hi r.2) ≤ rangeLoad (lo, hi) + rangeLoad r := by
  have hblock : ∀ n, 0 < n → lo / n = hi / n → ¬ lo / n = max hi r.2 / n →
      ¬ (r.1 / n = r.2 / n ∧ r.1 % n ≠ 0) := by
    intro n hn hsame hleft ⟨hstay, hstart⟩
    rcases Nat.le_total r.2 hi with hle | hle
    · exact hleft (by rwa [Nat.max_eq_left hle])
    rw [Nat.max_eq_right hle] at hleft
    -- the second range starts in the block, or next to it at the start of a block
    have hmove : r.1 / n ≤ hi / n := by
      rcases Nat.lt_or_eq_of_le h with hlt | heq
      · exact Nat.div_le_div_right (Nat.le_of_lt_succ hlt)
      · rw [heq, Nat.succ_div,
          if_neg fun hdvd => hstart (by rw [heq]; exact Nat.mod_eq_zero_of_dvd hdvd)]
        exact Nat.le_refl _
    have := Nat.div_le_div_right (c := n) hle
    omega
  have h64 := hblock 64 (by decide)
  have h4096 := hblock 4096 (by decide)
  simp only [rangeLoad]
  by_cases hsame : lo / 64 = hi / 64 <;> by_cases hsame' : lo / 4096 = hi / 4096 <;>
    grind

/-- Adding a range adds at most its load. -/
theorem loadOf_addRange (done : List (Nat × Nat)) (r : Nat × Nat) :
    loadOf (addRange done r) ≤ rangeLoad r + loadOf done := by
  cases done with
  | nil => exact Nat.le_refl _
  | cons d older =>
      rw [addRange]
      split
      · next hmeet =>
        rw [loadOf_cons, loadOf_cons, ← Nat.add_assoc, Nat.add_comm (rangeLoad r)]
        exact Nat.add_le_add_right (rangeLoad_join hmeet) _
      · exact Nat.le_of_eq (loadOf_cons _ _)

/-- Adding ranges adds at most their loads. -/
theorem loadOf_foldl_addRange (ranges done : List (Nat × Nat)) :
    loadOf (ranges.foldl addRange done) ≤ loadOf done + loadOf ranges := by
  induction ranges generalizing done with
  | nil => exact Nat.le_refl _
  | cons r ranges ih =>
      have hfirst := loadOf_addRange done r
      have hrest := ih (addRange done r)
      rw [List.foldl_cons, loadOf_cons]
      omega

/-- A set has at most the load of the ranges that it is made of. -/
theorem load_ofAscending (ranges : List (Nat × Nat)) :
    load (ofAscending ranges) ≤ loadOf ranges := by
  have hle := loadOf_foldl_addRange ranges []
  rwa [loadOf_nil, Nat.zero_add, ← loadOf_perm (List.reverse_perm _)] at hle

/-- A union has at most the loads of both sets. -/
theorem load_union (s t : CharSet) : load (s.union t) ≤ load s + load t := by
  rw [CharSet.union]
  split
  · exact Nat.le_add_right _ _
  split
  · exact Nat.le_add_left _ _
  refine Nat.le_trans (load_ofAscending _) (Nat.le_of_eq ?_)
  rw [loadOf_perm (List.merge_perm_append ..), loadOf_append]
  rfl

/-- A union of sets has at most the loads of all of them. -/
theorem load_unions (ss : List CharSet) :
    load (unions ss) ≤ ss.foldr (fun s n => load s + n) 0 := by
  refine Nat.le_trans (load_ofAscending _) (Nat.le_of_eq ?_)
  rw [loadOf_perm (List.mergeSort_perm ..)]
  induction ss with
  | nil => rfl
  | cons s ss ih => rw [List.flatMap_cons, loadOf_append, ih, List.foldr_cons, load]

/-- A regular set of at most this load whose members have a property. -/
structure Built (most : Nat) (P : Nat → Prop) (s : CharSet) : Prop where
  regular : Regular s
  load_le : load s ≤ most
  holds : ∀ n, s.holds n = true → P n

/-- A set of one range is built from the points in it. -/
theorem built_range {lo hi : Nat} (h : lo ≤ hi) (hstop : hi ≤ topCodePoint) :
    Built 30 (· ≤ topCodePoint) (ofSorted [(lo, hi)]) := by
  refine ⟨regular_range h, rangeLoad_le _, fun n hn => ?_⟩
  obtain ⟨r, hr, hin⟩ := (holds_ofSorted (ascends_singleton h) n).1 hn
  rw [List.mem_singleton.1 hr] at hin
  exact Nat.le_trans hin.2 hstop

section
variable {most most' : Nat} {P Q : Nat → Prop}

/-- A set is built under a weaker condition too. -/
theorem Built.weaken {s : CharSet} (h : Built most P s) (himp : ∀ n, P n → Q n) : Built most Q s :=
  ⟨h.regular, h.load_le, fun n hn => himp n (h.holds n hn)⟩

/-- A union is built from what both sets are built from, and its load is bounded by both bounds. -/
theorem Built.union {s t : CharSet} (hs : Built most P s) (ht : Built most' P t) :
    Built (most + most') P (s.union t) := by
  obtain ⟨hregular, hholds⟩ := regular_union hs.regular ht.regular
  refine ⟨hregular, Nat.le_trans (load_union s t) (Nat.add_le_add hs.load_le ht.load_le),
    fun n hn => ?_⟩
  rw [hholds, Bool.or_eq_true] at hn
  exact hn.elim (hs.holds n) (ht.holds n)

/-- Every one of several sets that are built is built under some bound. -/
theorem exists_built {loads : List Nat} {ss : List CharSet}
    (h : List.Forall₂ (Built · P) loads ss) :
    ∀ s ∈ ss, ∃ most, Built most P s := by
  induction h with
  | nil => exact nofun
  | cons hs _ ih => exact List.forall_mem_cons.2 ⟨⟨_, hs⟩, ih⟩

/-- Sets that are built are regular. -/
theorem regular_of_built {loads : List Nat} {ss : List CharSet}
    (h : List.Forall₂ (Built · P) loads ss) :
    ∀ s ∈ ss, Regular s :=
  fun s hs => (exists_built h s hs).elim fun _ h => h.regular

/-- A union of sets that are built is built, and the bounds add up. -/
theorem Built.unions {loads : List Nat} {ss : List CharSet}
    (h : List.Forall₂ (Built · P) loads ss) :
    Built (loads.foldr (· + ·) 0) P (unions ss) := by
  have hload : ss.foldr (fun s n => load s + n) 0 ≤ loads.foldr (· + ·) 0 := by
    induction h with
    | nil => exact Nat.le_refl _
    | cons hs _ ih => exact Nat.add_le_add hs.load_le ih
  obtain ⟨hregular, hholds⟩ := regular_unions (regular_of_built h)
  refine ⟨hregular, Nat.le_trans (load_unions ss) hload, fun n hn => ?_⟩
  obtain ⟨s, hs, hn⟩ := (hholds n).1 hn
  exact (exists_built h s hs).elim fun _ h => h.holds n hn

end

end CharSet

open CharSet

/-! ## Word characters -/

/-- Code points that are no word characters: white space, and the ASCII characters but letters,
digits and the underscore. -/
def gapRanges : List (Nat × Nat) :=
  [(0, 0x2F), (0x3A, 0x40), (0x5B, 0x5E), (0x60, 0x60), (0x7B, 0xA0), (0x1680, 0x1680),
    (0x2000, 0x200A), (0x2028, 0x2029), (0x202F, 0x202F), (0x205F, 0x205F), (0x3000, 0x3000)]

/-- The code point is apart from these. -/
def IsWordPoint (n : Nat) : Prop := n ≤ topCodePoint ∧ ¬ Within gapRanges n

/-- Whether all members of a range are apart from them. -/
def isApart (r : Nat × Nat) : Bool := r.2 ≤ topCodePoint && gapRanges.all fun g => r.2 < g.1
    || g.2 < r.1

/-- The points of a range that is apart from the gaps belong to words. -/
theorem isWordPoint_of_isApart {r : Nat × Nat} (h : isApart r = true) {n : Nat}
    (hn : r.1 ≤ n ∧ n ≤ r.2) :
    IsWordPoint n := by
  rw [isApart, Bool.and_eq_true, decide_eq_true_eq, List.all_eq_true] at h
  refine ⟨Nat.le_trans hn.2 h.1, fun ⟨g, hg, hin⟩ => ?_⟩
  have := h.2 g hg
  rw [Bool.or_eq_true, decide_eq_true_eq, decide_eq_true_eq] at this
  omega

/-- A table of word characters: the load of its ranges, and the first of them. -/
structure WordTable where
  load : Nat
  first : Nat × Nat
  deriving DecidableEq

/-- Whether a text is such a table: the ranges stand in order, and hold word characters only. -/
def WordTable.isRead (t : WordTable) (chars : List Char) : Bool :=
  let ranges := rangesOf chars
  startsFrom 0 ranges && ranges.all isApart && decide (loadOf ranges ≤ t.load)
    && ranges.head? == some t.first

/-- The set has the ranges of such a table. -/
structure WordTable.Fits (t : WordTable) (s : CharSet) : Prop where
  regular : Regular s
  isWordPoint : ∀ n, s.holds n = true → IsWordPoint n
  load_le : s.load ≤ t.load
  holds_first : ∀ n, t.first.1 ≤ n → n ≤ t.first.2 → s.holds n = true

/-- A table that has been checked fits the set that is read from it. -/
theorem WordTable.fits_ofText {t : WordTable} {table : String} {chars : List Char}
    (h : table = String.ofList chars) (hread : t.isRead chars = true) : t.Fits (ofText table) := by
  rw [isRead, Bool.and_eq_true, Bool.and_eq_true, Bool.and_eq_true, List.all_eq_true,
    decide_eq_true_eq, beq_iff_eq] at hread
  obtain ⟨⟨⟨hstarts, hapart⟩, hload⟩, hfirst⟩ := hread
  obtain ⟨hregular, hholds⟩ := regular_ofText h (starts_of_startsFrom hstarts).1
  refine ⟨hregular, fun n hn => ?_, ?_, fun n hlow hhigh => ?_⟩
  · obtain ⟨r, hr, hin⟩ := (hholds n).1 hn
    exact isWordPoint_of_isApart (hapart r hr) hin
  · rw [ofText_eq h]
    exact Nat.le_trans (load_ofAscending _) hload
  · exact (hholds n).2 ⟨t.first, List.mem_of_mem_head? hfirst, hlow, hhigh⟩

/-- The categories of word characters with their tables. -/
def wordCategories : List (Category × WordTable) :=
  [(.uppercaseLetter, ⟨903, (0x41, 0x5A)⟩), (.lowercaseLetter, ⟨886, (0x61, 0x7A)⟩),
    (.titlecaseLetter, ⟨10, (0x1C5, 0x1C5)⟩), (.modifierLetter, ⟨124, (0x2B0, 0x2C1)⟩),
    (.otherLetter, ⟨1986, (0xAA, 0xAA)⟩), (.letterNumber, ⟨33, (0x16EE, 0x16F0)⟩),
    (.nonspacingMark, ⟨624, (0x300, 0x36F)⟩), (.spacingMark, ⟨331, (0x903, 0x903)⟩),
    (.enclosingMark, ⟨5, (0x488, 0x489)⟩), (.decimalNumber, ⟨134, (0x30, 0x39)⟩),
    (.connectorPunctuation, ⟨13, (0x5F, 0x5F)⟩)]

/-- The listed properties of word characters with their tables. -/
def wordTraits : List (Trait × WordTable) :=
  [(.otherAlphabetic, ⟨581, (0x345, 0x345)⟩), (.otherLowercase, ⟨56, (0xAA, 0xAA)⟩),
    (.otherUppercase, ⟨26, (0x2160, 0x216F)⟩), (.joinControl, ⟨1, (0x200C, 0x200D)⟩)]

set_option maxRecDepth 100000 in
/-- The tables of the categories of words fit their sets. -/
theorem fits_wordCategories : ∀ c ∈ wordCategories, c.2.Fits c.1.members := by
  simp only [wordCategories, List.forall_mem_cons]
  refine ⟨?_, ?_, ?_, ?_, ?_, ?_, ?_, ?_, ?_, ?_, ?_, nofun⟩ <;>
    exact WordTable.fits_ofText rfl (by decide +kernel)

set_option maxRecDepth 100000 in
/-- The tables of the traits of words fit their sets. -/
theorem fits_wordTraits : ∀ t ∈ wordTraits, t.2.Fits t.1.members := by
  simp only [wordTraits, List.forall_mem_cons]
  refine ⟨?_, ?_, ?_, ?_, nofun⟩ <;> exact WordTable.fits_ofText rfl (by decide +kernel)

/-- The set of a category of words is built under the load of its table. -/
theorem built_category {c : Category} {t : WordTable} (h : (c, t) ∈ wordCategories) :
    Built t.load IsWordPoint c.members :=
  have hfits := fits_wordCategories (c, t) h
  ⟨hfits.regular, hfits.load_le, hfits.isWordPoint⟩

/-- The set of a trait of words is built under the load of its table. -/
theorem built_trait {t : Trait} {u : WordTable} (h : (t, u) ∈ wordTraits) :
    Built u.load IsWordPoint t.members :=
  have hfits := fits_wordTraits (t, u) h
  ⟨hfits.regular, hfits.load_le, hfits.isWordPoint⟩

/-- The sets of some categories of words are built under the loads of their tables. -/
theorem built_members (cs : List (Category × WordTable)) (h : cs ⊆ wordCategories) :
    List.Forall₂ (Built · IsWordPoint) (cs.map (·.2.load)) (cs.map (·.1.members)) := by
  rw [List.forall₂_map_left_iff, List.forall₂_map_right_iff, List.forall₂_same]
  exact fun c hc => built_category (h hc)

/-- The set of letters is built from points of words. -/
theorem built_letters : Built 3909 IsWordPoint letters :=
  .unions (built_members (wordCategories.take 5) (List.take_subset 5 _))

/-- The parts of the alphabetic characters are built from points of words. -/
theorem built_alphabetic_parts : List.Forall₂ (Built · IsWordPoint) [3909, 33, 581, 942, 929]
    [letters, Category.letterNumber.members, Trait.otherAlphabetic.members, lowercase, uppercase] :=
  .cons built_letters <| .cons (built_category (t := ⟨33, (0x16EE, 0x16F0)⟩) (by decide)) <|
    .cons (built_trait (u := ⟨581, (0x345, 0x345)⟩) (by decide)) <|
    .cons (.union (built_category (t := ⟨886, (0x61, 0x7A)⟩) (by decide))
      (built_trait (u := ⟨56, (0xAA, 0xAA)⟩) (by decide))) <|
    .cons (.union (built_category (t := ⟨903, (0x41, 0x5A)⟩) (by decide))
      (built_trait (u := ⟨26, (0x2160, 0x216F)⟩) (by decide))) .nil

/-- The set of marks is built from points of words. -/
theorem built_marks : Built 960 IsWordPoint marks :=
  .unions (built_members ((wordCategories.drop 6).take 3)
    (List.Subset.trans (List.take_subset 3 _) (List.drop_subset 6 _)))

/-- The parts of the characters of words are built from points of words. -/
theorem built_word_parts : List.Forall₂ (Built · IsWordPoint) [6394, 960, 134, 13, 1]
    [alphabetic, marks, digits, Category.connectorPunctuation.members, Trait.joinControl.members] :=
  .cons (.unions built_alphabetic_parts) <| .cons built_marks <|
    .cons (built_category (t := ⟨134, (0x30, 0x39)⟩) (by decide)) <|
    .cons (built_category (t := ⟨13, (0x5F, 0x5F)⟩) (by decide)) <|
    .cons (built_trait (u := ⟨1, (0x200C, 0x200D)⟩) (by decide)) .nil

/-- The load of the word characters is no larger than that of their tables. -/
theorem built_wordChars : Built 7502 IsWordPoint wordChars := .unions built_word_parts

/-- A character of a word has a point of words. -/
theorem isWordPoint_of_isWordChar {c : Char} (h : isWordChar c = true) : IsWordPoint c.toNat :=
  built_wordChars.holds _ h

/-! ## White space -/

/-- The ranges of white space. -/
def blankRanges : List (Nat × Nat) :=
  [(9, 0xD), (0x20, 0x20), (0x85, 0x85), (0xA0, 0xA0), (0x1680, 0x1680), (0x2000, 0x200A),
    (0x2028, 0x2029), (0x202F, 0x202F), (0x205F, 0x205F), (0x3000, 0x3000)]

/-- The set of white space is made of its ranges. -/
theorem blanks_eq : blanks = ofAscending blankRanges := by
  have hranges : ∀ chars, Trait.text .whiteSpace = String.ofList chars →
      blankRanges = rangesOf chars →
      blanks = ofAscending blankRanges := fun chars hchars hranges => hranges ▸ ofText_eq hchars
  exact hranges _ rfl (by decide +kernel)

/-- The set of white space is regular and holds the numbers of its ranges. -/
theorem regular_blanks : Regular blanks ∧ ∀ n, blanks.holds n = true ↔ Within blankRanges n := by
  rw [blanks_eq]
  have hstarts : startsFrom 0 blankRanges = true := by decide
  exact regular_ofAscending (starts_of_startsFrom hstarts).1

/-- A character in a gap stands in no word. -/
theorem not_isWordChar_of_within {c : Char} (h : Within gapRanges c.toNat) :
    isWordChar c = false := by
  rw [← Bool.not_eq_true]
  exact fun hword => (isWordPoint_of_isWordChar hword).2 h

/-- White space stands in no word. -/
theorem not_isWordChar_of_isBlank {c : Char} (h : isBlank c = true) : isWordChar c = false := by
  obtain ⟨r, hr, hin⟩ := (regular_blanks.2 _).1 h
  have hgap : ∀ r ∈ blankRanges, ∃ g ∈ gapRanges, g.1 ≤ r.1 ∧ r.2 ≤ g.2 := by decide
  obtain ⟨g, hg, hlow, hhigh⟩ := hgap r hr
  exact not_isWordChar_of_within ⟨g, hg, Nat.le_trans hlow hin.1, Nat.le_trans hin.2 hhigh⟩

/-! ## ASCII letters and digits -/

/-- What a part of the characters of words holds, all of them hold. -/
theorem holds_wordChars {s : CharSet}
    (hs : s ∈ [alphabetic, marks, digits, Category.connectorPunctuation.members,
    Trait.joinControl.members]) {n : Nat} (h : s.holds n = true) : wordChars.holds n = true :=
  ((regular_unions (regular_of_built built_word_parts)).2 n).2 ⟨s, hs, h⟩

/-- Letters are alphabetic. -/
theorem holds_alphabetic {n : Nat} (h : letters.holds n = true) : alphabetic.holds n = true :=
  ((regular_unions (regular_of_built built_alphabetic_parts)).2 n).2 ⟨letters,
    List.mem_cons_self, h⟩

/-- The set of a category of words is regular. -/
theorem regular_category {c : Category} (hc : c ∈ wordCategories.map (·.1)) :
    Regular c.members := by
  obtain ⟨t, ht, rfl⟩ := List.mem_map.1 hc
  exact (fits_wordCategories t ht).regular

/-- What one category holds, a set of several categories with it holds. -/
theorem holds_ofCategories {cs : List Category} (h : cs ⊆ wordCategories.map (·.1)) {c : Category}
    (hc : c ∈ cs) {n : Nat} (hn : c.members.holds n = true) : (ofCategories cs).holds n = true := by
  have hregular : ∀ s ∈ cs.map Category.members, Regular s := by
    intro s hs
    obtain ⟨d, hd, rfl⟩ := List.mem_map.1 hs
    exact regular_category (h hd)
  exact ((regular_unions hregular).2 n).2 ⟨_, List.mem_map_of_mem hc, hn⟩

/-- A letter of ASCII stands in words. -/
theorem isWordChar_of_isAlpha {c : Char} (h : c.isAlpha = true) : isWordChar c = true := by
  refine holds_wordChars (s := alphabetic) List.mem_cons_self (holds_alphabetic ?_)
  rcases Text.isAlpha_iff.1 h with ⟨hlow, hhigh⟩ | ⟨hlow, hhigh⟩
  · exact holds_ofCategories (by decide) List.mem_cons_self
      ((fits_wordCategories (.uppercaseLetter, _) (.head _)).holds_first _ hlow hhigh)
  · exact holds_ofCategories (by decide) (.tail _ (.head _))
      ((fits_wordCategories (.lowercaseLetter, _) (.tail _ (.head _))).holds_first _ hlow hhigh)

/-- A digit of ASCII stands in words. -/
theorem isWordChar_of_isDigit {c : Char} (h : c.isDigit = true) : isWordChar c = true := by
  rw [Char.isDigit, Bool.and_eq_true, decide_eq_true_eq, decide_eq_true_eq] at h
  have hfits := fits_wordCategories (.decimalNumber, ⟨134, (0x30, 0x39)⟩) (by decide)
  exact holds_wordChars (s := digits) (.tail _ (.tail _ (.head _))) (hfits.holds_first _ h.1 h.2)

theorem isWordChar_underscore : isWordChar '_' = true := by
  have hparts : Category.connectorPunctuation.members ∈ [alphabetic, marks, digits,
      Category.connectorPunctuation.members, Trait.joinControl.members] := .tail _
        (.tail _ (.tail _ (.head _)))
  have hfits := fits_wordCategories (.connectorPunctuation, ⟨13, (0x5F, 0x5F)⟩) (by decide)
  exact holds_wordChars hparts (hfits.holds_first ('_').toNat (by decide) (by decide))

/-! ## Edition 17 -/

/-- The categories of letters and letter numbers. -/
def letterCategories : List Category :=
  [.uppercaseLetter, .lowercaseLetter, .titlecaseLetter, .modifierLetter, .otherLetter,
    .letterNumber]

/-- The members in edition 17 are those that are not moved, and those that are added. -/
theorem regular_current {c : Category} (h : Regular c.members) {moved added : List Char}
    (hmoved : c.movedText = String.ofList moved) (hadded : c.addedText = String.ofList added)
    (hstarts : Starts (rangesOf moved)) (hstarts' : Starts (rangesOf added)) :
    Regular c.current ∧ ∀ n ≤ topCodePoint, c.current.holds n = true ↔
      (c.members.holds n = true ∧ ¬ Within (rangesOf moved) n) ∨ Within (rangesOf added) n := by
  obtain ⟨hregular, hholds⟩ := regular_ofText hmoved hstarts
  obtain ⟨hregular', hholds'⟩ := regular_ofText hadded hstarts'
  obtain ⟨hdiff, hdiff'⟩ := regular_diff h hregular
  obtain ⟨hunion, hunion'⟩ := regular_union hdiff hregular'
  refine ⟨hunion, fun n hn => ?_⟩
  have hcurrent : c.current.holds n = _ := hunion' n
  rw [hcurrent, Bool.or_eq_true, hholds', hdiff' n hn, Bool.and_eq_true, Bool.not_eq_true',
    ← Bool.not_eq_true, hholds]

/-- Members that are not moved stay. -/
theorem holds_current {c : Category} (h : Regular c.members) {moved added : List Char}
    (hmoved : c.movedText = String.ofList moved) (hadded : c.addedText = String.ofList added)
    (hread : (startsFrom 128 (rangesOf moved) && startsFrom 0 (rangesOf added)) = true) :
    Regular c.current ∧ ∀ n < 128, c.members.holds n = true → c.current.holds n = true := by
  obtain ⟨hread, hread'⟩ := Bool.and_eq_true_iff.1 hread
  obtain ⟨hstarts, hle⟩ := starts_of_startsFrom hread
  obtain ⟨hregular, hholds⟩ :=
    regular_current h hmoved hadded hstarts (starts_of_startsFrom hread').1
  have htop : ∀ n < 128, n ≤ topCodePoint := fun n hn => Nat.le_trans (Nat.le_of_lt hn) (by decide)
  refine ⟨hregular,
    fun n hn hmember => (hholds n (htop n hn)).2 (.inl ⟨hmember, fun ⟨r, hr, hin⟩ => ?_⟩)⟩
  have := hle r hr
  omega

set_option maxRecDepth 4000 in
/-- The sets of letters are regular, and up to ASCII both editions agree on what is in them. -/
theorem regular_letterCategories : ∀ c ∈ letterCategories, Regular c.current ∧
    ∀ n < 128, c.members.holds n = true → c.current.holds n = true := by
  simp only [letterCategories, List.forall_mem_cons]
  refine ⟨?_, ?_, ?_, ?_, ?_, ?_, nofun⟩ <;>
    exact holds_current (regular_category (by decide)) rfl rfl (by decide +kernel)

set_option maxRecDepth 4000 in
/-- ASCII letters are letters in edition 17. -/
theorem isAlphabetic_of_isAlpha {c : Char} (h : c.isAlpha = true) : isAlphabetic c = true := by
  have hregular : ∀ s ∈ letterCategories.map Category.current, Regular s := by
    intro s hs
    obtain ⟨d, hd, rfl⟩ := List.mem_map.1 hs
    exact (regular_letterCategories d hd).1
  have hadded : ∀ chars, Trait.addedText .otherAlphabetic = String.ofList chars →
      startsFrom 0 (rangesOf chars) = true → Regular (Trait.current .otherAlphabetic) := by
    intro chars hchars hread
    have hmembers : Regular (Trait.members .otherAlphabetic) :=
      (fits_wordTraits (.otherAlphabetic, ⟨581, (0x345, 0x345)⟩) (by decide)).regular
    exact (regular_union hmembers (regular_ofText hchars (starts_of_startsFrom hread).1).1).1
  obtain ⟨hunions, hholds⟩ := regular_unions hregular
  have hunion := (regular_union hunions (hadded _ rfl (by decide +kernel))).2 c.toNat
  refine hunion.trans (Bool.or_eq_true_iff.2 (.inl ((hholds _).2 ?_)))
  have hcurrent : ∀ d ∈ letterCategories, d.members.holds c.toNat = true →
      ∃ s ∈ letterCategories.map Category.current, s.holds c.toNat = true := by
    intro d hd hmember
    have hrange := Text.isAlpha_iff.1 h
    exact ⟨_, List.mem_map_of_mem hd, (regular_letterCategories d hd).2 _ (by omega) hmember⟩
  rcases Text.isAlpha_iff.1 h with ⟨hlow, hhigh⟩ | ⟨hlow, hhigh⟩
  · exact hcurrent _ List.mem_cons_self
      ((fits_wordCategories (.uppercaseLetter, _) (.head _)).holds_first _ hlow hhigh)
  · exact hcurrent _ (.tail _ (.head _))
      ((fits_wordCategories (.lowercaseLetter, _) (.tail _ (.head _))).holds_first _ hlow hhigh)

end CodeAtlas.Unicode
