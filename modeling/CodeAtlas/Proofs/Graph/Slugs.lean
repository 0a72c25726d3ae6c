import CodeAtlas.Proofs.Graph.Naming
import Mathlib.Data.List.Chain

/-!
# Slugs

A canonical slug has small letters and numbers, points and underscores, with single hyphens between
them. The canonical slugs are the texts that are their own slugs. The slug of a text is canonical
just if the text is without the capital I with a dot, the small form of which has a mark in it;
then, and only then, the slug of the slug is the slug, and an id made from a name is the id made
from its slug.
-/

namespace CodeAtlas.Graph

open Unicode Text

/-- No two hyphens stand side by side. -/
def HyphensApart (text : List Char) : Prop := text.IsChain fun a b => a ≠ '-' ∨ b ≠ '-'

/-- A text of letters and numbers, points and underscores in small form, with hyphens that are
neither first nor last nor side by side. -/
structure IsSlug (text : List Char) : Prop where
  chars : ∀ c ∈ text, isAlphanumeric c = true ∨ c = '.' ∨ c = '_' ∨ c = '-'
  small : ∀ c ∈ text, lowerChars c = [c]
  head? : text.head? ≠ some '-'
  getLast? : text.getLast? ≠ some '-'
  apart : HyphensApart text

/-! ## Characters that slugs keep -/

/-- The characters of slugs are letters and numbers, the dot and the underscore. -/
theorem isSlugChar_iff {c : Char} : isSlugChar c = true
    ↔ isAlphanumeric c = true ∨ c = '.' ∨ c = '_' := by
  rw [isSlugChar, Bool.or_eq_true, Bool.or_eq_true, beq_iff_eq, beq_iff_eq, or_assoc]

/-- White space is no character of slugs. -/
theorem not_isSlugChar_of_isBlank {c : Char} (h : isBlank c = true) : isSlugChar c = false := by
  rw [← Bool.not_eq_true, isSlugChar_iff, not_isAlphanumeric_of_isBlank h]
  rintro (hc | rfl | rfl)
  · cases hc
  · exact Bool.false_ne_true ((isBlank_of_isPrinted (by decide)).symm.trans h)
  · exact Bool.false_ne_true ((isBlank_of_isPrinted (by decide)).symm.trans h)

/-- Only of the capital I with a dot the small form has a character that slugs do not keep. -/
theorem isSlugChar_of_mem_lowerChars {c d : Char} (hc : isSlugChar c = true) (hne : c ≠ dottedI)
    (h : d ∈ lowerChars c) :
    isSlugChar d = true := by
  rcases isSlugChar_iff.1 hc with halphanumeric | rfl | rfl
  · exact isSlugChar_iff.2 (.inl (isAlphanumeric_of_mem_lowerChars hne halphanumeric h))
  · exact List.mem_singleton.1 h ▸ hc
  · exact List.mem_singleton.1 h ▸ hc

/-- The small form of a character of slugs has no hyphen. -/
theorem hyphen_not_mem_lowerChars {c : Char} (hc : isSlugChar c = true) : '-' ∉ lowerChars c := by
  intro h
  obtain rfl := eq_of_mem_lowerChars (by decide) h
  exact Bool.false_ne_true ((by decide : isSlugChar '-' = false).symm.trans hc)

section
variable {c d : Char} (started pending : Bool)

/-- A character of slugs is kept in small form, behind a hyphen if one is pending. -/
theorem slugFrom_kept (hc : isSlugChar c = true) (rest : List Char) :
    slugFrom started pending (c :: rest)
    = (if pending && started then ['-'] else []) ++ (lowerChars c ++ slugFrom true false rest) := by
  rw [slugFrom, if_pos hc]
  split <;> rfl

/-- Any other character is left out, and a hyphen is pending behind it. -/
theorem slugFrom_left_out (hc : isSlugChar c = false) (rest : List Char) :
    slugFrom started pending (c :: rest) = slugFrom started true rest := by
  rw [slugFrom, if_neg (by rw [hc]; exact Bool.false_ne_true)]

/-- But for hyphens a slug has the characters of the small forms of what it keeps. -/
theorem mem_slugFrom (hd : d ≠ '-') (text : List Char) :
    d ∈ slugFrom started pending text ↔ ∃ c ∈ text, isSlugChar c = true ∧ d ∈ lowerChars c := by
  induction text generalizing started pending with
  | nil => simp [slugFrom]
  | cons c rest ih =>
      cases hc : isSlugChar c with
      | true =>
          have hhyphen : d ∉ if pending && started then ['-'] else [] := by
            split
            · exact fun h => hd (List.mem_singleton.1 h)
            · exact List.not_mem_nil
          rw [slugFrom_kept started pending hc, List.mem_append, or_iff_right hhyphen,
            List.mem_append, ih, List.exists_mem_cons_iff, and_iff_right hc]
      | false =>
          rw [slugFrom_left_out started pending hc, ih, List.exists_mem_cons_iff, hc]
          simp

/-! ## White space around a name -/

/-- What is left out at the end makes no difference. -/
theorem slugFrom_append_left_out (text : List Char) {back : List Char}
    (h : ∀ c ∈ back, isSlugChar c = false) :
    slugFrom started pending (text ++ back) = slugFrom started pending text := by
  induction text generalizing started pending with
  | nil =>
      induction back generalizing pending with
      | nil => rfl
      | cons c back ih =>
          obtain ⟨hc, hback⟩ := List.forall_mem_cons.1 h
          exact (slugFrom_left_out started pending hc back).trans (ih hback true)
  | cons c text ih =>
      cases hc : isSlugChar c with
      | true =>
          rw [List.cons_append, slugFrom_kept started pending hc,
            slugFrom_kept started pending hc, ih]
      | false =>
          rw [List.cons_append, slugFrom_left_out started pending hc,
            slugFrom_left_out started pending hc, ih]

/-- Nor does what is left out at the start. -/
theorem slugFrom_left_out_append {front : List Char} (h : ∀ c ∈ front, isSlugChar c = false)
    (text : List Char) :
    slugFrom false pending (front ++ text) = slugFrom false false text := by
  induction front generalizing pending with
  | nil =>
      cases text with
      | nil => rfl
      | cons c text =>
          cases hc : isSlugChar c with
          | true =>
              rw [List.nil_append, slugFrom_kept false pending hc, slugFrom_kept false false hc,
                Bool.and_false, Bool.and_false]
          | false =>
              rw [List.nil_append, slugFrom_left_out false pending hc,
                slugFrom_left_out false false hc]
  | cons c front ih =>
      obtain ⟨hc, hfront⟩ := List.forall_mem_cons.1 h
      rw [List.cons_append, slugFrom_left_out false pending hc, ih true hfront]

end

/-- So a name need not be trimmed. -/
theorem slug_eq_slugFrom (text : List Char) : slug text = slugFrom false false text := by
  obtain ⟨front, back, htext, hfront, hback, -⟩ := exists_trim text
  have hout : ∀ {s : List Char}, AllBlank s → ∀ c ∈ s, isSlugChar c = false := fun hs c hc =>
    not_isSlugChar_of_isBlank (hs c hc)
  rw [slug]
  conv_rhs => rw [htext, slugFrom_left_out_append false (hout hfront),
    slugFrom_append_left_out false false _ (hout hback)]

/-! ## Hyphens of slugs -/

/-- A text without hyphens in front of one whose hyphens stand apart keeps them apart. -/
theorem hyphensApart_append {a b : List Char} (ha : '-' ∉ a) (hb : HyphensApart b) :
    HyphensApart (a ++ b) := by
  have hfront : HyphensApart a :=
    (List.pairwise_of_forall_mem_list fun c hc _ _ => .inl fun h => ha (h ▸ hc)).isChain
  exact List.isChain_append.2 ⟨hfront, hb,
    fun c hc _ _ => .inl fun h => ha (h ▸ List.mem_of_getLast? hc)⟩

/-- A slug has its hyphens between characters that it keeps. -/
theorem hyphens_slugFrom (started pending : Bool) (text : List Char) :
    HyphensApart (slugFrom started pending text)
      ∧ (slugFrom started pending text).getLast? ≠ some '-'
      ∧ (started = false → (slugFrom started pending text).head? ≠ some '-') := by
  induction text generalizing started pending with
  | nil => exact ⟨.nil, nofun, nofun⟩
  | cons c rest ih =>
      cases hc : isSlugChar c with
      | true =>
          obtain ⟨happart, hlast, -⟩ := ih true false
          have hnot := hyphen_not_mem_lowerChars hc
          have hkept := hyphensApart_append hnot happart
          have hend : (lowerChars c ++ slugFrom true false rest).getLast? ≠ some '-' := by
            intro h
            rcases Option.or_eq_some_iff.1 (List.getLast?_append ▸ h) with h | ⟨-, h⟩
            · exact hlast h
            · exact hnot (List.mem_of_getLast? h)
          have hstart : (lowerChars c ++ slugFrom true false rest).head? ≠ some '-' := by
            intro h
            rw [List.head?_append_of_ne_nil _ (lowerChars_ne_nil c)] at h
            exact hnot (List.mem_of_head? h)
          rw [slugFrom_kept started pending hc]
          -- a hyphen is due only between two words, and the characters of a word hold none
          split
          · next hboth =>
            obtain rfl := (Bool.and_eq_true_iff.1 hboth).2
            refine ⟨List.isChain_cons.2 ⟨fun d hd => .inr fun h => hstart (h ▸ hd), hkept⟩, ?_,
              nofun⟩
            rw [List.singleton_append,
              List.getLast?_cons_of_ne_nil
              (List.append_ne_nil_of_left_ne_nil (lowerChars_ne_nil c) _)]
            exact hend
          · exact ⟨hkept, hend, fun _ => hstart⟩
      | false =>
          -- a character that is left out only asks for a hyphen, should another word follow
          rw [slugFrom_left_out started pending hc]
          exact ih started true

/-! ## Canonical slugs -/

/-- A canonical text that has been begun goes on as it is, with a hyphen where one is pending. -/
theorem slugFrom_canonical {text : List Char} (hchars : ∀ c ∈ text, c = '-' ∨ isSlugChar c = true)
    (hsmall : ∀ c ∈ text, lowerChars c = [c]) (hlast : text.getLast? ≠ some '-')
    (hapart : HyphensApart text) :
    slugFrom true false text = text ∧ ∀ started pending, text ≠ [] → text.head? ≠ some '-' →
      slugFrom started pending text = (if pending && started then ['-'] else []) ++ text := by
  induction text with
  | nil => exact ⟨rfl, fun _ _ hne => absurd rfl hne⟩
  | cons c rest ih =>
      obtain ⟨hc, hchars⟩ := List.forall_mem_cons.1 hchars
      obtain ⟨hlower, hsmall⟩ := List.forall_mem_cons.1 hsmall
      obtain ⟨hnext, hapart⟩ := List.isChain_cons.1 hapart
      have hlast' : rest.getLast? ≠ some '-' := fun h => hlast (List.mem_getLast?_cons h)
      obtain ⟨hgoes, hbegins⟩ := ih hchars hsmall hlast' hapart
      rcases hc with rfl | hc
      · -- the hyphen is left out, and comes back in front of the next character
        have hne : rest ≠ [] := by
          rintro rfl
          exact hlast rfl
        have hhead : rest.head? ≠ some '-' := fun h => (hnext '-' h).elim (absurd rfl) (absurd rfl)
        refine ⟨?_, fun _ _ _ h => absurd rfl h⟩
        rw [slugFrom_left_out true false (by decide), hbegins true true hne hhead]
        rfl
      · have hkept : ∀ started pending, slugFrom started pending (c :: rest)
            = (if pending && started then ['-'] else []) ++ c :: rest := by
          intro started pending
          rw [slugFrom_kept started pending hc, hlower, hgoes]
          rfl
        exact ⟨hkept true false, fun started pending _ _ => hkept started pending⟩

/-- The capital with a dot is in no slug, for it has a small form. -/
theorem dottedI_not_mem_slug (text : List Char) : dottedI ∉ slug text := by
  rw [slug_eq_slugFrom, mem_slugFrom false false (by decide)]
  rintro ⟨c, -, -, h⟩
  have hself := lowerChars_of_mem h
  rw [lowerChars_dottedI] at hself
  cases hself

/-- The dot above is no character of slugs. -/
theorem not_isSlugChar_dotAbove : isSlugChar dotAbove = false := by
  rw [isSlugChar, not_isAlphanumeric_dotAbove]
  rfl

/-- The slug of a text is canonical just if the text is without the capital with a dot. -/
theorem isSlug_slug_iff {text : List Char} : IsSlug (slug text) ↔ dottedI ∉ text := by
  rw [slug_eq_slugFrom]
  constructor
  · intro h hdotted
    have hkept : isSlugChar dottedI = true := isSlugChar_iff.2 (.inl isAlphanumeric_dottedI)
    have hmem : dotAbove ∈ slugFrom false false text :=
      (mem_slugFrom false false (by decide) text).2 ⟨dottedI, hdotted, hkept, .tail _ (.head _)⟩
    rcases h.chars dotAbove hmem with hchar | hchar
    · exact Bool.false_ne_true (not_isAlphanumeric_dotAbove.symm.trans hchar)
    · revert hchar
      decide
  · intro hdotted
    obtain ⟨happart, hlast, hhead⟩ := hyphens_slugFrom false false text
    refine ⟨fun d hd => ?_, fun d hd => ?_, hhead rfl, hlast, happart⟩
    · by_cases hhyphen : d = '-'
      · exact .inr (.inr (.inr hhyphen))
      · obtain ⟨c, hc, hkept, hd⟩ := (mem_slugFrom false false hhyphen text).1 hd
        have hchar :=
          isSlugChar_iff.1 (isSlugChar_of_mem_lowerChars hkept (fun h => hdotted (h ▸ hc)) hd)
        exact hchar.imp_right (·.imp_right .inl)
    · by_cases hhyphen : d = '-'
      · exact hhyphen ▸ rfl
      · obtain ⟨c, -, -, hd⟩ := (mem_slugFrom false false hhyphen text).1 hd
        exact lowerChars_of_mem hd

/-- A text is its own slug just if it is canonical. -/
theorem slug_eq_self_iff {text : List Char} : slug text = text ↔ IsSlug text := by
  constructor
  · intro h
    have hdotted : dottedI ∉ text := h ▸ dottedI_not_mem_slug text
    exact h ▸ isSlug_slug_iff.2 hdotted
  · intro h
    have hchars : ∀ c ∈ text, c = '-' ∨ isSlugChar c = true := by
      intro c hc
      rw [isSlugChar_iff]
      rcases h.chars c hc with halphanumeric | hpoint | hunderscore | hhyphen
      · exact .inr (.inl halphanumeric)
      · exact .inr (.inr (.inl hpoint))
      · exact .inr (.inr (.inr hunderscore))
      · exact .inl hhyphen
    rw [slug_eq_slugFrom]
    by_cases hne : text = []
    · rw [hne]
      rfl
    · exact (slugFrom_canonical hchars h.small h.getLast? h.apart).2 false false hne h.head?

/-- A name that is its own slug is a canonical one. A slug has its hyphens between other characters;
it is canonical just if the name is without the capital I with a dot, and just then it is its own
slug and makes the ids that the name makes. The slug of a slug is always canonical. -/
theorem slugify_canonical (name : String) :
    (slugify name = name ↔ IsSlug name.toList)
      ∧ (IsSlug (slugify name).toList ↔ dottedI ∉ name.toList)
      ∧ (slugify (slugify name) = slugify name ↔ dottedI ∉ name.toList)
      ∧ (∀ type, entityId type (slugify name) = entityId type name ↔ dottedI ∉ name.toList)
      ∧ HyphensApart (slugify name).toList ∧ (slugify name).toList.head? ≠ some '-'
      ∧ (slugify name).toList.getLast? ≠ some '-'
      ∧ IsSlug (slugify (slugify name)).toList := by
  have hself : ∀ name : String, slugify name = name ↔ IsSlug name.toList := fun name => by
    rw [← slug_eq_self_iff, slugify, ← String.toList_inj, String.toList_ofList]
  have hslug : ∀ name : String, IsSlug (slugify name).toList ↔ dottedI ∉ name.toList :=
    fun name => by
    rw [slugify, String.toList_ofList, isSlug_slug_iff]
  have hagain : slugify (slugify name) = slugify name ↔ dottedI ∉ name.toList :=
    (hself _).trans (hslug name)
  have hnever : dottedI ∉ (slugify name).toList := by
    rw [slugify, String.toList_ofList]
    exact dottedI_not_mem_slug _
  obtain ⟨happart, hlast, hhead⟩ := hyphens_slugFrom false false name.toList
  rw [← slug_eq_slugFrom, ← String.toList_ofList (l := slug name.toList), ← slugify]
    at happart hlast hhead
  exact ⟨hself name, hslug name, hagain, fun type => (String.append_right_inj _).trans hagain,
    happart, hhead rfl, hlast, (hslug _).2 hnever⟩

/-- The slug of the capital I with a dot has the dot above, which is neither a letter nor a number,
and the slug of this slug is another one. -/
theorem slugify_dottedI :
    slugify "\u0130" = "i\u0307" ∧ slugify "i\u0307" = "i" ∧ isAlphanumeric '\u0307' = false := by
  have hdotted : isSlugChar dottedI = true := isSlugChar_iff.2 (.inl isAlphanumeric_dottedI)
  have hmark : isSlugChar dotAbove = false := not_isSlugChar_dotAbove
  refine ⟨?_, ?_, not_isAlphanumeric_dotAbove⟩
  · rw [slugify, slug_eq_slugFrom, show "\u0130".toList = [dottedI] from rfl,
      slugFrom_kept false false hdotted, lowerChars_dottedI]
    rfl
  · rw [slugify, slug_eq_slugFrom, show "i\u0307".toList = ['i', dotAbove] from rfl,
      slugFrom_kept false false (by decide), slugFrom_left_out true false hmark]
    rfl

end CodeAtlas.Graph
