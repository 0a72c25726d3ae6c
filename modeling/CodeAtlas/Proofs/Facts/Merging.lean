import CodeAtlas.Facts.Analysis
import CodeAtlas.Proofs.Infra.Extending
import CodeAtlas.Proofs.Text.Splitting

/-!
# Merging analyses

Languages are joined as lists of tags to which new tags are added, and the text of a join is split
into the same tags again. So joining languages is associative, as putting diagrams together is, and
analyses form a monoid under merging.
-/

namespace CodeAtlas

/-! ## Tags -/

/-- The tags of a language. -/
def tagsOf (language : String) : List (List Char) := Text.splitChar '+' language.toList

/-- A language has a tag, if an empty one. -/
theorem tagsOf_ne_nil (language : String) : tagsOf language ≠ [] := by
  rw [tagsOf, Text.splitChar_eq_splitOn]
  exact List.splitOn_ne_nil '+' language.toList

/-- A language is its tags with `+` between them. -/
theorem intercalate_tagsOf (language : String) :
    ['+'].intercalate (tagsOf language) = language.toList := by
  rw [tagsOf, Text.splitChar_eq_splitOn, List.intercalate_splitOn]

/-- Languages with the same tags are the same. -/
theorem eq_of_tagsOf {l r : String} (h : tagsOf l = tagsOf r) : l = r := by
  rw [← String.toList_inj, ← intercalate_tagsOf, h, intercalate_tagsOf]

/-- There is no plus in a tag. -/
theorem not_mem_of_mem_tagsOf {language : String} : ∀ t ∈ tagsOf language, '+' ∉ t := by
  have hsplit : ∀ text : List Char, ∀ t ∈ text.splitOn '+', '+' ∉ t := by
    intro text
    induction text with
    | nil => simp
    | cons c text ih =>
        rw [List.splitOn_cons_eq_if_modifyHead]
        split
        · exact List.forall_mem_cons.2 ⟨List.not_mem_nil, ih⟩
        · next hc =>
          cases htags : text.splitOn '+' with
          | nil => exact List.forall_mem_nil _
          | cons t rest =>
              rw [htags] at ih
              obtain ⟨ht, hrest⟩ := List.forall_mem_cons.1 ih
              refine List.forall_mem_cons.2 ⟨?_, hrest⟩
              rw [List.mem_cons, not_or]
              exact ⟨fun h => hc (beq_iff_eq.2 h.symm), ht⟩
  rw [tagsOf, Text.splitChar_eq_splitOn]
  exact hsplit language.toList

/-- Joining tags adds those that are new. -/
theorem joinTags_eq (l m : List (List Char)) : joinTags l m = Keyed.union id Keyed.first l m := by
  induction m generalizing l with
  | nil => rfl
  | cons t rest ih =>
      have hstep : Keyed.union id Keyed.first l (t :: rest)
          = Keyed.union id Keyed.first (Keyed.upsert id Keyed.first t l) rest := rfl
      rw [joinTags, hstep, Keyed.upsert_first, List.map_id, id]
      by_cases h : t ∈ l
      · rw [if_pos (List.contains_iff_mem.2 h), if_pos h, ih]
      · rw [if_neg fun h' => h (List.contains_iff_mem.1 h'), if_neg h, ih]

/-! ## Languages -/

section
variable {l r : String}

/-- No language behind another leaves the other. -/
theorem joinLanguages_empty_right (l : String) : joinLanguages l "" = l := rfl

/-- No language in front of another leaves the other. -/
theorem joinLanguages_empty_left (r : String) : joinLanguages "" r = r := by
  rw [joinLanguages]
  split
  · next h => exact (String.isEmpty_iff.1 h).symm
  · rfl

/-- The tags of a join are the joined tags. -/
theorem tagsOf_joinLanguages (hl : l ≠ "") (hr : r ≠ "") :
    tagsOf (joinLanguages l r) = Keyed.union id Keyed.first (tagsOf l) (tagsOf r) := by
  have hjoin : joinLanguages l r = String.ofList
      (['+'].intercalate (Keyed.union id Keyed.first (tagsOf l) (tagsOf r))) := by
    rw [joinLanguages, if_neg fun h => hr (String.isEmpty_iff.1 h),
      if_neg fun h => hl (String.isEmpty_iff.1 h), ← joinTags_eq]
    rfl
  have hplain : ∀ t ∈ Keyed.union id Keyed.first (tagsOf l) (tagsOf r), '+' ∉ t := by
    intro t ht
    rcases Keyed.mem_union (fun _ _ => .inl rfl) ht with ht | ht
    · exact not_mem_of_mem_tagsOf t ht
    · exact not_mem_of_mem_tagsOf t ht
  have hne : Keyed.union id Keyed.first (tagsOf l) (tagsOf r) ≠ [] := by
    intro h
    exact tagsOf_ne_nil l
      (List.prefix_nil.1 (h ▸ Keyed.prefix_union_first id (tagsOf l) (tagsOf r)))
  rw [hjoin, tagsOf, String.toList_ofList, Text.splitChar_eq_splitOn,
    List.splitOn_intercalate '+' hplain hne]

/-- Joined languages are not empty. -/
theorem joinLanguages_ne_empty (hl : l ≠ "") (hr : r ≠ "") : joinLanguages l r ≠ "" := by
  intro h
  have hempty : tagsOf "" = [[]] := by
    rw [tagsOf, Text.splitChar_eq_splitOn]
    rfl
  -- the only tag of the join would be the empty one, and so the only one of the first language
  have hfront : tagsOf l <+: tagsOf "" := by
    rw [← h, tagsOf_joinLanguages hl hr]
    exact Keyed.prefix_union_first id (tagsOf l) (tagsOf r)
  have hlength : (tagsOf "").length ≤ (tagsOf l).length := by
    rw [hempty]
    exact List.length_pos_iff.2 (tagsOf_ne_nil l)
  exact hl (eq_of_tagsOf (hfront.eq_of_length_le hlength))

end

/-- Joining languages is associative. -/
theorem joinLanguages_assoc (l m r : String) :
    joinLanguages (joinLanguages l m) r = joinLanguages l (joinLanguages m r) := by
  by_cases hl : l = ""
  · rw [hl, joinLanguages_empty_left, joinLanguages_empty_left]
  by_cases hm : m = ""
  · rw [hm, joinLanguages_empty_right, joinLanguages_empty_left]
  by_cases hr : r = ""
  · rw [hr, joinLanguages_empty_right, joinLanguages_empty_right]
  have hlm := joinLanguages_ne_empty hl hm
  have hmr := joinLanguages_ne_empty hm hr
  refine eq_of_tagsOf ?_
  rw [tagsOf_joinLanguages hlm hr, tagsOf_joinLanguages hl hm, tagsOf_joinLanguages hl hmr,
    tagsOf_joinLanguages hm hr, Keyed.union_first_assoc]

/-! ## Analyses -/

namespace Analysis

/-- Merging diagrams is associative. -/
theorem mergeDiagrams_assoc (a b c : Option Infra.Diagram) :
    mergeDiagrams (mergeDiagrams a b) c = mergeDiagrams a (mergeDiagrams b c) := by
  cases a with
  | none => cases b <;> cases c <;> rfl
  | some d =>
      cases b with
      | none => cases c <;> rfl
      | some e =>
          cases c with
          | none => rfl
          | some f => exact congrArg some (d.extend_assoc e f)

/-- Analyses form a monoid under merging: it is associative in every part, whatever tags and
addresses are repeated, and an analysis that found nothing can be left out on both sides. -/
theorem merge_monoid :
    (∀ a b c : Analysis, (a.merge b).merge c = a.merge (b.merge c))
      ∧ ∀ a : Analysis, ({} : Analysis).merge a = a ∧ a.merge {} = a := by
  constructor
  · intro a b c
    simp only [merge, joinLanguages_assoc, mergeDiagrams_assoc, List.append_assoc]
  · intro a
    have hdiagrams : mergeDiagrams none a.infrastructure = a.infrastructure
        ∧ mergeDiagrams a.infrastructure none = a.infrastructure := by
      cases a.infrastructure <;> exact ⟨rfl, rfl⟩
    constructor
    · simp only [merge, joinLanguages_empty_left, hdiagrams.1, List.nil_append]
    · simp only [merge, joinLanguages_empty_right, hdiagrams.2, List.append_nil]

end Analysis

end CodeAtlas
