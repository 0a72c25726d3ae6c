import CodeAtlas.Proofs.Reply.Repair
import CodeAtlas.Proofs.Reply.Whole

/-!
# Replies that are cut off

A reply that holds a document only up to some point is read as what is left of the document there.
As it stands such a text cannot be read, since brackets are open in it, and what the repair makes of
it is a text of the remains.

A reply that holds a list of records up to some point is read as the records that are whole in it,
and at most one more, in which the reply ends. This is so wherever it ends, but for numbers and
escapes by hexadecimal digits: the repair does not complete these, and records in front of them are
lost.
-/

namespace CodeAtlas.Reply

open Json Text

/-! ## Documents -/

/-- What remains of a document in a text that holds it up to some point. -/
def Remains (j : Json) (text : List Char) (kept : Json) : Prop :=
  (readChars? text = some j ∧ kept = j)
    ∨ ∃ b rest, text = b ++ rest ∧ Blank b ∧ Cut j rest kept

/-- A text that leaves a bracket open cannot be read. -/
theorem readChars?_of_brackets {text : List Char} (h : (openings text).brackets ≠ []) :
    readChars? text = none := by
  cases hread : readChars? text with
  | none => rfl
  | some j =>
      obtain ⟨b, s, b', rfl, hb, hs, hb'⟩ := readChars?_eq_some_iff.1 hread
      have hstart : openings b = outside [] := foldl_blank hb
      rw [openings_append, hstart, List.foldl_append, foldl_text hs, foldl_blank hb'] at h
      exact absurd rfl h

/-- A text in which brackets are open is read as what the repair makes of it. -/
theorem parse?_of_brackets {text : List Char} (h : (openings text).brackets ≠ []) :
    parse? text = parseChars? (repair text) := by
  have hunread : parseChars? text = none := by
    rw [parseChars?, readChars?_of_brackets h]
    rfl
  rw [parse?, hunread]

/-- White space behind such a text does not matter. -/
theorem parse?_trimEnd {text : List Char} (h : (openings text).brackets ≠ []) :
    parse? (trimEnd text) = parse? text := by
  have hrepair : repair (trimEnd text) = repair text := by
    rw [repair_eq, repair_eq, mend, trimEnd_trimEnd, mend]
  rw [parse?_of_brackets h, parse?_of_brackets ((openings_trimEnd text).2.symm ▸ h), hrepair]

/-- What the repair makes of a text in which brackets are open. -/
theorem parse?_of_leaves {j : Json} {b p x inner : List Char} (hb : Blank b)
    (hinner : inner ≠ []) (htext : Text maxNesting (.value j) (x ++ inner.map closing))
    (h : Leaves [] b p x inner) : parse? (b ++ p) = some j.sorted := by
  obtain ⟨hmends, hstate, hbrackets⟩ := h
  rw [List.append_nil] at hstate hbrackets
  have hrepair : repair (b ++ p) = b ++ ((x ++ inner.map closing) ++ []) := by
    rw [repair_eq, hmends, closeBrackets, hstate, List.append_nil, List.append_assoc]
    rfl
  rw [parse?_of_brackets (by rwa [hbrackets]), hrepair, parseChars?,
    readChars?_of_text hb htext blank_nil]
  rfl

/-- The repair of an array or an object whose text is cut off leaves what remains of it. -/
theorem leaves_bracket {j : Json} {s b p r back : List Char} (hj : j.arr?.isSome ∨ j.obj?.isSome)
    (h : Text maxNesting (.value j) s) (hb : Blank b) (hsplit : s = p ++ r) (hp : p ≠ [])
    (hr : r ≠ []) (hfair : Fair (b ++ p) (r ++ back)) :
    ∃ w x inner, Cut j p w ∧ inner ≠ [] ∧ Text maxNesting (.value w) (x ++ inner.map closing)
      ∧ Leaves [] b p x inner := by
  have hstart : openings b = outside [] := foldl_blank hb
  cases h with
  | arr h =>
      obtain ⟨p, r, rfl, rfl, hs⟩ := start_between hsplit hp hr
      rw [List.append_assoc] at hfair
      obtain ⟨ws, x, inner, hcut, hws, hleaves⟩ :=
        leaves_entries (formCut h (Nat.le_succ _)) hstart hs hfair
      refine ⟨_, _, _, .arr hcut, by simp, ?_, hleaves⟩
      rw [closing_opener]
      exact .arr hws
  | obj h =>
      obtain ⟨p, r, rfl, rfl, hs⟩ := start_between hsplit hp hr
      rw [List.append_assoc] at hfair
      obtain ⟨ws, x, inner, hcut, hws, hleaves⟩ :=
        leaves_entries (formCut h (Nat.le_succ _)) hstart hs hfair
      refine ⟨_, _, _, .obj hcut, by simp, ?_, hleaves⟩
      rw [closing_opener]
      exact .obj hws
  | _ => rcases hj with hj | hj <;> cases hj

/-- An array or an object whose text is cut off is read as what remains of it, with white space
behind it or without. -/
theorem parse?_bracket {j : Json} {s b p r back : List Char} (hj : j.arr?.isSome ∨ j.obj?.isSome)
    (h : Text maxNesting (.value j) s) (hb : Blank b) (hsplit : s = p ++ r) (hp : p ≠ [])
    (hr : r ≠ []) (hfair : Fair (b ++ p) (r ++ back)) :
    ∃ w, Cut j p w ∧ parse? (b ++ p) = some w.sorted
      ∧ parse? (trimEnd (b ++ p)) = some w.sorted := by
  obtain ⟨w, x, inner, hcut, hinner, htext, hleaves⟩ := leaves_bracket hj h hb hsplit hp hr hfair
  have hparse := parse?_of_leaves hb hinner htext hleaves
  have hbrackets : (openings (b ++ p)).brackets ≠ [] := by
    rwa [hleaves.brackets, List.append_nil]
  exact ⟨w, hcut, hparse, (parse?_trimEnd hbrackets).trans hparse⟩

/-- A reply that holds a document, an array or an object, from its bracket on up to some point is
read as what remains of the document there. -/
theorem parse?_start {j : Json} {text rest : List Char} (hread : readChars? (text ++ rest) = some j)
    (hj : j.arr?.isSome ∨ j.obj?.isSome) (htext : ¬ Blank text) (hfair : Fair text rest) :
    ∃ kept, Remains j text kept ∧ parse? text = some kept.sorted := by
  obtain ⟨b, s, b', hsplit, hb, hs, hb'⟩ := readChars?_eq_some_iff.1 hread
  rcases start_append hsplit.symm with ⟨b₂, rfl, -⟩ | ⟨c, p, rfl, hdocument⟩
  · exact absurd (fun c hc => hb c (List.mem_append_left _ hc)) htext
  · rcases start_append (p := c :: p) hdocument with ⟨r, rfl, rfl⟩ | ⟨d, q, hp, hbehind⟩
    · by_cases hr : r = []
      · subst hr
        have hwhole := readChars?_of_text hb hs blank_nil
        rw [List.append_nil, List.append_nil] at hwhole
        refine ⟨j, .inl ⟨hwhole, rfl⟩, ?_⟩
        rw [parse?, parseChars?, hwhole]
        rfl
      · obtain ⟨w, hcut, hparse, -⟩ :=
          parse?_bracket hj hs hb rfl (List.cons_ne_nil c p) hr hfair
        exact ⟨w, .inr ⟨b, _, rfl, hb, hcut⟩, hparse⟩
    · -- only blanks are cut off
      have hblank : Blank (d :: q) := by
        intro x hx
        refine hb' x ?_
        rw [show b' = (d :: q) ++ rest from hbehind]
        exact List.mem_append_left _ hx
      have hwhole := readChars?_of_text hb hs hblank
      rw [← hp] at hwhole
      refine ⟨j, .inl ⟨hwhole, rfl⟩, ?_⟩
      rw [parse?, parseChars?, hwhole]
      rfl

/-- A text without backslashes does not end within an escape. -/
theorem not_withinEscape {text rest : List Char} (h : '\\' ∉ text) : ¬ WithinEscape text rest := by
  rintro ⟨front, e, f, back, c, rfl, -, he, -, -, -, hhex⟩
  obtain ⟨d, e, rfl⟩ := List.exists_cons_of_ne_nil he
  refine h (List.mem_append_right _ ?_)
  have hfirst : d = '\\' := by
    rw [List.cons_append] at hhex
    generalize e ++ f = u at hhex
    cases hhex <;> rfl
  rw [hfirst]
  exact List.mem_cons_self

/-- A record that is cut within a string is read up to there. -/
theorem parse?_start_inString : ∃ kept,
    Remains (.obj [("a", .arr [.bool true, .str "b c"])])
        ['\x7b', '"', 'a', '"', ':', '[', 't', 'r', 'u', 'e', ',', '"', 'b', ' '] kept
      ∧ parse? ['\x7b', '"', 'a', '"', ':', '[', 't', 'r', 'u', 'e', ',', '"', 'b', ' ']
        = some kept.sorted := by
  have hread : readChars? (['\x7b', '"', 'a', '"', ':', '[', 't', 'r', 'u', 'e', ',', '"', 'b', ' ']
      ++ ['c', '"', ']', '\x7d']) = some (.obj [("a", .arr [.bool true, .str "b c"])]) := rfl
  refine parse?_start hread (.inr rfl) ?_ ⟨?_, not_withinEscape (by decide)⟩
  · intro hblank
    exact absurd (hblank '"' (by decide)) (by decide)
  · rintro ⟨houtside, -⟩
    cases houtside

/-! ## Fronts of lists -/

/-- The records that are whole in a text: a front of it is a list of them, but for its last
bracket. -/
def Complete (text : List Char) (xs : List Item) : Prop :=
  ∃ front, front <+: text ∧ parseChars? (front ++ [']']) = some (.arr (xs.map .obj))

/-- A start of a list of records that can be completed so that the cut is neither within a number
nor within an escape by hexadecimal digits. -/
def FairStart (text : List Char) : Prop :=
  ∃ rest xs, parseChars? (text ++ rest) = some (.arr (List.map Json.obj xs)) ∧ Fair text rest

/-! ## Brackets that are not closed -/

/-- In a text the bracket that closes another is not found. -/
def Unclosed (opener closer : Char) (s : List Char) : Prop :=
  ∀ depth offset, 0 < depth → closerFrom? .json opener closer depth offset s = none

section
variable {opener closer : Char} {s t : List Char}

/-- Brackets that close are not left open at the end. -/
theorem Passes.unclosed (h : Passes opener closer s) : Unclosed opener closer s := by
  intro depth offset hdepth
  have hbehind := h depth offset [] hdepth
  rw [List.append_nil] at hbehind
  rw [hbehind, closerFrom?_eq_none rfl]

/-- Behind text whose brackets close brackets may be left open. -/
theorem Passes.append_unclosed (hs : Passes opener closer s) (ht : Unclosed opener closer t) :
    Unclosed opener closer (s ++ t) :=
  fun depth offset hdepth => (hs depth offset t hdepth).trans (ht depth _ hdepth)

/-- A part of a text that does not close the brackets does not close them. -/
theorem Unclosed.of_append (h : Unclosed opener closer (s ++ t)) : Unclosed opener closer s := by
  intro depth offset hdepth
  refine Option.eq_none_iff_forall_ne_some.2 fun stop hstop => ?_
  exact absurd ((closerFrom?_append hstop t).1.symm.trans (h depth offset hdepth))
    (Option.some_ne_none stop)

/-- A string that is not closed hides all that follows. -/
theorem unclosed_openString {start whole : String} (h : SpellsStart s start whole) :
    Unclosed opener closer ('"' :: s) := by
  obtain ⟨q, hs, hread, -⟩ := h
  obtain ⟨q', cs, hq, hspells, -⟩ := spells_of_readString? hread
  obtain rfl : q = q' := (List.append_inj' hq rfl).1
  have hnone : literalEnd? '"' 1 s = none := by
    rcases hs with rfl | rfl
    · have hend := literalEnd?_spells_append hspells 1 []
      rwa [List.append_nil] at hend
    · exact literalEnd?_spells_append hspells 1 ['\\']
  intro depth offset _
  exact closerFrom?_eq_none (by rw [token?_quote, hnone, Option.map_none]) depth offset

variable (hpair : closerOf? opener = some closer)
include hpair

/-- A bracket in front does not close the others. -/
theorem Unclosed.behind_bracket {o c : Char} (hpair' : closerOf? o = some c)
    (h : Unclosed opener closer s) : Unclosed opener closer (o :: s) := by
  obtain ⟨hquote, -⟩ := ne_of_closerOf? hpair'
  by_cases hsame : o = opener
  · intro depth offset _
    rw [closerFrom?_token (token?_char hquote s), if_pos (by rw [hsame])]
    exact h _ _ (Nat.succ_pos depth)
  · obtain ⟨hcloser, -⟩ := ne_of_closerOf?_other hpair hpair' hsame
    exact (passes_char hquote hsame hcloser).append_unclosed h

/-- In a document all brackets are closed. -/
theorem passes_of_readChars? {j : Json} (h : readChars? s = some j) : Passes opener closer s := by
  obtain ⟨b, s, b', rfl, hb, hs, hb'⟩ := readChars?_eq_some_iff.1 h
  exact (passes_blank hpair hb).append ((passes_text hpair hs).append (passes_blank hpair hb'))

/-- A key is passed with its colon. -/
theorem exists_passes_of_readKey? {rest : List Char} {key : String}
    (h : readKey? s = some (key, rest)) : ∃ k, s = k ++ rest ∧ Passes opener closer k := by
  obtain ⟨b, k, cs, b', rfl, hb, hk, hb', -⟩ := exists_of_readKey? h
  have hcolon : Passes opener closer [':'] := passes_singleton hpair (by simp [Neutral])
  refine ⟨b ++ ('"' :: (k ++ ['"']) ++ (b' ++ [':'])), by simp, ?_⟩
  exact (passes_blank hpair hb).append
    ((passes_quoted hk).append ((passes_blank hpair hb').append hcolon))

/-- In a whole entry all brackets are closed. -/
theorem Whole.passes {keyed : Bool} {e : String × Json} (h : Whole keyed e s) :
    Passes opener closer s := by
  cases keyed with
  | false => exact passes_of_readChars? hpair h
  | true =>
      obtain ⟨rest, hkey, hread⟩ := h
      obtain ⟨k, rfl, hk⟩ := exists_passes_of_readKey? hpair hkey
      exact hk.append (passes_of_readChars? hpair hread)

mutual

/-- What is cut off does not close a bracket in front of it. -/
theorem Cut.unclosed : ∀ {j text kept}, Cut j text kept → Unclosed opener closer text
  | _, _, _, .str hstart _ _ => unclosed_openString hstart
  | _, _, _, .literal _ hwhole _ =>
      (passes_of_neutral hpair fun c hc => neutral_of_isLiteralChar
        (mem_literals hwhole c (List.mem_append_left _ hc))).unclosed
  | _, _, _, .arr h => h.unclosed.behind_bracket hpair rfl
  | _, _, _, .obj h => h.unclosed.behind_bracket hpair rfl

/-- An entry that is cut does not close the brackets around it. -/
theorem CutEntry.unclosed : ∀ {keyed e text kept}, CutEntry keyed e text kept →
    Unclosed opener closer text
  | _, _, _, _, .item h => h.unclosed
  | _, _, _, _, .openKey hstart => unclosed_openString hstart
  | _, _, _, _, .loneKey hkey => by
      obtain ⟨k, hk, hpasses⟩ := exists_passes_of_readKey? hpair hkey
      rw [List.append_nil] at hk
      exact (hk ▸ hpasses.unclosed).of_append
  | _, _, _, _, .colon hkey hb => by
      obtain ⟨k, rfl, hk⟩ := exists_passes_of_readKey? hpair hkey
      exact (hk.append (passes_blank hpair hb)).unclosed
  | _, _, _, _, .value hkey hb h => by
      obtain ⟨k, rfl, hk⟩ := exists_passes_of_readKey? hpair hkey
      exact (hk.append (passes_blank hpair hb)).append_unclosed h.unclosed

/-- Entries that are cut do not close the brackets around them. -/
theorem CutEntries.unclosed : ∀ {keyed es text kept}, CutEntries keyed es text kept →
    Unclosed opener closer text
  | _, _, _, _, .nothing hb => (passes_blank hpair hb).unclosed
  | _, _, _, _, .whole hwhole => (hwhole.passes hpair).unclosed
  | _, _, _, _, .next hwhole h =>
      (hwhole.passes hpair).append_unclosed
        ((passes_singleton hpair (by simp [Neutral])).append_unclosed h.unclosed)
  | _, _, _, _, .part hb h => (passes_blank hpair hb).append_unclosed h.unclosed

end

end

/-! ## Whole records -/

/-- The records that are whole in a text behind the bracket of a list. -/
def CompleteItems (n : Nat) (p : List Char) (l : List Item) : Prop :=
  ∃ front es, front <+: p ∧ Text n (.entries false es) front ∧ es.map Prod.snd = l.map .obj

/-- All the records that are whole in a text behind the bracket of a list. -/
structure Longest (n : Nat) (p : List Char) (l : List Item) : Prop where
  complete : CompleteItems n p l
  longest : ∀ {m l'}, CompleteItems m p l' → l' <+: l

section
variable {n m : Nat} {p q b b' s z : List Char} {x y : Item} {l : List Item}

/-- No items are complete in any start. -/
theorem completeItems_nil (n : Nat) (p : List Char) : CompleteItems n p [] :=
  ⟨[], [], List.nil_prefix, .nil blank_nil, rfl⟩

/-- Where the text of a record starts, its bracket is closed, and its region is the text. -/
theorem region_record (hs : Text n (.value (.obj x)) s) (z : List Char) :
    skipSpace (s ++ z) = s ++ z ∧ regionAt? (s ++ z) = some s ∧ (s ++ z).head? = some '\x7b'
      ∧ (closerFrom? .json '\x7b' '\x7d' 0 0 (s ++ z)).isSome := by
  have hpair : closerOf? '\x7b' = some '\x7d' := rfl
  cases hs with
  | obj h =>
      have hpasses := passes_text hpair h
      rw [List.cons_append, List.append_assoc, List.singleton_append]
      refine ⟨skipSpace_cons rfl _, regionAt?_brackets hpair hpasses z, rfl, ?_⟩
      rw [closerFrom?_brackets hpair hpasses, if_pos rfl]
      rfl

/-- Of the texts that start at some point at most one is of a record, and of a single one. -/
theorem record_unique {b₂ s₂ z₂ : List Char} (hb : Blank b) (hs : Text n (.value (.obj x)) s)
    (hb₂ : Blank b₂) (hs₂ : Text m (.value (.obj y)) s₂)
    (h : b ++ (s ++ z) = b₂ ++ (s₂ ++ z₂)) : s = s₂ ∧ z = z₂ ∧ x = y := by
  obtain ⟨hskip, hregion, -⟩ := region_record hs z
  obtain ⟨hskip₂, hregion₂, -⟩ := region_record hs₂ z₂
  have htext : s ++ z = s₂ ++ z₂ := by
    have hbehind := congrArg skipSpace h
    rwa [skipSpace_append hb, skipSpace_append hb₂, hskip, hskip₂] at hbehind
  obtain rfl : s = s₂ := Option.some.inj (hregion.symm.trans (htext ▸ hregion₂))
  exact ⟨rfl, List.append_cancel_left htext, Json.obj.inj (hs.value_unique hs₂)⟩

/-- Of what stands behind a record, in front of a comma and in front of its end. -/
theorem comma_unique {b₂ q₂ : List Char} (hb : Blank b) (hb₂ : Blank b₂)
    (h : b ++ ',' :: q = b₂ ++ ',' :: q₂) : q = q₂ := by
  have hbehind := congrArg skipSpace h
  rw [skipSpace_append hb, skipSpace_append hb₂, skipSpace_cons rfl, skipSpace_cons rfl] at hbehind
  exact (List.cons.inj hbehind).2

/-- The text of records starts with that of the first. -/
theorem exists_record {e : String × Json} {es : List (String × Json)}
    (h : Text n (.entries false (e :: es)) s)
    (he : e.2 = .obj x) : ∃ b t b' m, s = b ++ (t ++ (b' ++ m)) ∧ Blank b ∧ Blank b'
      ∧ Text n (.value (.obj x)) t ∧ Text n (.more false es) m := by
  cases h with
  | cons hb hb' hentry hm =>
      cases hentry with
      | item ht => exact ⟨_, _, _, _, rfl, hb, hb', he ▸ ht, hm⟩

/-- The first of the records that are whole in a text. -/
theorem CompleteItems.cases (h : CompleteItems n p l) : l = [] ∨ ∃ x l' b s b' q, l = x :: l'
    ∧ p = b ++ (s ++ (b' ++ q)) ∧ Blank b ∧ Blank b' ∧ Text n (.value (.obj x)) s
    ∧ (l' = [] ∨ ∃ q', q = ',' :: q' ∧ CompleteItems n q' l') := by
  obtain ⟨front, es, ⟨back, rfl⟩, htext, hes⟩ := h
  cases l with
  | nil => exact .inl rfl
  | cons x l =>
      obtain ⟨e, es, rfl, he, hrest⟩ := List.map_eq_cons_iff.1 hes
      obtain ⟨b, s, b', m, rfl, hb, hb', hs, hm⟩ := exists_record htext he
      refine .inr ⟨x, l, b, s, b', m ++ back, rfl, by simp, hb, hb', hs, ?_⟩
      cases hm with
      | last => exact .inl (List.map_eq_nil_iff.1 hrest.symm)
      | comma h => exact .inr ⟨_, rfl, _, _, List.prefix_append _ _, h, hrest⟩

section
variable (hb : Blank b) (hs : Text n (.value (.obj x)) s)
include hb hs

/-- The first of several items may be complete. -/
theorem completeItems_singleton (z : List Char) : CompleteItems n (b ++ (s ++ z)) [x] := by
  refine ⟨b ++ s, [("", .obj x)], ⟨z, List.append_assoc ..⟩, ?_, rfl⟩
  simpa using Text.cons hb blank_nil (.item hs) .last

/-- An item with a comma is complete, and so are those behind it. -/
theorem CompleteItems.cons (hb' : Blank b') (h : CompleteItems n q l) :
    CompleteItems n (b ++ (s ++ (b' ++ ',' :: q))) (x :: l) := by
  obtain ⟨front, es, ⟨back, rfl⟩, htext, hes⟩ := h
  cases es with
  | nil =>
      obtain rfl := List.map_eq_nil_iff.1 hes.symm
      exact completeItems_singleton hb hs _
  | cons e es =>
      refine ⟨b ++ (s ++ (b' ++ ',' :: front)), ("", .obj x) :: e :: es, ⟨back, by simp⟩,
        .cons hb hb' (.item hs) (.comma htext), ?_⟩
      rw [List.map_cons, hes]
      rfl

/-- The records that are whole in a text that starts with one. -/
theorem CompleteItems.of_record {l' : List Item} (h : CompleteItems m (b ++ (s ++ z)) l') :
    l' = [] ∨ ∃ l'', l' = x :: l'' ∧ (l'' = [] ∨ ∃ c q, z = c ++ ',' :: q ∧ Blank c
      ∧ CompleteItems m q l'') := by
  rcases h.cases with rfl | ⟨x', l'', c, s', c', q, rfl, hp, hc, hc', hs', hmore⟩
  · exact .inl rfl
  · obtain ⟨-, rfl, rfl⟩ := record_unique hb hs hc hs' hp
    refine .inr ⟨l'', rfl, hmore.imp_right ?_⟩
    rintro ⟨q', rfl, hq'⟩
    exact ⟨c', q', rfl, hc', hq'⟩

/-- Behind the last record there is no comma. -/
theorem longest_singleton (hz : (skipSpace z).head? ≠ some ',') :
    Longest n (b ++ (s ++ z)) [x] where
  complete := completeItems_singleton hb hs z
  longest := by
    intro m l' hl'
    rcases hl'.of_record hb hs with rfl | ⟨l'', rfl, rfl | ⟨c, q, rfl, hc, -⟩⟩
    · exact List.nil_prefix
    · exact List.prefix_refl _
    · rw [skipSpace_append hc, skipSpace_cons rfl] at hz
      exact absurd rfl hz

/-- The longest list of complete items goes on behind an item with a comma. -/
theorem Longest.cons (hb' : Blank b') (h : Longest n q l) :
    Longest n (b ++ (s ++ (b' ++ ',' :: q))) (x :: l) where
  complete := h.complete.cons hb hs hb'
  longest := by
    intro m l' hl'
    rcases hl'.of_record hb hs with rfl | ⟨l'', rfl, rfl | ⟨c, q', hq, hc, hl''⟩⟩
    · exact List.nil_prefix
    · exact List.cons_prefix_cons.2 ⟨rfl, List.nil_prefix⟩
    · obtain rfl := comma_unique hb' hc hq
      exact List.cons_prefix_cons.2 ⟨rfl, h.longest hl''⟩

end

/-- No record is whole in a text that does not start with one. -/
theorem longest_nil (h : (skipSpace p).head? = some '\x7b' →
    closerFrom? .json '\x7b' '\x7d' 0 0 (skipSpace p) = none) : Longest n p [] where
  complete := completeItems_nil n p
  longest := by
    intro m l' hl'
    rcases hl'.cases with rfl | ⟨x, l'', b, s, b', q, rfl, rfl, hb, -, hs, -⟩
    · exact List.nil_prefix
    · obtain ⟨hskip, -, hhead, hclosed⟩ := region_record hs (b' ++ q)
      rw [skipSpace_append hb, hskip] at h
      rw [h hhead] at hclosed
      cases hclosed

end

/-! ## Lists of records -/

section
variable {n : Nat} {es es' kept : List (String × Json)} {xs : List Item} {p r s : List Char}

/-- In white space no item is complete. -/
theorem longest_blank (n : Nat) (hb : Blank p) : Longest n p [] := by
  refine longest_nil fun hhead => ?_
  rw [skipSpace_blank hb] at hhead
  cases hhead

/-- All records of a list are whole in its text. -/
theorem longest_entries (h : Text n (.entries false es) s) (hes : es.map Prod.snd = xs.map .obj)
    (back : List Char) : Longest n (s ++ ']' :: back) xs := by
  induction xs generalizing es s with
  | nil =>
      obtain rfl := List.map_eq_nil_iff.1 hes
      cases h with
      | nil hb =>
          -- behind the blanks stands the bracket of the list
          refine longest_nil fun hhead => ?_
          rw [skipSpace_append hb, skipSpace_cons rfl] at hhead
          exact absurd (Option.some.inj hhead) (by decide)
  | cons x xs ih =>
      obtain ⟨e, es, rfl, he, hrest⟩ := List.map_eq_cons_iff.1 hes
      obtain ⟨b, t, b', m, rfl, hb, hb', ht, hm⟩ := exists_record h he
      cases hm with
      | last =>
          obtain rfl := List.map_eq_nil_iff.1 hrest.symm
          have hlongest := longest_singleton hb ht (z := b' ++ ']' :: back) (by
            rw [skipSpace_append hb', skipSpace_cons rfl]
            exact fun hcomma => absurd (Option.some.inj hcomma) (by decide))
          simpa using hlongest
      | comma hm =>
          have hlongest := (ih hm hrest).cons hb ht hb'
          simpa using hlongest

/-- A literal is neither a list nor a record. -/
theorem of_literal {j : Json} (hs : s ∈ literals) (hread : readChars? s = some j) :
    j.arr? = none ∧ j.obj? = none := by
  have hall : ∀ t ∈ literals, ∀ j ∈ readChars? t, j.arr? = none ∧ j.obj? = none := by
    intro t ht j hj
    simp only [literals, List.mem_cons, List.not_mem_nil, or_false] at ht
    rcases ht with rfl | rfl | rfl
    all_goals
      cases hj
      exact ⟨rfl, rfl⟩
  exact hall s hs j hread

/-- Of a record whose text is cut off remains a record, and its bracket is not closed. -/
theorem Cut.of_obj {x : Item} {j : Json} (h : Cut (.obj x) p j) : (∃ y, j = .obj y)
    ∧ p.head? = some '\x7b' ∧ closerFrom? .json '\x7b' '\x7d' 0 0 p = none := by
  cases h with
  | literal _ hwhole hread => cases (of_literal hwhole hread).2
  | obj h =>
      refine ⟨⟨_, rfl⟩, rfl, ?_⟩
      rw [closerFrom?_token (token?_char (by decide) _), if_pos rfl]
      exact h.unclosed rfl _ _ Nat.one_pos

/-- Of records whose text is cut off remain those that are whole, and at most one more. -/
theorem CutEntries.longest (h : CutEntries false es' p kept) (hes' : es'.map Prod.snd = xs.map .obj)
    (htext : Text n (.entries false es) (p ++ r)) (hes : es.map Prod.snd = xs.map .obj) :
    ∃ done more, kept.map Prod.snd = (done ++ more).map .obj ∧ more.length ≤ 1
      ∧ Longest n p done := by
  induction xs generalizing es es' p kept with
  | nil =>
      obtain rfl := List.map_eq_nil_iff.1 hes'
      cases h with
      | nothing hb => exact ⟨[], [], rfl, Nat.zero_le 1, longest_blank n hb⟩
  | cons x xs ih =>
      obtain ⟨e', es', rfl, he', hrest'⟩ := List.map_eq_cons_iff.1 hes'
      obtain ⟨e, es, rfl, he, hrest⟩ := List.map_eq_cons_iff.1 hes
      obtain ⟨b₁, t₁, b₁', m, hsplit, hb₁, hb₁', ht₁, hm⟩ := exists_record htext he
      cases h with
      | nothing hb => exact ⟨[], [], rfl, Nat.zero_le 1, longest_blank n hb⟩
      | whole hwhole =>
          have hread : readChars? p = some (.obj x) := he' ▸ hwhole
          obtain ⟨b, t, b', rfl, hb, ht, hb'⟩ := readChars?_eq_some_iff.1 hread
          rw [List.append_assoc, List.append_assoc] at hsplit
          obtain ⟨rfl, -, -⟩ := record_unique hb ht hb₁ ht₁ hsplit
          refine ⟨[x], [], congrArg (fun j => [j]) he', Nat.zero_le 1, longest_singleton hb ht₁ ?_⟩
          rw [skipSpace_blank hb']
          exact nofun
      | @next _ _ _ kept p rest hwhole h =>
          have hread : readChars? p = some (.obj x) := he' ▸ hwhole
          obtain ⟨b, t, b', rfl, hb, ht, hb'⟩ := readChars?_eq_some_iff.1 hread
          simp only [List.append_assoc, List.cons_append] at hsplit ⊢
          obtain ⟨rfl, hbehind, -⟩ := record_unique hb ht hb₁ ht₁ hsplit
          cases hm with
          | last =>
              -- behind its last record a list has no comma
              have hskip := congrArg skipSpace hbehind
              rw [skipSpace_append hb', skipSpace_append hb₁', skipSpace_cons rfl] at hskip
              cases hskip
          | comma hm =>
              obtain rfl := comma_unique hb' hb₁' hbehind
              obtain ⟨done, more, hkept, hmore, hlongest⟩ := ih h hrest' hm hrest
              refine ⟨x :: done, more, ?_, hmore, hlongest.cons hb ht₁ hb'⟩
              rw [List.map_cons, he', hkept]
              rfl
      | @part _ _ _ text b _ hb hentry =>
          cases hentry with
          | item hcut =>
              -- the record has started, but its bracket is not closed
              obtain rfl := he'
              obtain ⟨⟨y, rfl⟩, hhead, hnone⟩ := hcut.of_obj
              have hskip : skipSpace text = text := by
                obtain ⟨t, rfl⟩ := List.head?_eq_some_iff.1 hhead
                exact skipSpace_cons rfl t
              refine ⟨[], [y], rfl, Nat.le_refl 1, longest_nil fun _ => ?_⟩
              rw [skipSpace_append hb, hskip, hnone]

end

/-! ## Replies -/

/-- A record with its members sorted. -/
def sortedItem (x : Item) : Item := sortMembers (sortedMembers x)

/-- A list of records is sorted record by record. -/
theorem sorted_records (l : List Item) :
    (Json.arr (l.map .obj)).sorted = .arr ((l.map sortedItem).map .obj) := by
  rw [Json.sorted, sortedItems_eq_map, List.map_map, List.map_map]
  rfl

/-- A document that is sorted into a list of records is one. -/
theorem exists_records_of_sorted {j : Json} {ys : List Item} (h : j.sorted = .arr (ys.map .obj)) :
    ∃ l, j = .arr (List.map Json.obj l) ∧ ys = l.map sortedItem := by
  cases j with
  | arr items =>
      have hitems : items.map Json.sorted = ys.map .obj := by
        rw [← sortedItems_eq_map]
        exact Json.arr.inj h
      clear h
      induction items generalizing ys with
      | nil =>
          obtain rfl := List.map_eq_nil_iff.1 hitems.symm
          exact ⟨[], rfl, rfl⟩
      | cons item items ih =>
          obtain ⟨y, ys, rfl, hy, hys⟩ := List.map_eq_cons_iff.1 hitems.symm
          obtain ⟨l, hl, rfl⟩ := ih hys.symm
          cases item with
          | obj x =>
              obtain rfl := Json.obj.inj hy
              exact ⟨x :: l, congrArg (fun items => Json.arr (.obj x :: items)) (Json.arr.inj hl),
                rfl⟩
          | _ => cases hy
  | _ => cases h

/-- The texts of lists of records. -/
theorem parseChars?_records_iff {text : List Char} {xs : List Item} :
    parseChars? text = some (.arr (xs.map .obj)) ↔ ∃ b s b' n es l,
      text = b ++ '[' :: (s ++ ']' :: b') ∧ Blank b ∧ Blank b' ∧ n < maxNesting
      ∧ Text n (.entries false es) s ∧ es.map Prod.snd = List.map Json.obj l
      ∧ xs = l.map sortedItem := by
  constructor
  · intro h
    obtain ⟨j, hread, hsorted⟩ := Option.map_eq_some_iff.1 h
    obtain ⟨l, rfl, rfl⟩ := exists_records_of_sorted hsorted
    obtain ⟨b, s, b', rfl, hb, hs, hb'⟩ := readChars?_eq_some_iff.1 hread
    generalize hitems : List.map Json.obj l = items at hs
    cases hs with
    | arr hs =>
        exact ⟨b, _, b', _, _, l, by simp, hb, hb', Nat.lt_succ_self _, hs, hitems.symm, rfl⟩
  · rintro ⟨b, s, b', n, es, l, rfl, hb, hb', hn, hs, hes, rfl⟩
    have hread := readChars?_of_text hb ((Text.arr hs).mono hn) hb'
    rw [List.cons_append, List.append_assoc, List.singleton_append] at hread
    rw [parseChars?, hread, hes, Option.map_some, sorted_records]

/-- The records that are whole in a text are those behind its bracket. -/
theorem complete_iff {b p : List Char} (hb : Blank b) {ys : List Item} :
    Complete (b ++ '[' :: p) ys ↔
      ∃ n l, n < maxNesting ∧ ys = l.map sortedItem ∧ CompleteItems n p l := by
  constructor
  · rintro ⟨front, ⟨back, hback⟩, hread⟩
    obtain ⟨b₁, s, b', n, es, l, hsplit, hb₁, hb', hn, hs, hes, rfl⟩ :=
      parseChars?_records_iff.1 hread
    have hfront : front = b₁ ++ '[' :: s := by
      rcases List.eq_nil_or_concat b' with rfl | ⟨b', c, rfl⟩
      · exact (List.append_inj' (hsplit.trans (by simp)) rfl).1
      · -- the last bracket is no blank
        have hlast := congrArg List.getLast? hsplit
        rw [List.concat_eq_append] at hb' hlast
        simp only [← List.cons_append, ← List.append_assoc, List.getLast?_concat,
          Option.some.injEq] at hlast
        exact absurd (hb' c (List.mem_append_right _ List.mem_cons_self)) (by rw [← hlast]; decide)
    have hskip := congrArg skipSpace hback
    rw [hfront, List.append_assoc, skipSpace_append hb₁, skipSpace_append hb, List.cons_append,
      skipSpace_cons rfl, skipSpace_cons rfl] at hskip
    exact ⟨n, l, hn, rfl, s, es, ⟨back, (List.cons.inj hskip).2⟩, hs, hes⟩
  · rintro ⟨n, l, hn, rfl, front, es, ⟨back, rfl⟩, hs, hes⟩
    refine ⟨b ++ '[' :: front, ⟨back, by simp⟩, ?_⟩
    exact parseChars?_records_iff.2 ⟨b, front, [], n, es, l,
      by simp, hb, blank_nil, hn, hs, hes, rfl⟩

/-- The records that are whole in a start of a list are its first. -/
theorem Complete.prefix_of_read {text rest : List Char} {xs ys : List Item} (h : Complete text ys)
    (hread : parseChars? (text ++ rest) = some (.arr (xs.map .obj))) : ys <+: xs := by
  obtain ⟨front, hprefix, hfront⟩ := h
  have hwhole : Complete (text ++ rest) ys :=
    ⟨front, hprefix.trans (List.prefix_append _ _), hfront⟩
  obtain ⟨b, s, b', n, es, l, hsplit, hb, -, -, hs, hes, rfl⟩ := parseChars?_records_iff.1 hread
  rw [hsplit] at hwhole
  obtain ⟨m, l', -, rfl, hl'⟩ := (complete_iff hb).1 hwhole
  exact ((longest_entries hs hes b').longest hl').map sortedItem

/-- What is fair behind white space is fair. -/
theorem Fair.of_blank_append {b text rest : List Char} (hb : Blank b) (h : Fair (b ++ text) rest) :
    Fair text rest := by
  have hopen : ∀ s, openings (b ++ s) = openings s := by
    intro s
    have hstart : openings b = outside [] := foldl_blank hb
    rw [openings_append, hstart]
    rfl
  constructor
  · rintro ⟨hstring, c, d, hc, hd, hnumber⟩
    refine h.1 ⟨(hopen text).symm ▸ hstring, c, d, ?_, hd, hnumber⟩
    rw [List.getLast?_append, hc]
    rfl
  · rintro ⟨front, e, f, back, c, rfl, hrest, he, hf, hstring, hescaped, hhex⟩
    refine h.2 ⟨b ++ front, e, f, back, c, (List.append_assoc ..).symm, hrest, he, hf, ?_, ?_, hhex⟩
    · rw [hopen, hstring]
    · rw [hopen, hescaped]

/-- A list that is cut is what is left of its items. -/
theorem Cut.of_arr {items : List Json} {p : List Char} {j : Json}
    (h : Cut (.arr items) ('[' :: p) j) : ∃ es kept, es.map Prod.snd = items
    ∧ j = .arr (kept.map Prod.snd) ∧ CutEntries false es p kept := by
  generalize htext : '[' :: p = text at h
  cases h with
  | literal _ hwhole hread => cases (of_literal hwhole hread).1
  | arr h =>
      obtain rfl := (List.cons.inj htext).2
      exact ⟨_, _, rfl, rfl, h⟩

/-- A reply that starts with a region that can be read. -/
theorem items_of_region {text p region : List Char} {j : Json} (hfence : ¬ fence <:+: text)
    (htrim : trim text = '[' :: p) (hregion : regionAt? ('[' :: p) = some region)
    (hparse : parse? region = some j) : Reply.items text = records j := by
  have hfind : findInRegions? parse? ('[' :: p) = some j := by
    rw [findInRegions?, hregion, Option.bind_eq_bind, Option.bind_some, hparse]
  rw [Reply.items, payload_of_not_infix hfence, htrim, hfind]

theorem isBlank_bracket : Unicode.isBlank '[' = false := isBlank_of_printed (by decide) (by decide)

section
variable {n : Nat} {es : List (String × Json)} {l : List Item} {b b' s : List Char}

/-- A list of records that is whole in a reply is read as its records. -/
theorem items_of_whole (hb : Blank b) (hb' : Blank b') (hn : n < maxNesting)
    (hs : Text n (.entries false es) s) (hes : es.map Prod.snd = l.map .obj)
    (hfence : ¬ fence <:+: b ++ '[' :: (s ++ ']' :: b')) :
    Reply.items (b ++ '[' :: (s ++ ']' :: b')) = l.map sortedItem := by
  have hlist := (Text.arr hs).mono hn
  have htrim := trim_arr (allBlank_of_blank hb) hlist (allBlank_of_blank hb')
  rw [List.cons_append, List.append_assoc, List.singleton_append] at htrim
  have hread : parseChars? ('[' :: (s ++ [']'])) = some (.arr ((l.map sortedItem).map .obj)) :=
    parseChars?_records_iff.2 ⟨[], s, [], n, es, l, rfl, blank_nil, blank_nil, hn, hs, hes, rfl⟩
  have hparse : parse? ('[' :: (s ++ [']'])) = some (.arr ((l.map sortedItem).map .obj)) := by
    rw [parse?, hread]
  rw [items_of_region hfence htrim (regionAt?_arr hlist) hparse, records_objects]

/-- Of a list of records that is cut off in a reply the whole records are read, and at most one
more. -/
theorem items_of_cut {p r : List Char} (hb : Blank b) (hn : n < maxNesting)
    (hs : Text n (.entries false es) (p ++ r)) (hes : es.map Prod.snd = l.map .obj)
    (hfence : ¬ fence <:+: b ++ '[' :: p) (hfair : Fair (b ++ '[' :: p) (r ++ ']' :: b')) :
    ∃ done more, Reply.items (b ++ '[' :: p) = done.map sortedItem ++ more ∧ more.length ≤ 1
      ∧ Longest n p done := by
  have hlist := (Text.arr hs).mono hn
  have htrim : trimEnd ('[' :: p) = '[' :: trimEnd p :=
    trimEnd_append_of_solid (solid_singleton isBlank_bracket) p
  have hsplit : '[' :: (p ++ r ++ [']']) = '[' :: p ++ (r ++ [']']) := by simp
  have hfair' : Fair ([] ++ '[' :: p) (r ++ [']'] ++ b') := by
    simpa using hfair.of_blank_append hb
  obtain ⟨w, hcut, -, hparse⟩ := parse?_bracket (.inl rfl) hlist blank_nil hsplit
    (List.cons_ne_nil _ _) (List.append_ne_nil_of_right_ne_nil r (List.cons_ne_nil _ _)) hfair'
  obtain ⟨es', kept, hes', rfl, hentries⟩ := hcut.of_arr
  obtain ⟨done, more, hkept, hmore, hlongest⟩ := hentries.longest (hes'.trans hes) hs hes
  have hregion : regionAt? ('[' :: trimEnd p) = some ('[' :: trimEnd p) := by
    have hpair : closerOf? '[' = some ']' := rfl
    obtain ⟨c, hp, -⟩ := exists_trimEnd_append p
    have htrimmed : '[' :: (p ++ r ++ [']']) = '[' :: trimEnd p ++ (c ++ (r ++ [']'])) := by
      rw [hsplit, List.cons_append, List.cons_append, ← List.append_assoc (trimEnd p), ← hp]
    exact regionAt?_cut hpair (passes_text hpair hs) htrimmed (by simp)
  rw [List.nil_append, htrim, hkept, sorted_records] at hparse
  have htext : trim (b ++ '[' :: p) = '[' :: trimEnd p := by
    rw [trim_blank_append (allBlank_of_blank hb), trim_cons isBlank_bracket]
  refine ⟨done, more.map sortedItem, ?_, by rwa [List.length_map], hlongest⟩
  rw [items_of_region hfence htext hregion hparse, records_objects, List.map_append]

end

/-- A reply that holds a list of records up to some point is read as all records that are whole in
it, in their order, and at most one more. The point may be anywhere behind the bracket of the list,
but for numbers and escapes by hexadecimal digits that are no such there. -/
theorem items_of_truncated {text rest : List Char} {xs : List Item}
    (hread : parseChars? (text ++ rest) = some (.arr (xs.map .obj))) (htext : ¬ Blank text)
    (hfence : ¬ fence <:+: text) (hfair : FairStart text) :
    ∃ done more, Reply.items text = done ++ more ∧ more.length ≤ 1 ∧ done <+: xs
      ∧ Complete text done ∧ ∀ ys, Complete text ys → ys <+: done := by
  obtain ⟨rest', xs', hread', hfair⟩ := hfair
  obtain ⟨b, s, b', n, es, l, hsplit, hb, hb', hn, hs, hes, rfl⟩ := parseChars?_records_iff.1 hread'
  obtain ⟨p, rfl, hlist⟩ : ∃ p, text = b ++ '[' :: p ∧ s ++ ']' :: b' = p ++ rest' := by
    rcases start_append hsplit.symm with ⟨b₂, rfl, -⟩ | ⟨c, p, rfl, hbracket⟩
    · exact absurd (fun c hc => hb c (List.mem_append_left _ hc)) htext
    · obtain ⟨rfl, hlist⟩ := List.cons.inj hbracket
      exact ⟨p, rfl, hlist⟩
  obtain ⟨done, more, hitems, hmore, hlongest⟩ : ∃ done more,
      Reply.items (b ++ '[' :: p) = done.map sortedItem ++ more ∧ more.length ≤ 1
        ∧ Longest n p done := by
    rcases start_append hlist with ⟨r, rfl, rfl⟩ | ⟨c, p, rfl, hback⟩
    · exact items_of_cut hb hn hs hes hfence hfair
    · -- the list is whole, and blanks are cut off
      obtain ⟨rfl, rfl⟩ := List.cons.inj hback
      have hblank : Blank p := fun c hc => hb' c (List.mem_append_left _ hc)
      refine ⟨l, [], ?_, Nat.zero_le 1, longest_entries hs hes p⟩
      rw [items_of_whole hb hblank hn hs hes hfence, List.append_nil]
  have hdone : Complete (b ++ '[' :: p) (done.map sortedItem) :=
    (complete_iff hb).2 ⟨n, done, hn, rfl, hlongest.complete⟩
  -- the list that the text starts may be another one than the one that completes it fairly
  refine ⟨_, more, hitems, hmore, hdone.prefix_of_read hread, hdone, fun ys hys => ?_⟩
  obtain ⟨m, l', -, rfl, hl'⟩ := (complete_iff hb).1 hys
  exact (hlongest.longest hl').map sortedItem

/-- A list that ends behind the first digit of a number: it is read as if the number ended there. -/
theorem items_of_truncated_digit :
    let text := ['[', '\x7b', '"', 'a', '"', ':', '1', '\x7d', ',', '\x7b', '"', 'b', '"', ':', '1']
    [[("a", .num (.int 1))]] <+: Reply.items text := by
  intro text
  have hread : parseChars? (text ++ ['2', '\x7d', ']'])
      = some (.arr ([[("a", .num (.int 1))], [("b", .num (.int 12))]].map .obj)) := rfl
  have hend : parseChars? (text ++ ['\x7d', ']'])
      = some (.arr ([[("a", .num (.int 1))], [("b", .num (.int 1))]].map .obj)) := rfl
  have htext : ¬ Blank text := fun hblank => absurd (hblank '[' (by decide)) (by decide)
  have hfair : FairStart text := by
    refine ⟨_, _, hend, ?_, not_withinEscape (by decide)⟩
    rintro ⟨-, c, d, -, hd, -, hnumber⟩
    cases hd
    cases hnumber
  have hfirst : Complete text [[("a", .num (.int 1))]] :=
    ⟨text.take 8, List.take_prefix 8 text, rfl⟩
  obtain ⟨done, more, hitems, -, -, -, hlongest⟩ := items_of_truncated hread htext (by decide) hfair
  rw [hitems]
  exact (hlongest _ hfirst).trans (List.prefix_append _ _)

/-- A list that ends behind the sign of a number: the repair fails, and of the two whole records the
second is lost. -/
theorem items_lost_at_sign :
    let text := ['[', '\x7b', '"', 'a', '"', ':', '1', '\x7d', ',',
      '\x7b', '"', 'b', '"', ':', '2', '\x7d', ',', '\x7b', '"', 'c', '"', ':', '-']
    (∃ xs, parseChars? (text ++ ['1', '\x7d', ']']) = some (.arr (List.map Json.obj xs)))
      ∧ Complete text [[("a", .num (.int 1))], [("b", .num (.int 2))]]
      ∧ Reply.items text = [[("a", .num (.int 1))]] := by
  intro text
  have hlist : closerOf? '[' = some ']' := rfl
  have hrecord : closerOf? '\x7b' = some '\x7d' := rfl
  have hread : parseChars? (text ++ ['1', '\x7d', ']']) = some (.arr
      ([[("a", .num (.int 1))], [("b", .num (.int 2))], [("c", .num (.int (-1)))]].map .obj)) := rfl
  have hpayload : payload text = trim text := payload_of_not_infix (by decide)
  have htrim : trim text = text := trim_of_printed (by decide) (by decide)
  -- the whole reply is a region, as it is cut off
  have hregion : regionAt? text = some text := by
    have hpasses := passes_of_read (s := text.tail ++ ['1', '\x7d']) hlist hread
    have hsplit : '[' :: (text.tail ++ ['1', '\x7d'] ++ [']']) = text ++ ['1', '\x7d', ']'] := rfl
    exact regionAt?_cut hlist hpasses hsplit (List.cons_ne_nil _ _)
  -- the sign is left as it is, and only the brackets are closed behind it
  have hrepair : repair text = text ++ ['\x7d', ']'] := by
    have hstate : openings text = outside ['\x7b', '['] := rfl
    have hsign : Unicode.isBlank '-' = false := isBlank_of_printed (by decide) (by decide)
    have hliteral : completeLiteral text = text :=
      completeLiteral_of_mem (s := text.dropLast) (t := []) hsign rfl nofun nofun
    have hfinish : finish text = completeLiteral text :=
      finish_of_last (t := text.dropLast) rfl hsign (by decide) (by decide) fun _ =>
        dropLoneKey?_of_last (s := text.dropLast) hsign (by decide)
    rw [repair_eq, mend_outside (by rw [hstate]; rfl), hfinish, hliteral, closeBrackets, hstate]
    rfl
  have hunread : parse? text = none := by
    rw [parse?, hrepair]
    rfl
  have hmember : parseChars? ('\x7b' :: (['"', 'a', '"', ':', '1'] ++ ['\x7d']))
      = some (.obj [("a", .num (.int 1))]) := rfl
  have hfirst := regionAt?_brackets hrecord (passes_of_read hrecord hmember) (text.drop 8)
  -- the next region is the first record, which is read; the second is never reached
  have hregions : regions text
      = text :: ('\x7b' :: (['"', 'a', '"', ':', '1'] ++ ['\x7d'])) :: regions (text.drop 2) := by
    show (regionAt? text).toList ++ ((regionAt? text.tail).toList ++ regions (text.drop 2)) = _
    rw [hregion, show regionAt? text.tail = _ from hfirst]
    rfl
  have hfind : findInRegions? parse? text = some (.obj [("a", .num (.int 1))]) := by
    rw [findInRegions?_eq, hregions, List.findSome?_cons, hunread, List.findSome?_cons, parse?,
      hmember]
  refine ⟨⟨_, hread⟩, ⟨text.take 16, List.take_prefix 16 text, rfl⟩, ?_⟩
  rw [Reply.items, hpayload, htrim, hfind]
  rfl

end CodeAtlas.Reply
