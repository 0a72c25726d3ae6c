import CodeAtlas.Proofs.Json.Grammar
import CodeAtlas.Proofs.Reply.Mend
import CodeAtlas.Proofs.Text.Trim
import CodeAtlas.Reply.Repair

/-!
# Repairing a document that was cut off

A text that is cut off within brackets has a value of its own. Whole entries in front of the cut
are kept, and at most one more follows them, the one in which the text ends, cut off itself. A key
without its colon is no entry, and a key with its colon has `null` until a value starts. Of a string
remains what stands before the cut, but for white space at its end; of a literal any letter is
enough. A number, and an escape by hexadecimal digits, may not be cut in two.

A document that is cut off within its brackets is repaired to the value of what is left of it. This
is shown along the parts of its text, for each in any place of a larger text: the repair leaves
whole entries in front of the cut, and what it makes of the part that is cut is a text of what
remains of it, once the brackets are closed that are open there.
-/

namespace CodeAtlas.Reply

open Json Text

/-! ## What is left of a document -/

/-- Whether a cut is strictly within a number. -/
def WithinNumber (text rest : List Char) : Prop :=
  (openings text).inString = false ∧ ∃ c d, text.getLast? = some c ∧ rest.head? = some d
    ∧ isNumberChar c = true ∧ isNumberChar d = true

/-- Whether a cut is strictly within an escape by hexadecimal digits. -/
def WithinEscape (text rest : List Char) : Prop :=
  ∃ front e f back c, text = front ++ e ∧ rest = f ++ back ∧ e ≠ [] ∧ f ≠ []
    ∧ (openings front).inString = true ∧ (openings front).escaped = false ∧ HexEscape (e ++ f) c

/-- Whether a text spells the first characters of a string, with a lone backslash behind it or
without. -/
def SpellsStart (text : List Char) (start whole : String) : Prop :=
  ∃ q, (text = q ∨ text = q ++ ['\\']) ∧ readString? [] (q ++ ['"']) = some (start, [])
    ∧ start.toList <+: whole.toList

/-- Whether a text holds a whole entry of an array or an object. -/
def Whole (keyed : Bool) (e : String × Json) (text : List Char) : Prop :=
  if keyed then ∃ rest, readKey? text = some (e.1, rest) ∧ readChars? rest = some e.2
  else readChars? text = some e.2

mutual

/-- The value of a text of a document that is cut off before its end. -/
inductive Cut : Json → List Char → Json → Prop
  | str {whole start kept : String} {text : List Char} {b : List Char}
      (hstart : SpellsStart text start whole) (hkept : start.toList = kept.toList ++ b)
      (hb : AllBlank b) : Cut (.str whole) ('"' :: text) (.str kept)
  | literal {j : Json} {text rest : List Char} (hne : text ≠ [])
      (hwhole : text ++ rest ∈ literals) (hread : readChars? (text ++ rest) = some j) : Cut j text j
  | arr {items kept : List (String × Json)} {text : List Char}
      (h : CutEntries false items text kept) :
      Cut (.arr (items.map Prod.snd)) ('[' :: text) (.arr (kept.map Prod.snd))
  | obj {members kept : List (String × Json)} {text : List Char}
      (h : CutEntries true members text kept) : Cut (.obj members) ('\x7b' :: text) (.obj kept)

/-- What remains of an entry whose text is cut off before its end, if anything. -/
inductive CutEntry : Bool → String × Json → List Char → Option (String × Json) → Prop
  | item {key : String} {j kept : Json} {text : List Char} (h : Cut j text kept) :
      CutEntry false (key, j) text (some (key, kept))
  | openKey {key start : String} {j : Json} {text : List Char}
      (hstart : SpellsStart text start key) : CutEntry true (key, j) ('"' :: text) none
  | loneKey {key : String} {j : Json} {text : List Char}
      (hkey : readKey? (text ++ [':']) = some (key, [])) : CutEntry true (key, j) text none
  | colon {key : String} {j : Json} {text b : List Char} (hkey : readKey? text = some (key, b))
      (hb : Blank b) : CutEntry true (key, j) text (some (key, .null))
  | value {key : String} {j kept : Json} {text b rest : List Char}
      (hkey : readKey? text = some (key, b)) (hb : Blank b) (h : Cut j rest kept) :
      CutEntry true (key, j) (text ++ rest) (some (key, kept))

/-- What remains of entries whose text is cut off. -/
inductive CutEntries :
    Bool → List (String × Json) → List Char → List (String × Json) → Prop
  | nothing {keyed : Bool} {es : List (String × Json)} {text : List Char} (hb : Blank text) :
      CutEntries keyed es text []
  | whole {keyed : Bool} {e : String × Json} {es : List (String × Json)} {text : List Char}
      (hwhole : Whole keyed e text) : CutEntries keyed (e :: es) text [e]
  | next {keyed : Bool} {e : String × Json} {es kept : List (String × Json)}
      {text rest : List Char} (hwhole : Whole keyed e text) (h : CutEntries keyed es rest kept) :
      CutEntries keyed (e :: es) (text ++ ',' :: rest) (e :: kept)
  | part {keyed : Bool} {e : String × Json} {es : List (String × Json)} {text b : List Char}
      {kept : Option (String × Json)} (hb : Blank b) (h : CutEntry keyed e text kept) :
      CutEntries keyed (e :: es) (b ++ text) kept.toList

end

/-! ## Cuts -/

/-- A cut that is neither within a number nor within an escape by hexadecimal digits. -/
def Fair (text rest : List Char) : Prop := ¬ WithinNumber text rest ∧ ¬ WithinEscape text rest

/-- What the repair makes of a text `a ++ p` whose last part `p` is cut off: with `x` instead, and
`inner` open in it. -/
structure Leaves (stack a p x inner : List Char) : Prop where
  mends : mend (a ++ p) = a ++ x
  state : openings (a ++ x) = outside (inner ++ stack)
  brackets : (openings (a ++ p)).brackets = inner ++ stack

/-- The repair drops what is cut off in the place of an entry. -/
structure Clears (σ : Spot) (p : List Char) : Prop where
  mends : mend (σ.text ++ p) = σ.cleared
  brackets : (openings (σ.text ++ p)).brackets = σ.stack

/-! ## Prefixes -/

/-- A start of two lists is one of the first, or goes on in the second. -/
theorem start_append {α : Type} {a c p r : List α} (h : a ++ c = p ++ r) :
    (∃ a', a = p ++ a' ∧ r = a' ++ c) ∨ ∃ x p', p = a ++ x :: p' ∧ c = x :: (p' ++ r) := by
  rcases List.append_eq_append_iff.1 h with ⟨p', rfl, rfl⟩ | ⟨a', rfl, rfl⟩
  · cases p' with
    | nil => exact .inl ⟨[], by simp, rfl⟩
    | cons x p' => exact .inr ⟨x, p', rfl, rfl⟩
  · exact .inl ⟨a', rfl, rfl⟩

/-- A start of what stands between two characters, from the first of them on. -/
theorem start_between {c d : Char} {s p r : List Char} (h : c :: (s ++ [d]) = p ++ r)
    (hp : p ≠ []) (hr : r ≠ []) : ∃ p' r', p = c :: p' ∧ r = r' ++ [d] ∧ s = p' ++ r' := by
  obtain ⟨c', p, rfl⟩ := List.exists_cons_of_ne_nil hp
  obtain ⟨rfl, hrest⟩ : c = c' ∧ s ++ [d] = p ++ r := List.cons.inj h
  rcases start_append hrest with ⟨r', hs, rfl⟩ | ⟨x, p', rfl, hlast⟩
  · exact ⟨p, r', rfl, rfl, hs⟩
  · obtain ⟨-, hnil⟩ := List.cons.inj hlast
    exact absurd (List.append_eq_nil_iff.1 hnil.symm).2 hr

/-- Where a cut falls in what spells some characters: behind one, behind a backslash, or in an
escape by hexadecimal digits. -/
inductive SpellsCut (cs : List Char) : List Char → List Char → Prop
  | clean {q r shown : List Char} (hq : Spells q shown) (hshown : shown <+: cs) : SpellsCut cs q r
  | slash {q r shown : List Char} (hq : Spells q shown) (hshown : shown <+: cs) :
      SpellsCut cs (q ++ ['\\']) r
  | escape {q e f back shown : List Char} {c : Char} (hq : Spells q shown) (he : e ≠ [])
      (hf : f ≠ []) (hhex : HexEscape (e ++ f) c) : SpellsCut cs (q ++ e) (f ++ back)

/-- A character in front does not matter. -/
theorem SpellsCut.prepend {cs q r u : List Char} {d : Char} (h : SpellsCut cs q r)
    (hu : ∀ {s cs}, Spells s cs → Spells (u ++ s) (d :: cs)) : SpellsCut (d :: cs) (u ++ q) r := by
  cases h with
  | clean hq hshown => exact .clean (hu hq) (List.cons_prefix_cons.2 ⟨rfl, hshown⟩)
  | slash hq hshown =>
      rw [← List.append_assoc]
      exact .slash (hu hq) (List.cons_prefix_cons.2 ⟨rfl, hshown⟩)
  | escape hq he hf hhex =>
      rw [← List.append_assoc]
      exact .escape (hu hq) he hf hhex

/-- Nothing of a spelling is a cut of it. -/
theorem spellsCut_nil (cs r : List Char) : SpellsCut cs [] r := .clean .nil List.nil_prefix

/-- A part of a spelling is a cut of it. -/
theorem spellsCut {k cs : List Char} (h : Spells k cs) {q r : List Char} (hk : k = q ++ r) :
    SpellsCut cs q r := by
  induction h generalizing q with
  | nil =>
      obtain ⟨rfl, -⟩ := List.append_eq_nil_iff.1 hk.symm
      exact spellsCut_nil _ _
  | @plain c s cs hquote hslash hcontrol _ ih =>
      cases q with
      | nil => exact spellsCut_nil _ _
      | cons c' q =>
          cases hk
          exact (ih rfl).prepend (u := [c]) (.plain hquote hslash hcontrol)
  | @letter c d s cs hd _ ih =>
      -- the cut is in front of the escape, within it, or behind it
      match q, hk with
      | [], _ => exact spellsCut_nil _ _
      | [_], hk =>
          cases hk
          exact .slash (q := []) .nil List.nil_prefix
      | _ :: _ :: q, hk =>
          cases hk
          exact (ih rfl).prepend (u := ['\\', c]) (.letter hd)
  | @hex u d s cs hu _ ih =>
      rcases start_append hk with ⟨f, rfl, rfl⟩ | ⟨x, p, rfl, hs⟩
      · by_cases hf : f = []
        · subst hf
          rw [List.append_nil] at hu
          have hcut := (spellsCut_nil cs ([] ++ s)).prepend fun h => .hex hu h
          rwa [List.append_nil] at hcut
        · by_cases hq : q = []
          · subst hq
            exact spellsCut_nil _ _
          · exact .escape (q := []) .nil hq hf hu
      · exact (ih hs).prepend fun h => .hex hu h

/-- A fair cut in a string is behind a character of it, or behind a backslash. -/
theorem exists_of_fair {a k cs p r back stack : List Char} (ha : openings a = outside stack)
    (h : Spells k cs) (hk : k = p ++ r) (hfair : Fair (a ++ '"' :: p) (r ++ back)) :
    ∃ q shown, (p = q ∨ p = q ++ ['\\']) ∧ Spells q shown ∧ shown <+: cs := by
  cases spellsCut h hk with
  | clean hq hshown => exact ⟨p, _, .inl rfl, hq, hshown⟩
  | slash hq hshown => exact ⟨_, _, .inr rfl, hq, hshown⟩
  | @escape q e f back' shown c hq he hf hhex =>
      refine absurd ?_ hfair.2
      have hstate := openings_quote ha hq
      refine ⟨a ++ '"' :: q, e, f, back' ++ back, c, ?_, ?_, he, hf, ?_, ?_, hhex⟩
      · simp
      · simp
      · rw [hstate]; rfl
      · rw [hstate]; rfl

/-- A part of a spelling, with a lone backslash behind it or not, starts it. -/
theorem spellsStart {p q shown cs : List Char} (hp : p = q ∨ p = q ++ ['\\']) (hq : Spells q shown)
    (hshown : shown <+: cs) : SpellsStart p (String.ofList shown) (String.ofList cs) := by
  refine ⟨q, hp, ?_, ?_⟩
  · exact readString?_spells hq [] []
  · rw [String.toList_ofList, String.toList_ofList]
    exact hshown

/-- A string that ends in a backslash leaves the brackets that were open. -/
theorem brackets_backslash {a stack q cs : List Char} (ha : openings a = outside stack)
    (hq : Spells q cs) : (openings (a ++ '"' :: (q ++ ['\\']))).brackets = stack := by
  have hsplit : a ++ '"' :: (q ++ ['\\']) = (a ++ '"' :: q) ++ ['\\'] := by simp
  rw [hsplit, openings_append, openings_quote ha hq]
  rfl

/-! ## What the repair makes of the parts -/

/-- The repair of a value that is cut off. -/
def ValueCut (n : Nat) (j : Json) (s : List Char) : Prop :=
  ∀ ⦃σ : Spot⦄ ⦃p r back : List Char⦄, σ.ForValue → s = p ++ r → p ≠ [] → r ≠ [] →
    Fair (σ.text ++ p) (r ++ back) → ∃ w x inner, Cut j p w
      ∧ Text n (.value w) (x ++ inner.map closing) ∧ Leaves σ.stack σ.text p x inner

/-- The repair of an entry that is cut off. -/
def EntryCut (n : Nat) (keyed : Bool) (e : String × Json) (s : List Char) : Prop :=
  ∀ ⦃σ : Spot⦄ ⦃p r back : List Char⦄, σ.ForEntry keyed → s = p ++ r → p ≠ [] → r ≠ [] →
    Fair (σ.text ++ p) (r ++ back) →
      (∃ w x inner, CutEntry keyed e p (some w)
        ∧ Text n (.entry keyed w) (x ++ inner.map closing) ∧ Leaves σ.stack σ.text p x inner)
      ∨ CutEntry keyed e p none ∧ Clears σ p

/-- The repair of entries that are cut off, or whose bracket is. -/
def EntriesCut (n : Nat) (keyed : Bool) (es : List (String × Json)) (s : List Char) : Prop :=
  ∀ ⦃σ : Spot⦄ ⦃p r back : List Char⦄, σ.ForEntry keyed → s = p ++ r →
    Fair (σ.text ++ p) (r ++ back) →
      (∃ w ws x inner, CutEntries keyed es p (w :: ws)
        ∧ Text n (.entries keyed (w :: ws)) (x ++ inner.map closing)
        ∧ Leaves σ.stack σ.text p x inner)
      ∨ CutEntries keyed es p [] ∧ Clears σ p

/-- The repair of a part that is cut off. -/
def FormCut (n : Nat) (s : List Char) : Form → Prop
  | .value j => ValueCut n j s
  | .entry keyed e => EntryCut n keyed e s
  | .entries keyed es => EntriesCut n keyed es s
  | .more keyed es => s = [] ∨ ∃ t, s = ',' :: t ∧ EntriesCut n keyed es t

variable {n : Nat}

/-- A literal that is cut is none or completed. -/
theorem valueCut_literal {j : Json} {s : List Char} (hs : s ∈ literals)
    (hread : readChars? s = some j) (htext : ∀ n, Text n (.value j) s) : ValueCut n j s := by
  intro σ p r back hσ hsplit hp hr _
  have hletters : ∀ c ∈ p, isLiteralChar c = true := by
    intro c hc
    exact mem_literals hs c (hsplit ▸ List.mem_append_left _ hc)
  have hmend := mend_literal hσ hs hsplit hp hr
  rw [hsplit] at hs hread
  refine ⟨j, s, [], .literal hp hs hread, ?_, ?_, Spot.state_append (htext 0), ?_⟩
  · rw [List.map_nil, List.append_nil]
    exact htext n
  · exact hmend
  · rw [openings_append, Spot.text, σ.state,
      foldl_neutral fun c hc => neutral_of_isLiteralChar (hletters c hc)]
    rfl

/-- A number that is cut is whole or none. -/
theorem valueCut_number {x : Json.Number} {s : List Char} (h : readNumber? s = some (x, [])) :
    ValueCut n (.num x) s := by
  intro σ p r back _ hsplit hp hr hfair
  obtain ⟨-, hchars⟩ := isNumberChar_of_readNumber? h
  refine absurd ⟨?_, ?_⟩ hfair.1
  · rw [openings_append, Spot.text, σ.state, foldl_neutral]
    · rfl
    · intro c hc
      exact neutral_of_isNumberChar (hchars c (hsplit ▸ List.mem_append_left _ hc))
  · obtain ⟨d, r, rfl⟩ := List.exists_cons_of_ne_nil hr
    rcases List.eq_nil_or_concat p with rfl | ⟨p, c, rfl⟩
    · exact absurd rfl hp
    · rw [List.concat_eq_append] at hsplit ⊢
      refine ⟨c, d, ?_, rfl, hchars c ?_, hchars d ?_⟩
      · rw [← List.append_assoc, List.getLast?_concat]
      · rw [hsplit]
        simp
      · rw [hsplit]
        simp

/-- A string that is cut is closed. -/
theorem valueCut_string {k cs : List Char} (hk : Spells k cs) :
    ValueCut n (.str (String.ofList cs)) ('"' :: (k ++ ['"'])) := by
  intro σ p r back hσ hsplit hp hr hfair
  obtain ⟨p, r, rfl, rfl, hk'⟩ := start_between hsplit hp hr
  rw [List.append_assoc] at hfair
  obtain ⟨q, shown, rfl | rfl, hq, hshown⟩ := exists_of_fair σ.state hk hk' hfair
  · obtain ⟨q', cs', b, rfl, hb, hq', hmend⟩ := mend_openString hσ hq
    refine ⟨.str (String.ofList cs'), '"' :: (q' ++ ['"']), [], ?_, ?_, hmend,
      Spot.state_append (Text.str (n := 0) hq'), ?_⟩
    · exact .str (spellsStart (.inl rfl) hq hshown) (by simp) hb
    · rw [List.map_nil, List.append_nil]
      exact .str hq'
    · rw [Spot.text, openings_quote σ.state hq]
      rfl
  · refine ⟨.str (String.ofList shown), '"' :: (q ++ ['"']), [], ?_, ?_, mend_backslash hσ hq,
      Spot.state_append (Text.str (n := 0) hq), ?_⟩
    · exact .str (spellsStart (.inr rfl) hq hshown) (List.append_nil _).symm
        (List.forall_mem_nil _)
    · rw [List.map_nil, List.append_nil]
      exact .str hq
    · exact brackets_backslash σ.state hq

/-- The place behind a bracket. -/
def openerSpot (keyed : Bool) {a stack : List Char} (ha : openings a = outside stack) : Spot where
  before := a
  mark := Spot.opener keyed
  blanks := []
  stack := Spot.opener keyed :: stack
  blank := blank_nil
  state := by
    rw [openings_append, ha]
    cases keyed <;> rfl

/-- Brackets with some of their entries behind any text. -/
theorem leaves_entries {keyed : Bool} {es : List (String × Json)} {s a p r back stack : List Char}
    (h : EntriesCut n keyed es s) (ha : openings a = outside stack) (hsplit : s = p ++ r)
    (hfair : Fair (a ++ Spot.opener keyed :: p) (r ++ back)) :
    ∃ ws x inner, CutEntries keyed es p ws ∧ Text n (.entries keyed ws) (x ++ inner.map closing)
      ∧ Leaves stack a (Spot.opener keyed :: p) (Spot.opener keyed :: x)
          (inner ++ [Spot.opener keyed]) := by
  have htext : ∀ t, (openerSpot keyed ha).text ++ t = a ++ Spot.opener keyed :: t := by
    intro t
    simp [Spot.text, openerSpot]
  have hentry : (openerSpot keyed ha).ForEntry keyed := ⟨rfl, .inl rfl⟩
  rw [← htext] at hfair
  rcases h hentry hsplit hfair with ⟨w, ws, x, inner, hcut, hws, hleaves⟩ | ⟨hcut, hclears⟩
  · obtain ⟨hmends, hstate, hbrackets⟩ := hleaves
    rw [htext, htext] at hmends
    rw [htext] at hstate hbrackets
    refine ⟨w :: ws, x, inner, hcut, hws, hmends, ?_, ?_⟩
    · rw [hstate, List.append_assoc]
      rfl
    · rw [hbrackets, List.append_assoc]
      rfl
  · obtain ⟨hmends, hbrackets⟩ := hclears
    have hmark : Spot.opener keyed ≠ ',' := by
      cases keyed <;> decide
    have hcleared : (openerSpot keyed ha).cleared = a ++ [Spot.opener keyed] := if_neg hmark
    rw [htext, hcleared] at hmends
    rw [htext] at hbrackets
    refine ⟨[], [], [], hcut, .nil blank_nil, hmends, ?_, hbrackets⟩
    exact (openerSpot keyed ha).state

/-- The brackets that close what is open in some entries close the entries as well. -/
theorem closing_opener (keyed : Bool) (x inner : List Char) :
    Spot.opener keyed :: x ++ (inner ++ [Spot.opener keyed]).map closing
      = Spot.opener keyed :: (x ++ inner.map closing ++ [closing (Spot.opener keyed)]) := by
  simp

/-- A list that is cut is what is left of its entries. -/
theorem valueCut_arr {es : List (String × Json)} {s : List Char} (h : EntriesCut n false es s) :
    ValueCut (n + 1) (.arr (es.map Prod.snd)) ('[' :: (s ++ [']'])) := by
  intro σ p r back _ hsplit hp hr hfair
  obtain ⟨p, r, rfl, rfl, hs⟩ := start_between hsplit hp hr
  rw [List.append_assoc] at hfair
  obtain ⟨ws, x, inner, hcut, hws, hleaves⟩ := leaves_entries h σ.state hs hfair
  refine ⟨.arr (ws.map Prod.snd), _, _, .arr hcut, ?_, hleaves⟩
  rw [closing_opener]
  exact .arr hws

/-- An object that is cut is what is left of its entries. -/
theorem valueCut_obj {es : List (String × Json)} {s : List Char} (h : EntriesCut n true es s) :
    ValueCut (n + 1) (.obj es) ('\x7b' :: (s ++ ['\x7d'])) := by
  intro σ p r back _ hsplit hp hr hfair
  obtain ⟨p, r, rfl, rfl, hs⟩ := start_between hsplit hp hr
  rw [List.append_assoc] at hfair
  obtain ⟨ws, x, inner, hcut, hws, hleaves⟩ := leaves_entries h σ.state hs hfair
  refine ⟨.obj ws, _, _, .obj hcut, ?_, hleaves⟩
  rw [closing_opener]
  exact .obj hws

/-! ## Members -/

/-- The place behind the colon of a key. -/
def Spot.colon (σ : Spot) {k cs b b' : List Char} (hk : Spells k cs) (hb : Blank b)
    (hb' : Blank b') : Spot where
  before := σ.text ++ '"' :: (k ++ '"' :: b)
  mark := ':'
  blanks := b'
  stack := σ.stack
  blank := hb'
  state := by
    have hcolon : (outside σ.stack).step ':' = outside σ.stack := rfl
    rw [openings_append, openings_append, Spot.text, σ.state, foldl_quoted hk, foldl_blank hb,
      List.foldl_cons, hcolon, foldl_blank hb']

/-- Behind a key and a colon there is a place for a value. -/
theorem Spot.text_colon (σ : Spot) {k cs b b' : List Char} (hk : Spells k cs) (hb : Blank b)
    (hb' : Blank b') (s : List Char) :
    (σ.colon hk hb hb').text ++ s = σ.text ++ '"' :: (k ++ '"' :: (b ++ ':' :: (b' ++ s))) := by
  simp [colon, text]

/-- An item that is cut is what is left of its value. -/
theorem entryCut_item {key : String} {j : Json} {s : List Char} (h : ValueCut n j s) :
    EntryCut n false (key, j) s := by
  intro σ p r back hσ hsplit hp hr hfair
  obtain ⟨w, x, inner, hcut, hw, hleaves⟩ := h hσ.forValue hsplit hp hr hfair
  exact .inl ⟨(key, w), x, inner, .item hcut, .item hw, hleaves⟩

/-- A member that is cut is what is left of its value, or nothing. -/
theorem entryCut_member {j : Json} {k cs b b' s : List Char} (hk : Spells k cs) (hb : Blank b)
    (hb' : Blank b') (h : ValueCut n j s) : EntryCut n true (String.ofList cs, j)
      ('"' :: (k ++ '"' :: (b ++ ':' :: (b' ++ s)))) := by
  intro σ p r back hσ hsplit hp hr hfair
  obtain ⟨c, p, rfl⟩ := List.exists_cons_of_ne_nil hp
  obtain ⟨rfl, hfront⟩ := List.cons.inj hsplit
  rcases start_append hfront with ⟨r, hkey, rfl⟩ | ⟨c, p, rfl, hquote⟩
  · -- within the key
    right
    rw [List.append_assoc] at hfair
    obtain ⟨q, shown, hpq, hq, hshown⟩ := exists_of_fair σ.state hk hkey hfair
    obtain ⟨hopen, hslash⟩ := mend_openKey hσ hq
    refine ⟨.openKey (spellsStart hpq hq hshown), ?_⟩
    rcases hpq with rfl | rfl
    · refine ⟨hopen, ?_⟩
      rw [Spot.text, openings_quote σ.state hq]
      rfl
    · exact ⟨hslash, brackets_backslash σ.state hq⟩
  · obtain ⟨rfl, hbehind⟩ := List.cons.inj hquote
    rcases start_append hbehind with ⟨b₂, rfl, rfl⟩ | ⟨c, p, rfl, hcolon⟩
    · -- between the key and the colon
      right
      have hblank : Blank p := fun c hc => hb c (List.mem_append_left _ hc)
      refine ⟨.loneKey ?_, mend_loneKey hσ hk (allBlank_of_blank hblank), ?_⟩
      · have hkey := readKey?_of_spells hk hblank []
        simpa using hkey
      · rw [openings_append, Spot.text, σ.state, foldl_quoted hk, foldl_blank hblank]
        rfl
    · left
      obtain ⟨rfl, hvalue⟩ := List.cons.inj hcolon
      rcases start_append hvalue with ⟨b₂, rfl, rfl⟩ | ⟨c, p, rfl, rfl⟩
      · -- between the colon and the value
        have hblank : Blank p := fun c hc => hb' c (List.mem_append_left _ hc)
        have hstate := (σ.colon hk hb hblank).state
        have hmend := mend_colon hstate (allBlank_of_blank hblank)
        have hspace : Blank [' '] := blank_cons.2 ⟨rfl, blank_nil⟩
        have hnull := (σ.colon hk hb hspace).state_append (Text.null (n := 0))
        refine ⟨(String.ofList cs, .null),
          '"' :: (k ++ '"' :: (b ++ ':' :: ([' '] ++ ['n', 'u', 'l', 'l']))), [],
          .colon (readKey?_of_spells hk hb p) hblank, ?_, ?_, ?_, ?_⟩
        · rw [List.map_nil, List.append_nil]
          exact .member hk hb hspace .null
        · simpa [Spot.colon] using hmend
        · rw [Spot.text_colon] at hnull
          exact hnull
        · have hbrackets := congrArg Openings.brackets hstate
          simpa [Spot.colon, outside] using hbrackets
      · -- within the value
        have hcolon := σ.text_colon hk hb hb' (c :: p)
        have hspot : (σ.colon hk hb hb').ForValue := .inl rfl
        have hsplit : c :: (p ++ r) = c :: p ++ r := rfl
        rw [← hcolon] at hfair
        obtain ⟨w, x, inner, hcut, hw, hmends, hstate, hbrackets⟩ :=
          h hspot hsplit (List.cons_ne_nil c p) hr hfair
        rw [hcolon, Spot.text_colon] at hmends
        rw [Spot.text_colon] at hstate
        rw [hcolon] at hbrackets
        refine ⟨(String.ofList cs, w), _, inner, ?_, ?_, hmends, hstate, hbrackets⟩
        · have hvalue := CutEntry.value (readKey?_of_spells hk hb b') hb' hcut
          simpa using hvalue
        · have hmember := Text.member hk hb hb' hw
          simpa using hmember

/-! ## Entries -/

/-- Behind a whole entry the repair takes the blanks only. -/
theorem mend_entry {σ : Spot} {keyed : Bool} {e : String × Json} {s b : List Char}
    (hσ : σ.ForEntry keyed) (h : Text n (.entry keyed e) s) (hb : Blank b) :
    mend (σ.text ++ (s ++ b)) = σ.text ++ s := by
  cases h with
  | item h => exact mend_value hσ.forValue h (allBlank_of_blank hb)
  | member hk hb₁ hb₂ h =>
      have hspot : (σ.colon hk hb₁ hb₂).ForValue := .inl rfl
      have hmend := mend_value hspot h (allBlank_of_blank hb)
      rw [Spot.text_colon, Spot.text_colon] at hmend
      simpa using hmend

/-- The text of an entry with white space around it is whole. -/
theorem whole_of_text {keyed : Bool} {e : String × Json} {s b b' : List Char} (hn : n ≤ maxNesting)
    (hb : Blank b) (h : Text n (.entry keyed e) s) (hb' : Blank b') :
    Whole keyed e (b ++ (s ++ b')) := by
  cases h with
  | item h => exact readChars?_of_text hb (h.mono hn) hb'
  | @member _ _ _ _ b₁ b₂ _ hk hb₁ hb₂ h =>
      refine ⟨_, ?_, readChars?_of_text hb₂ (h.mono hn) hb'⟩
      rw [readKey?_blank hb]
      simpa using readKey?_of_spells hk hb₁ _

/-- The place behind the comma that follows an entry. -/
def Spot.comma (σ : Spot) {keyed : Bool} {e : String × Json} {s b : List Char}
    (h : Text n (.entry keyed e) s) (hb : Blank b) : Spot where
  before := σ.text ++ (s ++ b)
  mark := ','
  blanks := []
  stack := σ.stack
  blank := blank_nil
  state := by
    have hcomma : (outside σ.stack).step ',' = outside σ.stack := rfl
    rw [openings_append, openings_append, Spot.text, σ.state, List.foldl_append, foldl_text h,
      foldl_blank hb, List.foldl_cons, hcomma]
    rfl

/-- Behind blanks there is nothing to keep. -/
theorem clears_blank {σ : Spot} {keyed : Bool} (hσ : σ.ForEntry keyed) {b : List Char}
    (hb : Blank b) : Clears σ b := by
  have hblanks : (σ.behind hb).ForEntry keyed := hσ
  constructor
  · have hmend := mend_nothing hblanks
    rw [Spot.text_behind] at hmend
    exact hmend
  · rw [openings_append, Spot.text, σ.state, foldl_blank hb]
    rfl

/-- Of no entries nothing is cut but white space. -/
theorem entriesCut_nil {keyed : Bool} {b : List Char} (hb : Blank b) :
    EntriesCut n keyed [] b := by
  rintro σ p r back hσ rfl -
  have hblank : Blank p := fun c hc => hb c (List.mem_append_left _ hc)
  exact .inr ⟨.nothing hblank, clears_blank hσ hblank⟩

/-- The repair leaves a whole entry as it is, but for the blanks behind it. -/
theorem leaves_entry {keyed : Bool} {e : String × Json} {b s b' : List Char} (hb : Blank b)
    (he : Text n (.entry keyed e) s) (hb' : Blank b') {σ : Spot} (hσ : σ.ForEntry keyed) :
    Text n (.entries keyed [e]) (b ++ s) ∧ Leaves σ.stack σ.text (b ++ (s ++ b')) (b ++ s) [] := by
  have hblanks : (σ.behind hb).ForEntry keyed := hσ
  have hmend := mend_entry hblanks he hb'
  have hopen := (σ.behind hb).state_append he
  rw [Spot.text_behind, List.append_assoc] at hopen
  rw [Spot.text_behind, List.append_assoc, List.append_assoc] at hmend
  refine ⟨?_, hmend, hopen, ?_⟩
  · simpa using Text.cons hb blank_nil he .last
  · have hassoc : σ.text ++ (b ++ (s ++ b')) = (σ.text ++ (b ++ s)) ++ b' := by simp
    rw [hassoc, openings_append, hopen]
    exact congrArg Openings.brackets (foldl_blank hb')

/-- The repair of entries behind blanks, of which the text in front of the place is a part. -/
theorem EntriesCut.behind_comma {keyed : Bool} {e : String × Json} {es : List (String × Json)}
    {b s b' t : List Char} (hn : n ≤ maxNesting) (hb : Blank b) (hb' : Blank b')
    (he : Text n (.entry keyed e) s) (h : EntriesCut n keyed es t) {σ : Spot} {p r back : List Char}
    (hσ : σ.ForEntry keyed) (ht : t = p ++ r)
    (hfair : Fair (σ.text ++ (b ++ (s ++ (b' ++ ',' :: p)))) (r ++ back)) :
    ∃ ws x inner, CutEntries keyed (e :: es) (b ++ (s ++ (b' ++ ',' :: p))) (e :: ws)
      ∧ Text n (.entries keyed (e :: ws)) (x ++ inner.map closing)
      ∧ Leaves σ.stack σ.text (b ++ (s ++ (b' ++ ',' :: p))) x inner := by
  have hblanks : (σ.behind hb).ForEntry keyed := hσ
  have hstate : openings ((σ.behind hb).text ++ (s ++ b')) = outside σ.stack := by
    rw [openings_append, Spot.text, (σ.behind hb).state, List.foldl_append, foldl_text he,
      foldl_blank hb']
    rfl
  have hspot : ((σ.behind hb).comma he hb').ForEntry keyed := ⟨hσ.1, .inr ⟨rfl, hstate⟩⟩
  have htext : ∀ t, ((σ.behind hb).comma he hb').text ++ t
      = σ.text ++ (b ++ (s ++ (b' ++ ',' :: t))) := by
    intro t
    simp [Spot.comma, Spot.behind, Spot.text]
  have hwhole := whole_of_text hn hb he hb'
  have hnext : ∀ {ws}, CutEntries keyed es p ws →
      CutEntries keyed (e :: es) (b ++ (s ++ (b' ++ ',' :: p))) (e :: ws) := by
    intro ws hws
    simpa using CutEntries.next hwhole hws
  rw [← htext] at hfair
  -- either something is kept of the next entry, or it goes with its comma
  rcases h hspot ht hfair with ⟨w, ws, x, inner, hcut, hws, hmends, hopen, hbrackets⟩ |
    ⟨hcut, hmends, hbrackets⟩
  · rw [htext] at hmends hopen hbrackets
    refine ⟨w :: ws, b ++ (s ++ (b' ++ ',' :: x)), inner, hnext hcut, ?_, ?_, hopen, hbrackets⟩
    · simpa using Text.cons hb hb' he (.comma hws)
    · rw [hmends, htext]
  · rw [htext] at hmends hbrackets
    obtain ⟨hentry, hleaves⟩ := leaves_entry hb he hb' hσ
    have hcleared : ((σ.behind hb).comma he hb').cleared = mend ((σ.behind hb).text ++ (s ++ b')) :=
      if_pos rfl
    refine ⟨[], b ++ s, [], hnext hcut, by simpa using hentry, ?_, hleaves.state, hbrackets⟩
    rw [hmends, hcleared, Spot.text_behind, List.append_assoc, hleaves.mends]

/-- Entries that are cut are those in front and what is left of one. -/
theorem entriesCut_cons {keyed : Bool} {e : String × Json} {es : List (String × Json)}
    {b s b' m : List Char} (hn : n ≤ maxNesting) (hb : Blank b) (hb' : Blank b')
    (he : Text n (.entry keyed e) s) (h : EntryCut n keyed e s)
    (hm : FormCut n m (.more keyed es)) :
    EntriesCut n keyed (e :: es) (b ++ (s ++ (b' ++ m))) := by
  intro σ p r back hσ hsplit hfair
  rcases start_append hsplit with ⟨b₂, rfl, rfl⟩ | ⟨c, p, rfl, hentry⟩
  · -- within the blanks in front
    have hblank : Blank p := fun c hc => hb c (List.mem_append_left _ hc)
    exact .inr ⟨.nothing hblank, clears_blank hσ hblank⟩
  · rcases start_append (p := c :: p) hentry with ⟨r, rfl, rfl⟩ | ⟨d, q, hp, hbehind⟩
    · by_cases hr : r = []
      · subst hr
        rw [List.append_nil] at he
        obtain ⟨htext, hleaves⟩ := leaves_entry hb he blank_nil hσ
        have hwhole := whole_of_text hn hb he blank_nil
        rw [List.append_nil] at hleaves hwhole
        exact .inl ⟨e, [], _, [], .whole hwhole, by simpa using htext, hleaves⟩
      · -- within the entry
        have hblanks : (σ.behind hb).ForEntry keyed := hσ
        have hbehind := σ.text_behind hb
        rw [← List.append_assoc, ← hbehind, List.append_assoc] at hfair
        rcases h hblanks rfl (List.cons_ne_nil c p) hr hfair with
          ⟨w, x, inner, hcut, hw, hmends, hopen, hbrackets⟩ | ⟨hcut, hmends, hbrackets⟩
        · rw [hbehind, List.append_assoc] at hmends hopen hbrackets
          rw [List.append_assoc] at hmends
          refine .inl ⟨w, [], b ++ x, inner, .part hb hcut, ?_, hmends, hopen, hbrackets⟩
          simpa using Text.cons hb blank_nil hw .last
        · rw [hbehind, List.append_assoc] at hmends hbrackets
          exact .inr ⟨.part hb hcut, hmends, hbrackets⟩
    · rw [hp] at hfair ⊢
      rcases start_append (p := d :: q) hbehind with ⟨b₂, rfl, rfl⟩ | ⟨d', q', hq, hmore⟩
      · -- within the blanks behind the entry
        have hblank : Blank (d :: q) := fun c hc => hb' c (List.mem_append_left _ hc)
        obtain ⟨htext, hleaves⟩ := leaves_entry hb he hblank hσ
        exact .inl ⟨e, [], _, [], .whole (whole_of_text hn hb he hblank), by simpa using htext,
          hleaves⟩
      · -- behind a comma
        rcases hm with rfl | ⟨t, rfl, hm⟩
        · cases hmore
        · obtain ⟨rfl, ht⟩ := List.cons.inj hmore
          rw [hq] at hfair ⊢
          obtain ⟨ws, x, inner, hcut, hws, hleaves⟩ :=
            hm.behind_comma hn hb hb' he hσ ht hfair
          exact .inl ⟨e, ws, x, inner, hcut, hws, hleaves⟩

/-- The repair of any part of a document that is cut off. -/
theorem formCut {form : Form} {s : List Char} (h : Text n form s) (hn : n ≤ maxNesting) :
    FormCut n s form := by
  induction h with
  | null => exact valueCut_literal (by decide) rfl fun _ => .null
  | yes => exact valueCut_literal (by decide) rfl fun _ => .yes
  | no => exact valueCut_literal (by decide) rfl fun _ => .no
  | num h => exact valueCut_number h
  | str h => exact valueCut_string h
  | arr _ ih => exact valueCut_arr (ih (Nat.le_of_succ_le hn))
  | obj _ ih => exact valueCut_obj (ih (Nat.le_of_succ_le hn))
  | item _ ih => exact entryCut_item (ih hn)
  | member hk hb hb' _ ih => exact entryCut_member hk hb hb' (ih hn)
  | nil hb => exact entriesCut_nil hb
  | cons hb hb' he _ ih ihm => exact entriesCut_cons hn hb hb' he (ih hn) (ihm hn)
  | last => exact .inl rfl
  | comma _ ih => exact .inr ⟨_, rfl, ih hn⟩

end CodeAtlas.Reply
