import CodeAtlas.Proofs.Unicode.Words
import CodeAtlas.Pattern.Basic

/-!
# Reading a pattern

What the text of a pattern writes can be computed if the names of its groups start with ASCII
letters: the reader looks only at the name of a group into the tables of letters. A pattern whose
sets have few ranges is not too large.
-/

namespace CodeAtlas.Pattern

open Unicode (CharSet)

/-! ## Equality of phrases -/

deriving instance DecidableEq for Glyph, PropertyName, Switches

mutual

/-- Whether two parts of a set are written alike. -/
def SetPhrase.same : SetPhrase → SetPhrase → Bool
  | .empty, .empty => true
  | .char c, .char d => c = d
  | .range a b, .range c d => a = c && b = d
  | .ascii s n, .ascii t m => s = t && n = m
  | .shorthand k n, .shorthand l m => k = l && n = m
  | .property p n, .property q m => p = q && n = m
  | .bracketed n a, .bracketed m b => n = m && a.same b
  | .union as, .union bs => sameSets as bs
  | .operation o a b, .operation p c d => o = p && a.same c && b.same d
  | _, _ => false

/-- Whether the parts of two sets are written alike. -/
def sameSets : List SetPhrase → List SetPhrase → Bool
  | [], [] => true
  | a :: as, b :: bs => a.same b && sameSets as bs
  | _, _ => false

end

mutual

/-- Whether two phrases are alike. -/
def Phrase.same : Phrase → Phrase → Bool
  | .empty, .empty | .dot, .dot => true
  | .switches s, .switches t => s = t
  | .char c, .char d => c = d
  | .anchor a, .anchor b => a = b
  | .shorthand k n, .shorthand l m => k = l && n = m
  | .property p n, .property q m => p = q && n = m
  | .bracketed n a, .bracketed m b => n = m && a.same b
  | .repeated l m z a, .repeated l' m' z' b => l = l' && m = m' && z = z' && a.same b
  | .capture i n a, .capture j m b => i = j && n = m && a.same b
  | .scoped s a, .scoped t b => s = t && a.same b
  | .row as, .row bs => samePhrases as bs
  | .choice as, .choice bs => samePhrases as bs
  | _, _ => false

/-- Whether the phrases of two lists are alike. -/
def samePhrases : List Phrase → List Phrase → Bool
  | [], [] => true
  | a :: as, b :: bs => a.same b && samePhrases as bs
  | _, _ => false

end

mutual

/-- Phrases for sets that are found to be the same are equal. -/
theorem SetPhrase.eq_of_same : (a b : SetPhrase) → a.same b = true → a = b
  | .bracketed n a, b, h => by
      cases b with
      | bracketed m b =>
          simp only [SetPhrase.same, Bool.and_eq_true, decide_eq_true_eq] at h
          rw [h.1, a.eq_of_same b h.2]
      | _ => simp [SetPhrase.same] at h
  | .union as, b, h => by
      cases b with
      | union bs => rw [eq_of_sameSets as bs h]
      | _ => simp [SetPhrase.same] at h
  | .operation o a b, c, h => by
      cases c with
      | operation p c d =>
          simp only [SetPhrase.same, Bool.and_eq_true, decide_eq_true_eq] at h
          rw [h.1.1, a.eq_of_same c h.1.2, b.eq_of_same d h.2]
      | _ => simp [SetPhrase.same] at h
  | .empty, b, h | .char _, b, h | .range _ _, b, h | .ascii _ _, b, h | .shorthand _ _, b, h
  | .property _ _, b, h => by cases b <;> simp_all [SetPhrase.same]

/-- Lists of phrases for sets that are found to be the same are equal. -/
theorem eq_of_sameSets : (as bs : List SetPhrase) → sameSets as bs = true → as = bs
  | [], bs, h => by
      cases bs with
      | nil => rfl
      | cons b bs => simp [sameSets] at h
  | a :: as, bs, h => by
      cases bs with
      | nil => simp [sameSets] at h
      | cons b bs =>
          rw [sameSets, Bool.and_eq_true] at h
          rw [a.eq_of_same b h.1, eq_of_sameSets as bs h.2]

end

mutual

/-- Phrases that are found to be the same are equal. -/
theorem Phrase.eq_of_same : (a b : Phrase) → a.same b = true → a = b
  | .bracketed n a, b, h => by
      cases b with
      | bracketed m b =>
          simp only [Phrase.same, Bool.and_eq_true, decide_eq_true_eq] at h
          rw [h.1, a.eq_of_same b h.2]
      | _ => simp [Phrase.same] at h
  | .repeated l m z a, b, h => by
      cases b with
      | repeated l' m' z' b =>
          simp only [Phrase.same, Bool.and_eq_true, decide_eq_true_eq] at h
          rw [h.1.1.1, h.1.1.2, h.1.2, a.eq_of_same b h.2]
      | _ => simp [Phrase.same] at h
  | .capture i n a, b, h => by
      cases b with
      | capture j m b =>
          simp only [Phrase.same, Bool.and_eq_true, decide_eq_true_eq] at h
          rw [h.1.1, h.1.2, a.eq_of_same b h.2]
      | _ => simp [Phrase.same] at h
  | .scoped s a, b, h => by
      cases b with
      | «scoped» t b =>
          simp only [Phrase.same, Bool.and_eq_true, decide_eq_true_eq] at h
          rw [h.1, a.eq_of_same b h.2]
      | _ => simp [Phrase.same] at h
  | .row as, b, h => by
      cases b with
      | row bs => rw [eq_of_samePhrases as bs h]
      | _ => simp [Phrase.same] at h
  | .choice as, b, h => by
      cases b with
      | choice bs => rw [eq_of_samePhrases as bs h]
      | _ => simp [Phrase.same] at h
  | .empty, b, h | .switches _, b, h | .char _, b, h | .dot, b, h | .anchor _, b,
    h | .shorthand _ _, b, h
  | .property _ _, b, h => by cases b <;> simp_all [Phrase.same]

/-- Lists of phrases that are found to be the same are equal. -/
theorem eq_of_samePhrases : (as bs : List Phrase) → samePhrases as bs = true → as = bs
  | [], bs, h => by
      cases bs with
      | nil => rfl
      | cons b bs => simp [samePhrases] at h
  | a :: as, bs, h => by
      cases bs with
      | nil => simp [samePhrases] at h
      | cons b bs =>
          rw [samePhrases, Bool.and_eq_true] at h
          rw [a.eq_of_same b h.1, eq_of_samePhrases as bs h.2]

end

/-! ## Names in ASCII -/

namespace Reading

/-- Opens a group with a name, as `openNamed?` does, if the name starts with an ASCII letter. -/
def openAscii? (r : Reading) (rest : List Char) : Option Reading :=
  let name := rest.takeWhile (· != '>')
  let text := String.ofList name
  match name, rest.drop name.length with
  | c :: more, _ :: rest =>
      if c.isAlpha && more.all (isNameChar false) && !r.names.contains text then
        { r with names := text :: r.names }.openCapture? (some text) rest
      else none
  | _, _ => none

/-- Reads one item, operator or bracket, with no name that starts with another letter. -/
def stepAscii? (fuel : Nat) (r : Reading) : Option Reading :=
  match r.verbose, r.rest with
  | false, '(' :: '?' :: 'P' :: '<' :: rest => r.openAscii? rest
  | _, _ => step? fuel r

/-- Reads to the end, with no name that starts with another letter. -/
def finishAscii? : (fuel : Nat) → Reading → Option Reading
  | 0, _ => none
  | fuel + 1, r =>
      let r := { r with rest := skip r.verbose r.rest }
      if r.rest.isEmpty then if r.levels.isEmpty then some r else none
      else do finishAscii? fuel (← stepAscii? fuel r)

/-- A named group that is opened in ASCII is opened by the reader. -/
theorem openNamed?_of_ascii {r r' : Reading} {rest : List Char} (h : r.openAscii? rest = some r') :
    r.openNamed? rest = some r' := by
  rw [openAscii?] at h
  split at h
  · next name tail c more d rest' hname hrest =>
    split at h
    · next hascii =>
      rw [openNamed?, hrest]
      rw [hname] at hascii h ⊢
      rw [Bool.and_eq_true, Bool.and_eq_true] at hascii
      obtain ⟨⟨hc, hmore⟩, hnew⟩ := hascii
      have hfront : isNameChar true c = true :=
        Bool.or_eq_true_iff.2 (.inr (Unicode.isAlphabetic_of_isAlpha hc))
      dsimp only
      rw [hfront, hmore, hnew]
      exact h
    · cases h
  · cases h

/-- A step in ASCII is a step of the reader. -/
theorem step?_of_ascii {fuel : Nat} {r r' : Reading} (h : stepAscii? fuel r = some r') :
    step? fuel r = some r' := by
  rw [stepAscii?] at h
  split at h
  · next rest hverbose hrest =>
    rw [step?, hrest]
    show r.open? ('?' :: 'P' :: '<' :: rest) = some r'
    rw [open?, hverbose]
    exact openNamed?_of_ascii h
  · exact h

/-- A reading that is finished in ASCII is finished by the reader. -/
theorem finish?_of_ascii {fuel : Nat} {r r' : Reading} (h : finishAscii? fuel r = some r') :
    finish? fuel r = some r' := by
  induction fuel generalizing r with
  | zero => cases h
  | succ fuel ih =>
      rw [finishAscii?] at h
      rw [finish?]
      dsimp only at h ⊢
      split
      · next hempty => rwa [if_pos hempty] at h
      · next hempty =>
        rw [if_neg hempty] at h
        obtain ⟨r'', hstep, hrest⟩ := Option.bind_eq_some_iff.1 h
        exact Option.bind_eq_some_iff.2 ⟨r'', step?_of_ascii hstep, ih hrest⟩

end Reading

/-- The phrase that a text writes, with no name that starts with a letter that is not ASCII. -/
def readAscii? (text : List Char) : Option Phrase := do
  let r ← Reading.finishAscii? (text.length + 1) { rest := text }
  return (← r.phrase?).value

/-- Whether a text writes a phrase. -/
def isWritten (text : List Char) (phrase : Phrase) : Bool :=
  match readAscii? text with
  | some p => p.same phrase
  | none => false

/-- A text that is found to be written as a phrase is read as this phrase. -/
theorem read?_of_isWritten {text : List Char} {phrase : Phrase} (h : isWritten text phrase = true) :
    read? text = some phrase := by
  rw [isWritten] at h
  split at h
  · next p hread =>
    obtain ⟨r, hfinish, hphrase⟩ := Option.bind_eq_some_iff.1 hread
    rw [← p.eq_of_same phrase h]
    exact Option.bind_eq_some_iff.2 ⟨r, Reading.finish?_of_ascii hfinish, hphrase⟩
  · cases h

/-! ## Size -/

/-- A range takes no more runs of bytes than its load. -/
theorem runs_le (r : Nat × Nat) :
    (if r.1 / 64 == r.2 / 64 then 1 else if r.1 / 4096 == r.2 / 4096 then 8 else 30)
      ≤ CharSet.rangeLoad r := by
  rw [CharSet.rangeLoad]
  by_cases hstay : r.1 / 64 = r.2 / 64
  · rw [if_pos (beq_iff_eq.2 hstay)]
    omega
  have hleft : ¬ (r.1 / 64 = r.2 / 64 ∧ r.1 % 64 ≠ 0) := fun h => hstay h.1
  rw [if_neg (mt beq_iff_eq.1 hstay), if_neg hleft]
  by_cases hblock : r.1 / 4096 = r.2 / 4096
  · rw [if_pos (beq_iff_eq.2 hblock)]
    omega
  · have hleft' : ¬ (r.1 / 4096 = r.2 / 4096 ∧ r.1 % 4096 ≠ 0) := fun h => hblock h.1
    exact Nat.le_of_eq (by rw [if_neg (mt beq_iff_eq.1 hblock), if_neg hleft'])

/-- The number of runs of ranges is bounded by their load. -/
theorem foldl_runs_le (ranges : List (Nat × Nat)) (n : Nat) :
    ranges.foldl (fun n r =>
        n + if r.1 / 64 == r.2 / 64 then 1 else if r.1 / 4096 == r.2 / 4096 then 8 else 30) n
      ≤ n + CharSet.loadOf ranges := by
  induction ranges generalizing n with
  | nil => exact Nat.le_refl _
  | cons r ranges ih =>
      rw [List.foldl_cons, CharSet.loadOf_cons, ← Nat.add_assoc]
      exact Nat.le_trans (ih _) (Nat.add_le_add_right (Nat.add_le_add_left (runs_le r) n) _)

/-- There are at most as many ranges as their load. -/
theorem length_le_loadOf (ranges : List (Nat × Nat)) : ranges.length ≤ CharSet.loadOf ranges := by
  induction ranges with
  | nil => exact Nat.le_refl _
  | cons r ranges ih =>
      rw [CharSet.loadOf_cons, CharSet.rangeLoad, List.length_cons]
      omega

/-- The size of a set is bounded by that of what it is built of. -/
theorem rough_one_le {most : Nat} {P : Nat → Prop} {s : CharSet} (h : CharSet.Built most P s)
    (bytes : Bool) :
    (Node.one s bytes).rough ≤ 72 + 164 * most := by
  have hload : CharSet.loadOf s.ranges.toList ≤ most := h.load_le
  have hlength := length_le_loadOf s.ranges.toList
  rw [Array.length_toList] at hlength
  have hruns := foldl_runs_le s.ranges.toList 0
  rw [Node.rough]
  split
  · omega
  · rw [roughSet, ← Array.foldl_toList]
    omega

theorem rough_look (l : Look) : (Node.look l).rough = 32 := by rw [Node.rough]

/-- The size of a loop comes from the size of what is repeated. -/
theorem rough_repeated (least : Nat) (greedy : Bool) (a : Node) :
    (Node.repeated least none greedy a).rough = 200 + (least + 1) * (a.rough + 40) := by
  rw [Node.rough, Option.getD_none, Nat.max_zero]

/-- The size of a group is a little more than that of its node. -/
theorem rough_group (i : Nat) (name? : Option String) (a : Node) :
    (Node.group i name? a).rough = 64 + a.rough := by
  rw [Node.rough]

/-- The size of a row is that of its nodes together. -/
theorem rough_row (items : List Node) : (Node.row items).rough = roughAll 32 items := by
  rw [Node.rough]

/-- The size of a choice is that of its branches together. -/
theorem rough_choice (branches : List Node) :
    (Node.choice branches).rough = roughAll 72 branches := by
  rw [Node.rough]

/-- A regular set of two characters or more stands for itself in a node. -/
theorem ofSet_eq {s : CharSet} {c d : Char} (h : s.Regular) (hc : s.contains c = true)
    (hd : s.contains d = true) (hne : c ≠ d) (bytes : Bool) :
    Node.ofSet s bytes = .one s bytes := by
  obtain ⟨hempty, hsingle⟩ := CharSet.single?_eq_none h hc hd hne
  rw [Node.ofSet, hempty, hsingle]
  rfl

/-- The pattern that a text writes, if it is not too large. -/
theorem ofString_eq {s : String} {chars : List Char} {phrase : Phrase} {a : Node} {f : Flags}
    (h : s = String.ofList chars) (hread : isWritten chars phrase = true)
    (hmeaning : phrase.meaning? {} = some (a, f)) (hsize : a.rough + 500 ≤ maxMemory) :
    ofString s = ofNode a := by
  have hsmall : a.isTooLarge = false := by
    rw [Node.isTooLarge, decide_eq_false (Nat.not_lt.2 hsize), Bool.false_and]
  have hstring : ofString? s = some (ofNode a) := by
    rw [ofString?, h, String.toList_ofList]
    refine Option.bind_eq_some_iff.2 ⟨phrase, read?_of_isWritten hread, ?_⟩
    refine Option.bind_eq_some_iff.2 ⟨(a, f), hmeaning, if_neg ?_⟩
    rw [hsmall]
    exact Bool.false_ne_true
  rw [ofString, hstring]
  rfl

end CodeAtlas.Pattern
