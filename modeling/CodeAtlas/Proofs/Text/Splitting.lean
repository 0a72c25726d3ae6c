import CodeAtlas.Proofs.Text.Tokens
import CodeAtlas.Proofs.Text.Trim
import CodeAtlas.Text.Split

/-!
# Splitting what was joined

Splitting a text at a separator is a run over its characters that keeps track of the literal that is
open and of the depth of brackets. A fragment that closes what it opens, and in which no separator
stands at the top level, comes out of the run in one piece, whatever white space is around it.
-/

namespace CodeAtlas.Text

open Unicode (isBlank)

/-! ## Scans -/

/-- What the characters of a text so far say of those that follow. -/
structure Scan where
  /-- How many more brackets were opened than were closed. -/
  depth : Int := 0
  /-- The quote of the literal that is open. -/
  open? : Option Char := none
  /-- The next character belongs to a backslash. -/
  escaped : Bool := false
  last? : Option Char := none

namespace Scan
variable (lexis : Lexis) (angle : Bool)

/-- Reads a character outside literals. -/
def outside (s : Scan) (c : Char) : Scan :=
  if c ∈ lexis.quotes then { depth := s.depth, open? := some c, last? := some c }
  else { depth := s.depth + nesting angle s.last? c, last? := some c }

/-- Reads a character. A literal ends with its quote, unless that belongs to a backslash, or in
front of the end of its line if it may not go on behind it. -/
def step (s : Scan) (c : Char) : Scan :=
  match s.open? with
  | none => s.outside lexis angle c
  | some quote =>
      if s.escaped then { s with escaped := false, last? := some c }
      else if c = '\\' then { s with escaped := true, last? := some c }
      else if c = quote then { depth := s.depth, last? := some c }
      else if c = '\n' && !spansLines quote then s.outside lexis angle c
      else { s with last? := some c }

/-- No literal and no bracket is open. -/
def AtTop (s : Scan) : Prop := s.open? = none ∧ s.depth = 0

instance (s : Scan) : Decidable s.AtTop := inferInstanceAs (Decidable (_ ∧ _))

/-- Reads a text. -/
def run (s : Scan) (text : List Char) : Scan := text.foldl (step lexis angle) s

end Scan

/-! ## Splitting as a run -/

/-- The pieces found and the piece begun, all in reverse, and the scan of the piece. -/
structure Splitting where
  pieces : List (List Char) := []
  piece : List Char := []
  scan : Scan := {}

namespace Splitting
variable (lexis : Lexis) (angle : Bool) (sep : Char)

/-- Reads a character: a separator at the top level ends the piece. -/
def step (st : Splitting) (c : Char) : Splitting :=
  let s := st.scan.step lexis angle c
  if c = sep ∧ s.AtTop then { pieces := addPiece st.pieces st.piece }
  else { st with piece := c :: st.piece, scan := s }

/-- Reads a text. -/
def run (st : Splitting) (text : List Char) : Splitting := text.foldl (step lexis angle sep) st

/-- The pieces at the end of the text. -/
def done (st : Splitting) : List (List Char) := (addPiece st.pieces st.piece).reverse

variable {lexis angle sep}

@[simp] theorem run_nil (st : Splitting) : st.run lexis angle sep [] = st := rfl

/-- A run over a text is a step for its first character and a run over the others. -/
theorem run_cons (st : Splitting) (c : Char) (text : List Char) :
    st.run lexis angle sep (c :: text) = (st.step lexis angle sep c).run lexis angle sep text := rfl

/-- A run over two texts is a run over the one and then over the other. -/
theorem run_append (st : Splitting) (a b : List Char) :
    st.run lexis angle sep (a ++ b) = (st.run lexis angle sep a).run lexis angle sep b :=
  List.foldl_append

/-- A run outside literals, or behind the quote of one, as `splitFrom` has it. -/
def resumed (pieces : List (List Char)) (piece : List Char) (depth : Int) (open? : Option Char) :
    Splitting where
  pieces
  piece
  scan := { depth, open?, last? := piece.head? }

section
variable (hsep : sep ∉ lexis.quotes) {quote : Char} (hquote : quote ∈ lexis.quotes)
include hsep hquote

/-- A run reads over a literal. -/
theorem run_literal {size n : Nat} {text rest : List Char}
    (h : literalEnd? quote size text = some (n, rest)) (pieces : List (List Char))
    (piece : List Char) (depth : Int) :
    ∃ inside, text = inside ++ rest ∧ n = size + byteLength inside
      ∧ (resumed pieces piece depth (some quote)).run lexis angle sep text
        = (resumed pieces (inside.reverse ++ piece) depth none).run lexis angle sep rest := by
  -- a literal ends for the splitter where it ends for the scanner, by the same cases
  fun_induction literalEnd? quote size text generalizing piece with
  | case1 => cases h
  | case2 => cases h
  | case3 size c text ih =>
      have hslash : Char.utf8Size '\\' = 1 := rfl
      obtain ⟨inside, rfl, rfl, hrun⟩ := ih h (c :: '\\' :: piece)
      refine ⟨'\\' :: c :: inside, rfl, by simp [hslash]; omega, ?_⟩
      simpa [run_cons, step, Scan.step, Scan.AtTop, resumed] using hrun
  | case4 size text hlone hescape =>
      obtain ⟨rfl, rfl⟩ := Prod.mk.injEq .. ▸ Option.some.inj h
      have hslash := ne_backslash hlone hescape
      have hne : quote ≠ sep := fun hq => hsep (hq ▸ hquote)
      exact ⟨[quote], rfl, by simp, by simp [run_cons, step, Scan.step, resumed, hslash, hne]⟩
  | case5 size c text hlone hescape hne hline =>
      obtain ⟨rfl, rfl⟩ := Prod.mk.injEq .. ▸ Option.some.inj h
      obtain rfl : c = '\n' := by simpa using (Bool.and_eq_true_iff.1 hline).1
      have hspan : spansLines quote = false := by simpa using hline
      refine ⟨[], rfl, rfl, ?_⟩
      simp [run_cons, step, Scan.step, Scan.outside, resumed, hne, hspan]
  | case6 size c text hlone hescape hne hline ih =>
      have hslash := ne_backslash hlone hescape
      obtain ⟨inside, rfl, rfl, hrun⟩ := ih h (c :: piece)
      refine ⟨c :: inside, rfl, by simp; omega, ?_⟩
      simpa [run_cons, step, Scan.step, Scan.AtTop, resumed, hne, hslash, hline] using hrun

omit hsep hquote in
/-- A literal without an end takes the rest of the text. -/
theorem done_literal {size : Nat} {text : List Char} (h : literalEnd? quote size text = none)
    (pieces : List (List Char)) (piece : List Char) (depth : Int) :
    ((resumed pieces piece depth (some quote)).run lexis angle sep text).done
      = (addPiece pieces (text.reverse ++ piece)).reverse := by
  fun_induction literalEnd? quote size text generalizing piece with
  | case1 => rfl
  | case2 => simp [run_cons, step, Scan.step, Scan.AtTop, resumed, done]
  | case3 size c text ih =>
      have := ih h (c :: '\\' :: piece)
      simpa [run_cons, step, Scan.step, Scan.AtTop, resumed] using this
  | case4 => cases h
  | case5 => cases h
  | case6 size c text hlone hescape hne hline ih =>
      have hslash := ne_backslash hlone hescape
      have := ih h (c :: piece)
      simpa [run_cons, step, Scan.step, Scan.AtTop, resumed, hne, hslash, hline] using this

end

/-- A quote opens a string. -/
theorem step_quote {c : Char} (hc : c ∈ lexis.quotes) (pieces : List (List Char))
    (piece : List Char) (depth : Int) :
    (resumed pieces piece depth none).step lexis angle sep c
      = resumed pieces (c :: piece) depth (some c) := by
  simp [step, Scan.step, Scan.outside, Scan.AtTop, resumed, hc]

/-- Outside of strings a character separates at depth zero, and otherwise is kept. -/
theorem step_char {c : Char} (hc : c ∉ lexis.quotes) (pieces : List (List Char)) (piece : List Char)
    (depth : Int) : (resumed pieces piece depth none).step lexis angle sep c =
      if c = sep ∧ depth + nesting angle piece.head? c = 0
        then resumed (addPiece pieces piece) [] 0 none
      else resumed pieces (c :: piece) (depth + nesting angle piece.head? c) none := by
  simp [step, Scan.step, Scan.outside, Scan.AtTop, resumed, hc]

/-- Splitting is a run. -/
theorem splitFrom_eq_done (hsep : sep ∉ lexis.quotes) (pieces : List (List Char))
    (piece : List Char) (depth : Int) (text : List Char) :
    splitFrom lexis angle sep pieces piece depth text
      = ((resumed pieces piece depth none).run lexis angle sep text).done := by
  fun_induction splitFrom lexis angle sep pieces piece depth text with
  | case1 => rfl
  | case2 pieces piece depth c text hquote hnone =>
      rw [run_cons, step_quote (List.contains_iff_mem.1 hquote), done_literal hnone]
  | case3 pieces piece depth c text hquote n rest hsome ih =>
      have hmem := List.contains_iff_mem.1 hquote
      obtain ⟨inside, rfl, rfl, hrun⟩ :=
        @run_literal lexis angle sep hsep _ hmem _ _ _ _ hsome pieces (c :: piece) depth
      rw [ih, run_cons, step_quote hmem, hrun, Nat.zero_add, takeBytes_byteLength_append]
  | case4 pieces piece depth c text hquote d hcut ih =>
      rw [ih, run_cons, step_char (fun h => hquote (List.contains_iff_mem.2 h)),
        if_pos hcut, hcut.2]
  | case5 pieces piece depth c text hquote d hcut ih =>
      rw [ih, run_cons, step_char (fun h => hquote (List.contains_iff_mem.2 h)), if_neg hcut]

end Splitting

/-! ## Joined fragments -/

/-- The brackets that nest, angle brackets among them if `angle`. -/
def brackets (angle : Bool) : List Char :=
  ['(', ')', '[', ']', '\x7b', '\x7d'] ++ if angle then ['<', '>'] else []

/-- What is no bracket does not nest. -/
theorem nesting_of_not_bracket {angle : Bool} {c : Char} (hc : c ∉ brackets angle)
    (last? : Option Char) :
    nesting angle last? c = 0 := by
  rw [nesting.eq_def]
  split <;> cases angle <;> simp_all [brackets]

/-- White space is no bracket. -/
theorem not_mem_brackets_of_isBlank {angle : Bool} {c : Char} (hc : isBlank c = true) :
    c ∉ brackets angle :=
  not_mem_of_isBlank (by cases angle <;> rfl) hc

section
variable (lexis : Lexis) (angle : Bool) (sep : Char)

/-- A text that comes out of splitting as it is: it has no white space at its ends and closes the
literals and brackets that it opens, and no separator stands outside all of them. -/
structure Fragment (text : List Char) : Prop where
  ne_nil : text ≠ []
  trim_eq : trim text = text
  atTop : (Scan.run lexis angle {} text).AtTop
  noSep : ∀ a b, text = a ++ sep :: b → ¬ (Scan.run lexis angle {} (a ++ [sep])).AtTop

variable {lexis angle sep} in
/-- A trimmed text that ends at the top and separates nowhere before is a fragment. -/
theorem fragment_of_take {text : List Char} (hne : text ≠ []) (htrim : trim text = text)
    (htop : (Scan.run lexis angle {} text).AtTop)
    (hsep : ∀ i < text.length, text[i]? = some sep →
      ¬ (Scan.run lexis angle {} (text.take (i + 1))).AtTop) : Fragment lexis angle sep text := by
  refine ⟨hne, htrim, htop, ?_⟩
  rintro a b rfl
  have := hsep a.length (by simp) (by simp)
  rwa [List.take_append, List.take_of_length_le (by omega), Nat.add_sub_cancel_left] at this

/-- A text with something around it. -/
structure Padded where
  before : List Char
  inner : List Char
  after : List Char

/-- All of the text. -/
def Padded.text (p : Padded) : List Char := p.before ++ (p.inner ++ p.after)

/-- White space that opens no literal. -/
def Gap (b : List Char) : Prop := ∀ c ∈ b, isBlank c = true ∧ c ∉ lexis.quotes

variable {lexis} in
/-- In no language does white space open a literal. -/
theorem gap_iff (hlexis : lexis ∈ Lexis.all) {b : List Char} : Gap lexis b ↔ AllBlank b := by
  have hquotes : ∀ lexis ∈ Lexis.all, lexis.quotes.all isPrinted = true := by decide
  exact ⟨fun h c hc => (h c hc).1,
    fun h c hc => ⟨h c hc, not_mem_of_isBlank (hquotes lexis hlexis) (h c hc)⟩⟩

/-- A fragment with white space around it. -/
structure Padded.Holds (p : Padded) : Prop where
  fragment : Fragment lexis angle sep p.inner
  before : Gap lexis p.before
  after : Gap lexis p.after

end

namespace Splitting
variable {lexis : Lexis} {angle : Bool} {sep : Char}

/-- Where no fragment has begun: all pieces are found, but for white space. -/
structure Fresh (pieces : List (List Char)) (st : Splitting) : Prop where
  pieces : st.pieces = pieces
  blank : AllBlank st.piece
  scan : ∃ last?, st.scan = { last? } ∧ last? ≠ some '-' ∧ last? ≠ some '='

/-- Where a fragment has ended: with what is begun, all pieces are found. -/
structure Ended (pieces : List (List Char)) (st : Splitting) : Prop where
  pieces : addPiece st.pieces st.piece = pieces
  atTop : st.scan.AtTop

/-- Behind a separator nothing has been read yet. -/
theorem fresh_sep {pieces : List (List Char)} : Fresh pieces { pieces } :=
  ⟨rfl, List.forall_mem_nil _, none, rfl, nofun, nofun⟩

/-- A blank piece is left out. -/
theorem addPiece_blank (pieces : List (List Char)) {piece : List Char} (h : AllBlank piece) :
    addPiece pieces piece = pieces := by
  have hblank : AllBlank piece.reverse := fun c hc => h c (List.mem_reverse.1 hc)
  have htrim : trim piece.reverse = [] := trim_append_blank [] hblank
  rw [addPiece, htrim]
  rfl

/-- White space leaves a run that is outside literals as deep as it is. -/
theorem scan_blank {s : Scan} (hopen : s.open? = none) {c : Char}
    (hc : isBlank c = true ∧ c ∉ lexis.quotes) :
    s.step lexis angle c = { depth := s.depth, last? := some c } := by
  rw [Scan.step, hopen]
  simp [Scan.outside, hc.2, nesting_of_not_bracket (not_mem_brackets_of_isBlank hc.1)]

/-- A gap keeps the state in which nothing has been read. -/
theorem Fresh.gap {pieces : List (List Char)} {st : Splitting} (h : Fresh pieces st) {b : List Char}
    (hb : Gap lexis b) : Fresh pieces (st.run lexis angle sep b) := by
  induction b generalizing st with
  | nil => exact h
  | cons c b ih =>
      obtain ⟨hc, hrest⟩ := List.forall_mem_cons.1 hb
      refine ih ?_ hrest
      obtain ⟨hpieces, hblank, last?, hscan, -⟩ := h
      have hopen : st.scan.open? = none := by rw [hscan]
      rw [step, scan_blank hopen hc]
      split
      · rw [addPiece_blank st.pieces hblank, hpieces]
        exact fresh_sep
      · refine ⟨hpieces, List.forall_mem_cons.2 ⟨hc.1, hblank⟩, some c, by rw [hscan], ?_, ?_⟩
        all_goals
          rintro ⟨⟩
          exact absurd hc.1 (by rw [isBlank_of_printed (by decide) (by decide)]; decide)

/-- A gap keeps the state in which a fragment has ended. -/
theorem Ended.gap {pieces : List (List Char)} {st : Splitting} (h : Ended pieces st) {b : List Char}
    (hb : Gap lexis b) : Ended pieces (st.run lexis angle sep b) := by
  induction b generalizing st with
  | nil => exact h
  | cons c b ih =>
      obtain ⟨hc, hrest⟩ := List.forall_mem_cons.1 hb
      refine ih ?_ hrest
      obtain ⟨hpieces, hopen, hdepth⟩ := h
      rw [step, scan_blank hopen hc]
      split
      · exact ⟨(addPiece_blank _ (List.forall_mem_nil _)).trans hpieces, rfl, rfl⟩
      · refine ⟨?_, rfl, hdepth⟩
        have htrim : trim (c :: st.piece).reverse = trim st.piece.reverse := by
          rw [List.reverse_cons, trim_append_blank _ (List.forall_mem_singleton.2 hc.1)]
        rw [← hpieces, addPiece, addPiece, htrim]

/-- A separator behind a fragment leads to the state in which nothing has been read. -/
theorem Ended.separator {pieces : List (List Char)} {st : Splitting} (h : Ended pieces st)
    (hquote : sep ∉ lexis.quotes) (hbracket : sep ∉ brackets angle) :
    Fresh pieces (st.step lexis angle sep sep) := by
  obtain ⟨hpieces, hopen, hdepth⟩ := h
  have hstep : (st.scan.step lexis angle sep).AtTop := by
    rw [Scan.step, hopen]
    simp [Scan.outside, hquote, nesting_of_not_bracket hbracket, Scan.AtTop, hdepth]
  rw [step, if_pos ⟨rfl, hstep⟩, hpieces]
  exact fresh_sep

/-- A run goes over a text in which no separator stands at the top level. -/
theorem run_of_noSep {st : Splitting} {text : List Char}
    (h : ∀ a b, text = a ++ sep :: b → ¬ (st.scan.run lexis angle (a ++ [sep])).AtTop) :
    st.run lexis angle sep text = { pieces := st.pieces, piece := text.reverse ++ st.piece,
                                    scan := st.scan.run lexis angle text } := by
  induction text generalizing st with
  | nil => rfl
  | cons c text ih =>
      have hstep : st.step lexis angle sep c
          = { st with piece := c :: st.piece, scan := st.scan.step lexis angle c } := by
        rw [step, if_neg]
        rintro ⟨rfl, htop⟩
        exact h [] text rfl htop
      rw [run_cons, hstep, ih fun a b hsplit => h (c :: a) b (by rw [hsplit]; rfl)]
      simp [Scan.run]

/-- Only `-` and `=` in front of a text have a part in how it is read. -/
theorem scan_run_last {last? : Option Char} (hhyphen : last? ≠ some '-') (hequal : last? ≠ some '=')
    {text : List Char} (hne : text ≠ []) :
    Scan.run lexis angle { last? } text = Scan.run lexis angle {} text := by
  obtain ⟨c, text, rfl⟩ := List.exists_cons_of_ne_nil hne
  have hnesting : nesting angle last? c = nesting angle none c := by
    simp [nesting, hhyphen, hequal]
  rw [Scan.run, Scan.run, List.foldl_cons, List.foldl_cons]
  simp [Scan.step, Scan.outside, hnesting]

/-- A fragment leads from nothing read to its end. -/
theorem Fresh.fragment {pieces : List (List Char)} {st : Splitting} (h : Fresh pieces st)
    {f : List Char} (hf : Fragment lexis angle sep f) :
    Ended (f :: pieces) (st.run lexis angle sep f) := by
  obtain ⟨hpieces, hblank, last?, hscan, hhyphen, hequal⟩ := h
  have hrun : ∀ {a}, a ≠ [] → st.scan.run lexis angle a = Scan.run lexis angle {} a := by
    intro a ha
    rw [hscan, scan_run_last hhyphen hequal ha]
  rw [run_of_noSep fun a b hsplit => hrun (a := a ++ [sep]) (by simp) ▸ hf.noSep a b hsplit]
  refine ⟨?_, hrun hf.ne_nil ▸ hf.atTop⟩
  have hback : (f.reverse ++ st.piece).reverse = st.piece.reverse ++ f := by simp
  have htrim : trim (st.piece.reverse ++ f) = f := by
    rw [trim, trimStart_append_blank fun c hc => hblank c (List.mem_reverse.1 hc)]
    exact hf.trim_eq
  have hempty : f.isEmpty = false := by simpa using hf.ne_nil
  rw [addPiece, hback, htrim, hempty, hpieces]
  rfl

/-- Joined fragments are found one after the other. -/
theorem Fresh.joined (hquote : sep ∉ lexis.quotes) (hbracket : sep ∉ brackets angle)
    {ps : List Padded} (hps : ∀ p ∈ ps, p.Holds lexis angle sep) {pieces : List (List Char)}
    {st : Splitting} (h : Fresh pieces st) :
    (st.run lexis angle sep (List.intercalate [sep] (ps.map Padded.text))).done
      = pieces.reverse ++ ps.map Padded.inner := by
  induction ps generalizing pieces st with
  | nil =>
      rw [List.map_nil, List.map_nil, List.append_nil]
      show (addPiece st.pieces st.piece).reverse = _
      rw [addPiece_blank _ h.blank, h.pieces]
  | cons p ps ih =>
      obtain ⟨hp, hrest⟩ := List.forall_mem_cons.1 hps
      have hended : Ended (p.inner :: pieces) (st.run lexis angle sep p.text) := by
        rw [Padded.text, run_append, run_append]
        exact ((h.gap hp.before).fragment hp.fragment).gap hp.after
      cases ps with
      | nil =>
          simp [done, hended.pieces]
      | cons q ps =>
          rw [List.map_cons, List.map_cons, List.intercalate_cons_cons, run_append, run_append]
          rw [show ∀ st, run lexis angle sep st [sep] = st.step lexis angle sep sep
            from fun _ => rfl]
          exact (ih hrest (hended.separator hquote hbracket)).trans (by simp)

end Splitting

/-- Splitting gives back the fragments that were joined by a separator that is no quote and no
bracket, with white space around them or without, whatever brackets, literals and separators they
hold. -/
theorem split_joined (lexis : Lexis) :
    (∀ sep, sep ∉ lexis.quotes → sep ∉ brackets false →
      ∀ ps : List Padded, (∀ p ∈ ps, p.Holds lexis false sep) →
        splitTopLevel lexis sep (List.intercalate [sep] (ps.map Padded.text)) = ps.map Padded.inner)
    ∧ ∀ sep, sep ∉ lexis.quotes → sep ∉ brackets true →
      ∀ ps : List Padded, (∀ p ∈ ps, p.Holds lexis true sep) →
        splitGeneric lexis sep (List.intercalate [sep] (ps.map Padded.text))
          = ps.map Padded.inner := by
  refine ⟨fun sep hquote hbracket ps hps => ?_, fun sep hquote hbracket ps hps => ?_⟩
  · exact (Splitting.splitFrom_eq_done hquote [] [] 0 _).trans
      (Splitting.fresh_sep.joined hquote hbracket hps)
  · exact (Splitting.splitFrom_eq_done hquote [] [] 0 _).trans
      (Splitting.fresh_sep.joined hquote hbracket hps)

/-- A separator in a literal, in brackets or behind an arrow is no boundary. -/
theorem split_joined_arrow :
    splitTopLevel .php ',' "'a,' => f(b, c),\n\t[x, y] ".toList
        = ["'a,' => f(b, c)".toList, "[x, y]".toList]
      ∧ splitGeneric .rust ',' "m: HashMap<String, u32> , f: fn(u8) -> bool".toList
        = ["m: HashMap<String, u32>".toList, "f: fn(u8) -> bool".toList] := by
  have hblank : ∀ lexis ∈ Lexis.all, ∀ b ∈ [[], [' '], ['\n', '\t']], Gap lexis b := by
    intro lexis hlexis b hb
    have hspace : ∀ b ∈ [[], [' '], ['\n', '\t']], b.all Json.isSpace = true := by decide
    exact (gap_iff hlexis).2 fun c hc => isBlank_of_isSpace (List.all_eq_true.1 (hspace b hb) c hc)
  have hphp := hblank .php (by simp [Lexis.all])
  have hrust := hblank .rust (by simp [Lexis.all])
  have harrow : Fragment .php false ',' "'a,' => f(b, c)".toList :=
    fragment_of_take (by decide) (trim_of_printed (by decide) (by decide)) (by decide) (by decide)
  have hlist : Fragment .php false ',' "[x, y]".toList :=
    fragment_of_take (by decide) (trim_of_printed (by decide) (by decide)) (by decide) (by decide)
  have hmap : Fragment .rust true ',' "m: HashMap<String, u32>".toList :=
    fragment_of_take (by decide) (trim_of_printed (by decide) (by decide)) (by decide) (by decide)
  have hfn : Fragment .rust true ',' "f: fn(u8) -> bool".toList :=
    fragment_of_take (by decide) (trim_of_printed (by decide) (by decide)) (by decide) (by decide)
  constructor
  · refine (split_joined .php).1 ',' (by decide) (by decide)
      [⟨[], "'a,' => f(b, c)".toList, []⟩, ⟨['\n', '\t'], "[x, y]".toList, [' ']⟩] ?_
    exact List.forall_mem_cons.2 ⟨⟨harrow, hphp [] (by decide), hphp [] (by decide)⟩,
      List.forall_mem_singleton.2 ⟨hlist, hphp _ (by decide), hphp [' '] (by decide)⟩⟩
  · refine (split_joined .rust).2 ',' (by decide) (by decide)
      [⟨[], "m: HashMap<String, u32>".toList, [' ']⟩, ⟨[' '], "f: fn(u8) -> bool".toList, []⟩] ?_
    exact List.forall_mem_cons.2 ⟨⟨hmap, hrust [] (by decide), hrust [' '] (by decide)⟩,
      List.forall_mem_singleton.2 ⟨hfn, hrust [' '] (by decide), hrust [] (by decide)⟩⟩

/-! ## Words -/

/-- Splitting where a condition holds is splitting by a predicate. -/
theorem splitWhere_eq_splitOnP (p : Char → Bool) (text : List Char) :
    splitWhere p text = text.splitOnP p := by
  have hgo : ∀ (text piece : List Char) (pieces : List (List Char)),
      splitWhere.go p pieces piece text = pieces.reverse ++ List.splitOnPPrepend p text piece := by
    intro text
    induction text with
    | nil =>
        intro piece pieces
        rw [splitWhere.go, List.reverse_cons, List.splitOnPPrepend_nil]
    | cons c text ih =>
        intro piece pieces
        rw [splitWhere.go, List.splitOnPPrepend_cons_eq_if]
        split
        · rw [ih, List.reverse_cons, List.append_assoc]
          rfl
        · exact ih _ _
  exact hgo text [] []

/-- No character of a piece satisfies what the text was split by. -/
theorem not_of_mem_splitWhere {p : Char → Bool} {text piece : List Char}
    (h : piece ∈ splitWhere p text) :
    ∀ c ∈ piece, p c = false := by
  have hgo : ∀ (text begun : List Char) (pieces : List (List Char)), (∀ c ∈ begun, p c = false) →
      (∀ piece ∈ pieces, ∀ c ∈ piece, p c = false) →
      ∀ piece ∈ splitWhere.go p pieces begun text, ∀ c ∈ piece, p c = false := by
    intro text
    induction text with
    | nil =>
        intro begun pieces hbegun hpieces piece hpiece
        rw [splitWhere.go, List.mem_reverse, List.mem_cons] at hpiece
        rcases hpiece with rfl | hpiece
        · exact fun c hc => hbegun c (List.mem_reverse.1 hc)
        · exact hpieces piece hpiece
    | cons c text ih =>
        intro begun pieces hbegun hpieces
        rw [splitWhere.go]
        split
        · refine ih [] _ nofun (List.forall_mem_cons.2 ⟨?_, hpieces⟩)
          exact fun c hc => hbegun c (List.mem_reverse.1 hc)
        · next hc => exact ih _ _ (List.forall_mem_cons.2 ⟨Bool.not_eq_true _ ▸ hc, hbegun⟩) hpieces
  exact hgo text [] [] nofun nofun piece h

/-- A text is a piece without parting characters, or such a piece, a parting character and what
follows. -/
theorem pieces_induction (p : Char → Bool) {motive : List Char → Prop}
    (last : ∀ w, (∀ c ∈ w, p c = false) → motive w)
    (more : ∀ w c s, (∀ c ∈ w, p c = false) → p c = true → motive s → motive (w ++ c :: s))
    (s : List Char) :
    motive s := by
  induction hn : s.length using Nat.strongRecOn generalizing s with
  | ind n ih =>
      have hword : ∀ c ∈ s.takeWhile (!p ·), p c = false := fun c hc => by
        simpa using List.all_eq_true.1 List.all_takeWhile c hc
      have hsplit : s.takeWhile (!p ·) ++ s.dropWhile (!p ·) = s := List.takeWhile_append_dropWhile
      have hhead := List.head?_dropWhile_not (!p ·) s
      cases hrest : s.dropWhile (!p ·) with
      | nil =>
          rw [hrest, List.append_nil] at hsplit
          exact last s (hsplit ▸ hword)
      | cons c t =>
          rw [hrest] at hsplit hhead
          rw [← hsplit]
          refine more _ c t hword (by simpa using hhead) (ih t.length ?_ t rfl)
          rw [← hn, ← hsplit, List.length_append, List.length_cons]
          omega

/-- White space parts the words. -/
theorem words_append_cons (a : List Char) {c : Char} (hc : isBlank c = true) (b : List Char) :
    words (a ++ c :: b) = words a ++ words b := by
  rw [words, words, words, splitWhere_eq_splitOnP, splitWhere_eq_splitOnP, splitWhere_eq_splitOnP,
    List.splitOnP_append_cons a b hc, List.filter_append]

/-- A text without white space is a word. -/
theorem words_of_not_blank {s : List Char} (hne : s ≠ []) (hs : ∀ c ∈ s, isBlank c = false) :
    words s = [s] := by
  have hone : s.splitOnP isBlank = [s] := List.splitOnP_eq_singleton fun c hc => by simp [hs c hc]
  rw [words, splitWhere_eq_splitOnP, hone]
  exact List.filter_cons_of_pos (by simpa using hne)

/-- A word is not empty and has no white space. -/
theorem of_mem_words {s w : List Char} (h : w ∈ words s) : w ≠ [] ∧ ∀ c ∈ w, isBlank c = false := by
  obtain ⟨hmem, hne⟩ := List.mem_filter.1 h
  exact ⟨by simpa using hne, not_of_mem_splitWhere hmem⟩

/-- A word goes on with the text behind it up to its white space. -/
theorem words_append {a : List Char} (hne : a ≠ []) (ha : ∀ c ∈ a, isBlank c = false) {c : Char}
    (hc : isBlank c = false) (s : List Char) :
    ∃ w ws, words (c :: s) = w :: ws ∧ words (a ++ c :: s) = (a ++ w) :: ws := by
  have hlong : ∀ {w : List Char}, (∀ d ∈ w, isBlank d = false) → ∀ d ∈ a ++ w, isBlank d = false :=
    fun hw => List.forall_mem_append.2 ⟨ha, hw⟩
  have hfull : ∀ w, a ++ w ≠ [] := fun w h => hne (List.append_eq_nil_iff.1 h).1
  generalize htext : c :: s = text
  induction text using pieces_induction isBlank with
  | last w hw =>
      have hwne : w ≠ [] := htext ▸ List.cons_ne_nil c s
      exact ⟨w, [], words_of_not_blank hwne hw, words_of_not_blank (hfull w) (hlong hw)⟩
  | more w d t hw hd _ =>
      have hwne : w ≠ [] := by
        rintro rfl
        obtain ⟨rfl, -⟩ := List.cons.inj htext
        rw [hc] at hd
        cases hd
      refine ⟨w, words t, ?_, ?_⟩
      · rw [words_append_cons w hd, words_of_not_blank hwne hw]
        rfl
      · rw [← List.append_assoc, words_append_cons _ hd, words_of_not_blank (hfull w) (hlong hw)]
        rfl

/-- The words of a text are all of it but the white space. -/
theorem flatten_words (s : List Char) : (words s).flatten = s.filter (!isBlank ·) := by
  induction s using pieces_induction isBlank with
  | last w hw =>
      have hall : w.filter (!isBlank ·) = w := List.filter_eq_self.2 fun c hc => by simp [hw c hc]
      by_cases hne : w = []
      · rw [hne]
        rfl
      · rw [words_of_not_blank hne hw, hall, List.flatten_singleton]
  | more w c t hw hc ih =>
      have hall : w.filter (!isBlank ·) = w := List.filter_eq_self.2 fun c hc => by simp [hw c hc]
      rw [words_append_cons w hc, List.flatten_append, ih, List.filter_append, hall,
        List.filter_cons_of_neg (by simp [hc])]
      by_cases hne : w = []
      · rw [hne]
        rfl
      · rw [words_of_not_blank hne hw, List.flatten_singleton]

/-- Words with spaces between them are the words of the text. -/
theorem words_intercalate {ws : List (List Char)}
    (h : ∀ w ∈ ws, w ≠ [] ∧ ∀ c ∈ w, isBlank c = false) :
    words ([' '].intercalate ws) = ws := by
  induction ws with
  | nil => rfl
  | cons w ws ih =>
      obtain ⟨hw, hws⟩ := List.forall_mem_cons.1 h
      cases ws with
      | nil =>
          exact (congrArg words List.intercalate_singleton).trans (words_of_not_blank hw.1 hw.2)
      | cons w' ws =>
          rw [List.intercalate_cons_cons, List.append_assoc, List.singleton_append,
            words_append_cons _ isBlank_space, words_of_not_blank hw.1 hw.2, ih hws]
          rfl

/-! ## Lines -/

/-- Splitting at a character is splitting by it. -/
theorem splitChar_eq_splitOn (sep : Char) (text : List Char) :
    splitChar sep text = text.splitOn sep :=
  splitWhere_eq_splitOnP (· == sep) text

/-- A separator parts the pieces. -/
theorem splitChar_append_cons (sep : Char) (a b : List Char) :
    splitChar sep (a ++ sep :: b) = splitChar sep a ++ splitChar sep b := by
  rw [splitChar_eq_splitOn, splitChar_eq_splitOn, splitChar_eq_splitOn]
  exact List.splitOnP_append_cons a b (beq_self_eq_true sep)

/-- A text without the separator is one part. -/
theorem splitChar_of_not_mem {sep : Char} {text : List Char} (h : sep ∉ text) :
    splitChar sep text = [text] := by
  rw [splitChar_eq_splitOn, List.splitOn_eq_singleton h]

/-- A text has at least one part. -/
theorem splitChar_ne_nil (sep : Char) (text : List Char) : splitChar sep text ≠ [] := by
  rw [splitChar_eq_splitOn]
  exact List.splitOn_ne_nil sep text

/-- The last piece of a text goes on with the first one of the text behind it. -/
theorem splitChar_append (sep : Char) (a b : List Char) : ∃ init last first more,
    splitChar sep a = init ++ [last] ∧ splitChar sep b = first :: more ∧
      splitChar sep (a ++ b) = init ++ (last ++ first) :: more := by
  simp only [splitChar_eq_splitOn]
  induction a with
  | nil =>
      obtain ⟨first, more, hb⟩ := List.exists_cons_of_ne_nil (List.splitOn_ne_nil sep b)
      exact ⟨[], [], first, more, rfl, hb, hb⟩
  | cons c a ih =>
      obtain ⟨init, last, first, more, ha, hb, hab⟩ := ih
      rw [List.cons_append, List.splitOn_cons_eq_if_modifyHead,
        List.splitOn_cons_eq_if_modifyHead, ha, hab]
      split
      · exact ⟨[] :: init, last, first, more, rfl, hb, rfl⟩
      · cases init with
        | nil => exact ⟨[], c :: last, first, more, rfl, hb, rfl⟩
        | cons d init => exact ⟨(c :: d) :: init, last, first, more, rfl, hb, rfl⟩

/-- The first part of a text is a start of it. -/
theorem prefix_of_splitChar {sep : Char} {text first : List Char} {more : List (List Char)}
    (h : splitChar sep text = first :: more) : first <+: text := by
  rw [splitChar_eq_splitOn] at h
  have hjoin := @List.intercalate_splitOn _ text _ _ sep
  rw [h] at hjoin
  cases more with
  | nil => exact ⟨[], by rw [← hjoin]; simp⟩
  | cons second more =>
      rw [List.intercalate_cons_cons] at hjoin
      exact ⟨_, (List.append_assoc ..).symm.trans hjoin⟩

/-- The characters of a piece stand in the text. -/
theorem subset_of_mem_splitChar {sep : Char} {text piece : List Char}
    (h : piece ∈ splitChar sep text) :
    piece ⊆ text := by
  rw [splitChar_eq_splitOn] at h
  induction text generalizing piece with
  | nil => rw [List.mem_singleton.1 h]; exact List.nil_subset _
  | cons c text ih =>
      obtain ⟨first, more, hsplit⟩ := List.exists_cons_of_ne_nil (List.splitOn_ne_nil sep text)
      rw [List.splitOn_cons_eq_if_modifyHead, hsplit] at h
      rw [hsplit] at ih
      split at h
      · rcases List.mem_cons.1 h with rfl | h
        · exact List.nil_subset _
        · exact List.subset_cons_of_subset c (ih h)
      · rcases List.mem_cons.1 h with rfl | h
        · exact List.cons_subset_cons c (ih List.mem_cons_self)
        · exact List.subset_cons_of_subset c (ih (List.mem_cons_of_mem _ h))

/-- The lines of a text with a newline in it are those up to the newline and those behind it. -/
theorem lines_append_cons (a b : List Char) :
    lines (a ++ '\n' :: b) = lines (a ++ ['\n']) ++ lines b := by
  have hend : lines (a ++ ['\n']) = (splitChar '\n' a).map dropReturn := by
    have hsplit : splitChar '\n' (a ++ ['\n']) = splitChar '\n' a ++ [[]] :=
      splitChar_append_cons '\n' a []
    rw [lines, hsplit, List.getLast?_concat, List.dropLast_concat]
  obtain ⟨init, last, hb⟩ :=
    (List.eq_nil_or_concat (splitChar '\n' b)).resolve_left (splitChar_ne_nil '\n' b)
  rw [hend, lines, lines, splitChar_append_cons, hb, List.concat_eq_append, ← List.append_assoc,
    List.getLast?_concat, List.getLast?_concat, List.dropLast_concat, List.dropLast_concat,
      List.map_append]
  cases last with
  | nil => rfl
  | cons c last => exact List.append_assoc ..

/-- Without a carriage return at its end a line is left as it is. -/
theorem dropReturn_of_ne {line : List Char} (h : line.getLast? ≠ some '\r') :
    dropReturn line = line :=
  if_neg h

/-- The lines of a text are its first line and those behind it. -/
theorem lines_line {line : List Char} (h : '\n' ∉ line) (rest : List Char) :
    lines (line ++ '\n' :: rest) = dropReturn line :: lines rest := by
  have hsplit : splitChar '\n' (line ++ ['\n']) = [line, []] := by
    rw [splitChar_append_cons, splitChar_of_not_mem h]
    rfl
  have hline : lines (line ++ ['\n']) = [dropReturn line] := by
    rw [lines, hsplit]
    rfl
  rw [lines_append_cons, hline]
  rfl

/-- A character that is equal to none of a text does not stand in it. -/
theorem not_mem_of_beq {c : Char} {s : List Char} (h : ∀ d ∈ s, (d == c) = false) : c ∉ s :=
  fun hmem => by
  simpa using h c hmem

/-- There is no newline in a line. -/
theorem newline_not_mem_of_mem_lines {text line : List Char} (h : line ∈ lines text) :
    '\n' ∉ line := by
  have hpiece : ∀ piece ∈ splitChar '\n' text, '\n' ∉ piece := fun _ hpiece =>
    not_mem_of_beq (not_of_mem_splitWhere hpiece)
  have hreturn : ∀ piece : List Char, '\n' ∉ piece → '\n' ∉ dropReturn piece := by
    intro piece hpiece
    rw [dropReturn]
    split
    · exact fun hmem => hpiece (List.dropLast_subset _ hmem)
    · exact hpiece
  have hfront : ∀ line ∈ (splitChar '\n' text).dropLast.map dropReturn, '\n' ∉ line := by
    intro line hline
    obtain ⟨piece, hmem, rfl⟩ := List.mem_map.1 hline
    exact hreturn piece (hpiece piece (List.dropLast_subset _ hmem))
  rw [lines] at h
  split at h
  · exact hfront line h
  · next last _ hlast =>
    rcases List.mem_append.1 h with h | h
    · exact hfront line h
    · rw [List.mem_singleton.1 h]
      exact hpiece _ (List.mem_of_getLast? hlast)
  · cases h

/-- A text without a newline is one line. -/
theorem lines_of_not_mem {s : List Char} (h : '\n' ∉ s) (hne : s ≠ []) : lines s = [s] := by
  obtain ⟨c, s, rfl⟩ := List.exists_cons_of_ne_nil hne
  rw [lines, splitChar_of_not_mem h]
  rfl

/-- A line without the carriage return is a start of it. -/
theorem dropReturn_prefix (line : List Char) : dropReturn line <+: line := by
  rw [dropReturn]
  split
  · exact List.dropLast_prefix line
  · exact List.prefix_refl line

/-- A carriage return is dropped from the last of two parts. -/
theorem dropReturn_append (a : List Char) {b : List Char} (hb : b ≠ []) :
    dropReturn (a ++ b) = a ++ dropReturn b := by
  obtain ⟨b, c, rfl⟩ := (List.eq_nil_or_concat b).resolve_left hb
  rw [List.concat_eq_append, dropReturn, dropReturn, ← List.append_assoc, List.getLast?_concat,
    List.getLast?_concat, List.dropLast_concat, List.dropLast_concat]
  split
  · rfl
  · exact List.append_assoc ..

/-- A line of a text stands behind as many newlines as there are lines in front of it. -/
theorem exists_place_of_line {text line : List Char} {n : Nat} (h : (lines text)[n]? = some line) :
    ∃ a b, text = a ++ (line ++ b) ∧ a.count '\n' = n := by
  induction text using pieces_induction (· == '\n') generalizing n with
  | last s hs =>
      have hline := not_mem_of_beq hs
      by_cases hne : s = []
      · rw [hne] at h
        cases h
      · rw [lines_of_not_mem hline hne] at h
        rw [List.getElem?_singleton] at h
        split at h
        · next hn =>
          obtain rfl := Option.some.inj h
          exact ⟨[], [], by simp, hn.symm⟩
        · cases h
  | more w c s hw hc ih =>
      obtain rfl := beq_iff_eq.1 hc
      have hline := not_mem_of_beq hw
      rw [lines_line hline] at h
      cases n with
      | zero =>
          obtain rfl : dropReturn w = line := Option.some.inj h
          obtain ⟨b, hb⟩ := dropReturn_prefix w
          exact ⟨[], b ++ '\n' :: s, by rw [List.nil_append, ← List.append_assoc, hb], rfl⟩
      | succ n =>
          obtain ⟨a, b, rfl, rfl⟩ := ih h
          refine ⟨w ++ '\n' :: a, b, by simp, ?_⟩
          rw [List.count_append, List.count_cons_self, List.count_eq_zero.2 hline, Nat.zero_add]

/-- A word of a line stands in the line behind as many newlines as there are in front of it. -/
theorem exists_line_of_place {word : List Char} (hword : '\n' ∉ word) (hne : word ≠ [])
    (hlast : word.getLast? ≠ some '\r') (front back : List Char) :
    ∃ line, (lines (front ++ (word ++ back)))[front.count '\n']? = some line ∧ word <:+: line := by
  induction front using pieces_induction (· == '\n') with
  | last s hs =>
      -- the word begins on the last line of `front`
      have hline := not_mem_of_beq hs
      have hlong : ∀ y : List Char, '\n' ∉ y → '\n' ∉ s ++ (word ++ y) := fun y hy hmem => by
        rcases List.mem_append.1 hmem with hmem | hmem
        · exact hline hmem
        · exact (List.mem_append.1 hmem).elim hword hy
      rw [List.count_eq_zero.2 hline]
      by_cases hback : '\n' ∈ back
      · obtain ⟨y, z, rfl, hy⟩ := List.eq_append_cons_of_mem hback
        have htext : s ++ (word ++ (y ++ '\n' :: z)) = (s ++ (word ++ y)) ++ '\n' :: z := by simp
        refine ⟨dropReturn (s ++ (word ++ y)), by rw [htext, lines_line (hlong y hy)]; rfl, ?_⟩
        rw [dropReturn_append s (by simp [hne])]
        by_cases hend : y = []
        · rw [hend, List.append_nil, dropReturn_of_ne hlast]
          exact (List.suffix_append s word).isInfix
        · rw [dropReturn_append word hend]
          exact ⟨s, dropReturn y, by simp⟩
      · rw [lines_of_not_mem (hlong back hback) (by simp [hne])]
        exact ⟨_, rfl, s, back, by simp⟩
  | more w c s hw hc ih =>
      -- a whole line of `front` is passed
      obtain rfl := beq_iff_eq.1 hc
      have hline := not_mem_of_beq hw
      obtain ⟨line, hget, hin⟩ := ih
      refine ⟨line, ?_, hin⟩
      rw [List.append_assoc, List.cons_append, lines_line hline, List.count_append,
        List.count_cons_self, List.count_eq_zero.2 hline, Nat.zero_add,
          List.getElem?_cons_succ, hget]

end CodeAtlas.Text
