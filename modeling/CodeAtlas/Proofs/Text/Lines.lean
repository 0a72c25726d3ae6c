import CodeAtlas.Proofs.Text.Trim
import CodeAtlas.Text.Indent
import CodeAtlas.Text.LineIndex
import CodeAtlas.Text.Utf8
import Mathlib.Order.Monotone.Basic

/-!
# Numbers of lines, and blocks of lines

The line of an offset counts the newline bytes in front of it, whether they are counted or looked up
in the table of a text. A block of indented lines is told by what stands in it, at its end and
behind it, and blocks of nested headers are nested.
-/

namespace CodeAtlas.Text

/-! ## Newline bytes -/

/-- The byte of a newline. -/
def newlineByte : UInt8 := 10

/-- A character has as many bytes as it is counted for. -/
theorem length_encodeChar (c : Char) : (encodeChar c).length = c.utf8Size :=
  String.length_utf8EncodeChar c

/-- The byte of a newline stands in no other character: their bytes are that of another ASCII
character, or all from 128 on. -/
theorem newlineByte_mem_encodeChar {c : Char} (h : newlineByte ∈ encodeChar c) : c = '\n' := by
  have hlow : ∀ x, x < 256 → newlineByte = UInt8.ofNat x → x = 10 := by
    intro x hx hbyte
    have hx' := congrArg UInt8.toNat hbyte
    rw [UInt8.toNat_ofNat', Nat.mod_eq_of_lt hx] at hx'
    exact hx'.symm
  rw [encodeChar, String.utf8EncodeChar] at h
  have hval : c.val.toNat = 10 := by
    generalize c.val.toNat = v at h
    split at h
    · exact hlow v (by omega) (List.mem_singleton.1 h)
    · split at h
      · simp only [List.mem_cons, List.not_mem_nil, or_false] at h
        rcases h with h | h <;> have := hlow _ (by omega) h <;> omega
      · split at h
        · simp only [List.mem_cons, List.not_mem_nil, or_false] at h
          rcases h with h | h | h <;> have := hlow _ (by omega) h <;> omega
        · simp only [List.mem_cons, List.not_mem_nil, or_false] at h
          rcases h with h | h | h | h <;> have := hlow _ (by omega) h <;> omega
  exact Char.toNat_inj.1 hval

/-- The newlines of the characters that fit into some bytes are the newline bytes among these. -/
theorem count_take_encode (n : Nat) (text : List Char) :
    ((encode text).take n).count newlineByte = (takeBytes n text).count '\n' := by
  induction text generalizing n with
  | nil =>
      rw [encode, List.flatMap_nil, List.take_nil, takeBytes_nil, List.count_nil, List.count_nil]
  | cons c text ih =>
      rw [encode, List.flatMap_cons, ← encode, List.take_append, List.count_append,
        length_encodeChar, takeBytes_cons]
      split
      · next hc =>
        rw [List.take_of_length_le (by rwa [length_encodeChar]), ih, List.count_cons, Nat.add_comm]
        congr 1
        by_cases hnewline : c = '\n'
        · subst hnewline
          rfl
        · rw [List.count_eq_zero.2 fun h => hnewline (newlineByte_mem_encodeChar h),
            if_neg (by simpa using hnewline)]
      · next hc =>
        -- the character is cut, so it has several bytes, or no byte of it is taken
        have hnone : newlineByte ∉ (encodeChar c).take n := by
          intro h
          obtain rfl := newlineByte_mem_encodeChar (List.mem_of_mem_take h)
          obtain rfl : n = 0 := Nat.lt_one_iff.1 (Nat.lt_of_not_le hc)
          exact List.not_mem_nil h
        rw [List.count_eq_zero.2 hnone, show n - c.utf8Size = 0 by omega]
        rfl

namespace LineIndex

/-! ## Lines of offsets -/

/-- What a search for a number in ascending numbers may answer: the place where it stands, or, if it
is missing, the place where it would have to be put. -/
inductive Answers (sorted : List Nat) (n : Nat) : Nat → Prop where
  | found {front back : List Nat} : sorted = front ++ n :: back → Answers sorted n front.length
  | missing {front back : List Nat} : sorted = front ++ back → (∀ m ∈ front, m < n) →
    (∀ m ∈ back, n < m) →
      Answers sorted n front.length

/-- Of numbers that are split at a bound those in front are counted. -/
theorem countP_append {front back : List Nat} {n : Nat} (hfront : ∀ m ∈ front, m < n)
    (hback : ∀ m ∈ back, n ≤ m) :
    (front ++ back).countP (· < n) = front.length := by
  rw [List.countP_append, List.countP_eq_length.2 fun m hm => decide_eq_true (hfront m hm),
    List.countP_eq_zero.2 fun m hm hlt => Nat.not_lt.2 (hback m hm) (of_decide_eq_true hlt),
      Nat.add_zero]

/-- In both cases the place is the number of those that are smaller. -/
theorem answers_iff {sorted : List Nat} (h : sorted.Pairwise (· < ·)) {n place : Nat} :
    Answers sorted n place ↔ place = sorted.countP (· < n) := by
  constructor
  · -- the place where `n` stands, or the one where it would
    rintro (hsplit | ⟨rfl, hfront, hback⟩)
    · rw [hsplit, List.pairwise_append, List.pairwise_cons] at h
      obtain ⟨-, ⟨hbehind, -⟩, hbefore⟩ := h
      rw [hsplit, countP_append (fun m hm => hbefore m hm n List.mem_cons_self)]
      exact List.forall_mem_cons.2 ⟨Nat.le_refl n, fun m hm => Nat.le_of_lt (hbehind m hm)⟩
    · exact (countP_append hfront fun m hm => Nat.le_of_lt (hback m hm)).symm
  · -- the list is cut where it reaches `n`
    rintro rfl
    have hfront : ∀ m ∈ sorted.takeWhile (· < n), m < n := fun m hm =>
      of_decide_eq_true (List.all_eq_true.1 List.all_takeWhile m hm)
    have hsplit : sorted.takeWhile (· < n) ++ sorted.dropWhile (· < n) = sorted :=
      List.takeWhile_append_dropWhile
    have hfirst := List.head?_dropWhile_not (· < n) sorted
    generalize sorted.takeWhile (· < n) = front at hfront hsplit
    cases hrest : sorted.dropWhile (· < n) with
    | nil =>
        rw [hrest, List.append_nil] at hsplit
        rw [List.countP_eq_length.2 fun m hm => decide_eq_true (hfront m (hsplit ▸ hm)), ← hsplit]
        exact .missing (List.append_nil _).symm hfront nofun
    | cons first back =>
        rw [hrest] at hsplit hfirst
        have hle : n ≤ first := by simpa using hfirst
        obtain ⟨-, hback, -⟩ := List.pairwise_append.1 (hsplit ▸ h)
        have hbehind := (List.pairwise_cons.1 hback).1
        have hcount := countP_append hfront
          (List.forall_mem_cons.2 ⟨hle,
            fun m hm => Nat.le_of_lt (Nat.lt_of_le_of_lt hle (hbehind m hm))⟩)
        rw [← hsplit, hcount]
        rcases Nat.lt_or_eq_of_le hle with hlt | rfl
        · exact .missing rfl hfront
            (List.forall_mem_cons.2 ⟨hlt, fun m hm => Nat.lt_trans hlt (hbehind m hm)⟩)
        · exact .found rfl

/-- The line of an offset is told by the newline bytes in front of it. -/
theorem lineAt_eq (text : List Char) (offset : Nat) :
    lineAt text offset = 1 + ((encode text).take offset).count newlineByte := by
  rw [lineAt, count_take_encode, Nat.add_comm]

/-- The line of an offset, inside a text or not, is the number of the newline bytes in front of it
and one more, by the table as by counting: whatever place a search for the offset may answer is
their number. Later offsets have no earlier lines. -/
theorem lineOf_counts (text : List Char) (offset : Nat) :
    (ofText text).lineOf offset = lineAt text offset
      ∧ lineAt text offset = 1 + ((encode text).take offset).count newlineByte
      ∧ (∀ place, Answers (ofText text).newlines.toList offset place
        ↔ (ofText text).lineOf offset = place + 1)
      ∧ Monotone (ofText text).lineOf := by
  refine ⟨lineOf_ofText text offset, lineAt_eq text offset, fun place => ?_,
    fun offset later hle => ?_⟩
  · have hcount := countP_newlinesFrom 0 offset text
    rw [Nat.zero_add] at hcount
    have hsorted := pairwise_newlinesFrom 0 text
    rw [lineOf_ofText, lineAt, ofText, answers_iff hsorted, hcount,
      Nat.add_right_cancel_iff, eq_comm]
  · rw [lineOf_ofText, lineOf_ofText, lineAt_eq, lineAt_eq]
    exact Nat.add_le_add_left ((List.take_prefix_take_left hle).sublist.count_le newlineByte) 1

end LineIndex

/-! ## Blocks of indented lines -/

/-- The columns in front of line `i`. -/
def depthAt (lines : List (List Char)) (i : Nat) : Nat := indentation (lines.getD i [])

/-- Line `i` is there, and is not blank. -/
def HasText (lines : List (List Char)) (i : Nat) : Prop := isBlankLine (lines.getD i []) = false

/-- The lines from `block.1` up to `block.2` are the block behind line `header`: those with text are
deeper than the header, the last one has text, and the first one with text behind them, if there is
one, is not deeper. -/
structure IsBlock (lines : List (List Char)) (header : Nat) (block : Nat × Nat) : Prop where
  start_eq : block.1 = header + 1
  start_le : block.1 ≤ block.2
  deeper : ∀ i, block.1 ≤ i → i < block.2 → HasText lines i → depthAt lines header < depthAt lines i
  last : block.1 < block.2 → HasText lines (block.2 - 1)
  behind : ∀ i, block.2 ≤ i → HasText lines i → (∀ j, block.2 ≤ j → j < i → ¬ HasText lines j) →
    depthAt lines i ≤ depthAt lines header

section
variable {lines : List (List Char)} {header inner : Nat} {block block' : Nat × Nat}

/-- In front of a line with text behind a block stands one that is not deeper than the header, or it
is this line. -/
theorem IsBlock.exists_shallow (h : IsBlock lines header block) {i : Nat} (hi : block.2 ≤ i)
    (htext : HasText lines i) : ∃ j, block.2 ≤ j ∧ j ≤ i ∧ HasText lines j
    ∧ depthAt lines j ≤ depthAt lines header := by
  induction i using Nat.strongRecOn with
  | ind i ih =>
      by_cases hearlier : ∃ j, block.2 ≤ j ∧ j < i ∧ HasText lines j
      · obtain ⟨j, hj, hlt, hjtext⟩ := hearlier
        obtain ⟨k, hk, hkj, hshallow⟩ := ih j hlt hj hjtext
        exact ⟨k, hk, Nat.le_trans hkj (Nat.le_of_lt hlt), hshallow⟩
      · exact ⟨i, hi, Nat.le_refl i, htext,
          h.behind i hi htext fun j hj hlt hjtext => hearlier ⟨j, hj, hlt, hjtext⟩⟩

/-- The block of a header that stands in a block, or of the same one, ends in it if its header is
not less deep. -/
theorem IsBlock.stop_le (h : IsBlock lines header block) (h' : IsBlock lines inner block')
    (hinner : inner < block.2) (hdepth : depthAt lines header ≤ depthAt lines inner) :
    block'.2 ≤ block.2 := by
  by_contra hlt
  have hstart := h'.start_eq
  obtain ⟨j, hj, hle, htext, hshallow⟩ := h.exists_shallow (by omega) (h'.last (by omega))
  have hdeep := h'.deeper j (by omega) (by omega) htext
  omega

/-- A header has one block. -/
theorem IsBlock.unique (h : IsBlock lines header block) (h' : IsBlock lines header block') :
    block = block' := by
  have hstart := h.start_eq
  have hle := h.start_le
  have hstart' := h'.start_eq
  have hle' := h'.start_le
  have hstop := h.stop_le h' (by omega) (Nat.le_refl _)
  have hstop' := h'.stop_le h (by omega) (Nat.le_refl _)
  exact Prod.ext (hstart.trans hstart'.symm) (Nat.le_antisymm hstop' hstop)

/-- What has been found out when the lines in front of line `n` have been looked at: the block so
far ends in front of line `stop`, and behind it there are blank lines only. -/
structure Scanned (lines : List (List Char)) (header stop n : Nat) : Prop where
  start_le : header + 1 ≤ stop
  stop_le : stop ≤ n
  deeper : ∀ i, header + 1 ≤ i → i < stop → HasText lines i → depthAt lines header < depthAt lines i
  last : header + 1 < stop → HasText lines (stop - 1)
  blank : ∀ i, stop ≤ i → i < n → ¬ HasText lines i

namespace Scanned
variable {stop n : Nat}

/-- A blank line changes nothing. -/
theorem skip (h : Scanned lines header stop n) (hn : ¬ HasText lines n) :
    Scanned lines header stop (n + 1) := by
  refine ⟨h.start_le, Nat.le_succ_of_le h.stop_le, h.deeper, h.last, fun i hstop hi => ?_⟩
  rcases Nat.lt_succ_iff_lt_or_eq.1 hi with hi | rfl
  · exact h.blank i hstop hi
  · exact hn

/-- A deeper line belongs to the block, with the blank ones in front of it. -/
theorem take (h : Scanned lines header stop n) (hn : HasText lines n)
    (hdeep : depthAt lines header < depthAt lines n) : Scanned lines header (n + 1) (n + 1) := by
  have hstart := h.start_le
  have hstop := h.stop_le
  refine ⟨by omega, Nat.le_refl _, fun i hi hlt htext => ?_, fun _ => hn,
    fun i hle hlt => absurd hlt (Nat.not_lt.2 hle)⟩
  rcases Nat.lt_succ_iff_lt_or_eq.1 hlt with hlt | rfl
  · exact h.deeper i hi (Nat.lt_of_not_le fun hle => h.blank i hle hlt htext) htext
  · exact hdeep

/-- The block is complete if no line with text is left, or the next one is not deeper. -/
theorem isBlock (h : Scanned lines header stop n)
    (hnext : (∃ i, n ≤ i ∧ HasText lines i) →
      HasText lines n ∧ depthAt lines n ≤ depthAt lines header) :
    IsBlock lines header (header + 1, stop) := by
  refine ⟨rfl, h.start_le, h.deeper, h.last, fun i hi htext hfirst => ?_⟩
  have hle : n ≤ i := Nat.le_of_not_lt fun hlt => h.blank i hi hlt htext
  obtain ⟨hn, hshallow⟩ := hnext ⟨i, hle, htext⟩
  rcases Nat.lt_or_eq_of_le hle with hlt | rfl
  · exact absurd hn (hfirst n h.stop_le hlt)
  · exact hshallow

/-- The search goes on to the end of the block. -/
theorem isBlock_indentedEnd (h : Scanned lines header stop n) {rest : List (List Char)}
    (hrest : lines.drop n = rest) :
    IsBlock lines header (header + 1, indentedEnd (depthAt lines header) n stop rest) := by
  induction rest generalizing n stop with
  | nil =>
      refine h.isBlock fun ⟨i, hi, htext⟩ => ?_
      have hlength : lines.length ≤ i := Nat.le_trans (List.drop_eq_nil_iff.1 hrest) hi
      rw [HasText, List.getD_eq_getElem?_getD, List.getElem?_eq_none hlength] at htext
      cases htext
  | cons line rest ih =>
      have hline : lines.getD n [] = line := by
        rw [List.getD_eq_getElem?_getD, ← List.head?_drop, hrest]
        rfl
      have hbehind : lines.drop (n + 1) = rest := by rw [← List.tail_drop, hrest, List.tail_cons]
      rw [indentedEnd, ← hline]
      split
      · next hblank =>
        exact ih (h.skip fun htext => Bool.false_ne_true (htext.symm.trans hblank)) hbehind
      · next hblank =>
        have htext : HasText lines n := Bool.eq_false_iff.2 hblank
        split
        · next hshallow => exact h.isBlock fun _ => ⟨htext, hshallow⟩
        · next hdeep => exact ih (h.take htext (Nat.lt_of_not_le hdeep)) hbehind

end Scanned

/-- The lines that are found behind a header are its block. -/
theorem isBlock_indentedBlock (lines : List (List Char)) (header : Nat) :
    IsBlock lines header (indentedBlock lines header) := by
  have hstart : Scanned lines header (header + 1) (header + 1) := by
    refine ⟨Nat.le_refl _, Nat.le_refl _, fun i hi hlt => ?_,
      fun hlt => absurd hlt (Nat.lt_irrefl _), fun i hi hlt => ?_⟩ <;>
      exact absurd hlt (Nat.not_lt.2 hi)
  have hrest : lines.drop (header + 1) = (lines.drop header).tail := List.tail_drop.symm
  have hblock := hstart.isBlock_indentedEnd hrest
  rw [indentedBlock]
  cases hdrop : lines.drop header with
  | nil =>
      rw [hdrop] at hblock
      exact hblock
  | cons first rest =>
      have hdepth : depthAt lines header = indentation first := by
        rw [depthAt, List.getD_eq_getElem?_getD, ← List.head?_drop, hdrop]
        rfl
      rw [hdrop, hdepth] at hblock
      exact hblock

end

/-- The block behind a header is the only one: its lines with text are deeper, the last has text,
and the first with text behind it is not deeper. The block of a deeper header in it lies in it. -/
theorem indentedBlock_exact (lines : List (List Char)) (header : Nat) :
    (∀ block, IsBlock lines header block ↔ block = indentedBlock lines header)
      ∧ ∀ inner, (indentedBlock lines header).1 ≤ inner → inner < (indentedBlock lines header).2 →
        depthAt lines header < depthAt lines inner →
        (indentedBlock lines header).1 < (indentedBlock lines inner).1
          ∧ (indentedBlock lines inner).2 ≤ (indentedBlock lines header).2 := by
  have hblock := isBlock_indentedBlock lines header
  refine ⟨fun block => ⟨fun h => h.unique hblock, fun h => h ▸ hblock⟩,
    fun inner hle hlt hdepth => ?_⟩
  have hinner := isBlock_indentedBlock lines inner
  refine ⟨?_, hblock.stop_le hinner hlt (Nat.le_of_lt hdepth)⟩
  rw [hinner.start_eq]
  exact Nat.lt_succ_of_le hle

/-! ### A class with a method -/

/-- Spaces in front of a printed character are the columns of a line, which has text. -/
theorem indentation_spaces (n : Nat) {c : Char} (hc : isPrinted c = true) (text : List Char) :
    indentation (List.replicate n ' ' ++ c :: text) = n
      ∧ isBlankLine (List.replicate n ' ' ++ c :: text) = false := by
  have hblank := isBlank_of_isPrinted hc
  constructor
  · have hcolumns : ∀ m, (List.replicate n ' ').foldl (fun n c => n + if c = '\t' then 4 else 1) m
        = m + n := by
      intro m
      induction n generalizing m with
      | zero => rfl
      | succ n ih =>
          rw [List.replicate_succ, List.foldl_cons, ih, if_neg (by decide)]
          omega
    rw [indentation, List.takeWhile_append_of_pos fun d hd =>
      (List.eq_of_mem_replicate hd).symm ▸ isBlank_space,
        List.takeWhile_cons_of_neg (by rw [hblank]; exact Bool.false_ne_true), List.append_nil,
        hcolumns, Nat.zero_add]
  · rw [isBlankLine, List.all_append, List.all_cons, hblank, Bool.false_and, Bool.and_false]

/-- A class with a method, a blank line in the body of this, and a line behind the class. -/
def classLines : List (List Char) :=
  ["class A:".toList, "  def f():".toList, "    x = 1".toList, [], "    return x".toList,
    "y = 2".toList]

/-- The block of a class and that of a method in it, which are found by their depth. -/
theorem indentedBlock_classLines : indentedBlock classLines 0 = (1, 5)
    ∧ indentedBlock classLines 1 = (2, 5)
    ∧ depthAt classLines 0 = 0 ∧ depthAt classLines 1 = 2 := by
  have hclass : indentation "class A:".toList = 0 ∧ isBlankLine "class A:".toList = false :=
    indentation_spaces 0 (c := 'c') (by decide) "lass A:".toList
  have hmethod : indentation "  def f():".toList = 2 ∧ isBlankLine "  def f():".toList = false :=
    indentation_spaces 2 (c := 'd') (by decide) "ef f():".toList
  have hfirst : indentation "    x = 1".toList = 4 ∧ isBlankLine "    x = 1".toList = false :=
    indentation_spaces 4 (c := 'x') (by decide) " = 1".toList
  have hlast : indentation "    return x".toList = 4 ∧ isBlankLine "    return x".toList = false :=
    indentation_spaces 4 (c := 'r') (by decide) "eturn x".toList
  have hbehind : indentation "y = 2".toList = 0 ∧ isBlankLine "y = 2".toList = false :=
    indentation_spaces 0 (c := 'y') (by decide) " = 2".toList
  have hempty : isBlankLine [] = true := rfl
  refine ⟨?_, ?_, hclass.1, hmethod.1⟩
  · simp [classLines, indentedBlock, indentedEnd, hclass, hmethod, hfirst, hlast, hbehind, hempty,
      -String.reduceToList]
  · simp [classLines, indentedBlock, indentedEnd, hmethod, hfirst, hlast, hbehind, hempty,
      -String.reduceToList]

/-- The block of the method ends with that of the class. -/
theorem indentedBlock_exact_method :
    (indentedBlock classLines 0).1 ≤ 1 ∧ 1 < (indentedBlock classLines 0).2
      ∧ depthAt classLines 0 < depthAt classLines 1
      ∧ (indentedBlock classLines 1).2 ≤ (indentedBlock classLines 0).2 := by
  obtain ⟨hclass, -, hdepth, hdepth'⟩ := indentedBlock_classLines
  have hstart : (indentedBlock classLines 0).1 ≤ 1 := by rw [hclass]
  have hstop : 1 < (indentedBlock classLines 0).2 := by rw [hclass]; decide
  have hdeep : depthAt classLines 0 < depthAt classLines 1 := by rw [hdepth, hdepth']; decide
  exact ⟨hstart, hstop, hdeep, ((indentedBlock_exact classLines 0).2 1 hstart hstop hdeep).2⟩

end CodeAtlas.Text
