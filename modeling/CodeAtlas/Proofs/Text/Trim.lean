import CodeAtlas.Json.Reader
import CodeAtlas.Text.Basic

/-!
# Trimming

Among the ASCII characters white space is told by a mask, and none that is printed is white space.
Trimming the end of a text takes the longest run of white space from it.
-/

namespace CodeAtlas.Text

open Unicode

/-! ## White space -/

/-- The masks of the ASCII white space. -/
theorem blanks_masks : blanks.low = 4294983168 ∧ blanks.high = 0 := by
  rw [blanks, Trait.members, CharSet.ofText, String.foldl_eq_foldl_toList]
  decide +kernel

/-- No printed ASCII character is white space. -/
theorem isBlank_of_printed {c : Char} (h : 33 ≤ c.toNat) (h' : c.toNat < 127) :
    isBlank c = false := by
  obtain ⟨hlow, hhigh⟩ := blanks_masks
  have hall : ∀ n, n < 127 → 33 ≤ n → blanks.holds n = false := by
    unfold CharSet.holds
    rw [hlow, hhigh]
    decide
  exact hall c.toNat h' h

/-- The character is a printed ASCII character. -/
def isPrinted (c : Char) : Bool := decide (33 ≤ c.toNat ∧ c.toNat < 127)

/-- A printed character is not white space. -/
theorem isBlank_of_isPrinted {c : Char} (h : isPrinted c = true) : isBlank c = false :=
  isBlank_of_printed (of_decide_eq_true h).1 (of_decide_eq_true h).2

/-- White space does not stand among printed characters. -/
theorem not_mem_of_isBlank {s : List Char} (hs : s.all isPrinted = true) {c : Char}
    (hc : isBlank c = true) :
    c ∉ s := fun hmem => by
  rw [isBlank_of_isPrinted (List.all_eq_true.1 hs c hmem)] at hc
  cases hc

/-- A digit is not white space. -/
theorem isBlank_of_isDigit {c : Char} (h : c.isDigit = true) : isBlank c = false := by
  simp only [Char.isDigit, Bool.and_eq_true, decide_eq_true_eq, ge_iff_le,
    UInt32.le_iff_toNat_le] at h
  refine isBlank_of_printed (Nat.le_trans (by decide) h.1) ?_
  exact Nat.lt_of_le_of_lt h.2 (by decide)

/-- The letters of ASCII are those in two ranges. -/
theorem isAlpha_iff {c : Char} :
    c.isAlpha = true ↔ (0x41 ≤ c.toNat ∧ c.toNat ≤ 0x5A) ∨ (0x61 ≤ c.toNat ∧ c.toNat ≤ 0x7A) := by
  refine Bool.or_eq_true_iff.trans (or_congr ⟨fun h => ?_, fun h => ?_⟩ ⟨fun h => ?_, fun h => ?_⟩)
  · obtain ⟨hlow, hhigh⟩ : 'A'.val ≤ c.val ∧ c.val ≤ 'Z'.val := of_decide_eq_true h
    exact ⟨UInt32.le_iff_toNat_le.1 hlow, UInt32.le_iff_toNat_le.1 hhigh⟩
  · exact decide_eq_true (p := 'A'.val ≤ c.val ∧ c.val ≤ 'Z'.val)
      ⟨UInt32.le_iff_toNat_le.2 h.1, UInt32.le_iff_toNat_le.2 h.2⟩
  · obtain ⟨hlow, hhigh⟩ := Bool.and_eq_true_iff.1 h
    exact ⟨UInt32.le_iff_toNat_le.1 (of_decide_eq_true hlow),
      UInt32.le_iff_toNat_le.1 (of_decide_eq_true hhigh)⟩
  · exact Bool.and_eq_true_iff.2 ⟨decide_eq_true (UInt32.le_iff_toNat_le.2 h.1),
      decide_eq_true (UInt32.le_iff_toNat_le.2 h.2)⟩

/-- A letter of ASCII is not white space. -/
theorem isBlank_of_isAlpha {c : Char} (h : c.isAlpha = true) : isBlank c = false := by
  have hrange := isAlpha_iff.1 h
  exact isBlank_of_printed (by omega) (by omega)

/-- The blanks between the parts of a document are white space. -/
theorem isBlank_of_isSpace {c : Char} (h : Json.isSpace c = true) : isBlank c = true := by
  obtain ⟨hlow, -⟩ := blanks_masks
  simp only [Json.isSpace, Bool.or_eq_true, beq_iff_eq] at h
  unfold isBlank CharSet.contains CharSet.holds
  rcases h with ((rfl | rfl) | rfl) | rfl
  all_goals rw [hlow]; rfl

/-- The text consists of white space. -/
def AllBlank (s : List Char) : Prop := ∀ c ∈ s, isBlank c = true

/-- A text is blank if the check for it holds. -/
theorem all_isBlank_iff {s : List Char} : s.all isBlank = true ↔ AllBlank s := List.all_eq_true

/-- The text does not end in white space. -/
def Solid (s : List Char) : Prop := ∀ c, s.getLast? = some c → isBlank c = false

theorem solid_nil : Solid [] := nofun

/-- One character that is not white space makes a solid text. -/
theorem solid_singleton {c : Char} (hc : isBlank c = false) : Solid [c] := by
  rintro d ⟨⟩
  exact hc

/-- Solid texts behind each other are a solid text. -/
theorem Solid.append {a s : List Char} (ha : Solid a) (hs : Solid s) : Solid (a ++ s) := by
  intro c hc
  rw [List.getLast?_append] at hc
  cases hlast : s.getLast? with
  | none =>
      rw [hlast] at hc
      exact ha c hc
  | some d =>
      rw [hlast] at hc
      cases hc
      exact hs c hlast

/-- A text with a character behind it that is not white space is solid. -/
theorem solid_append_singleton (s : List Char) {c : Char} (hc : isBlank c = false) :
    Solid (s ++ [c]) := by
  intro d hd
  rw [List.getLast?_concat] at hd
  cases hd
  exact hc

/-- A character that is not white space, with solid text behind it, makes any text in front
solid. -/
theorem solid_append_cons (a : List Char) {c : Char} {s : List Char} (hc : isBlank c = false)
    (hs : Solid s) : Solid (a ++ c :: s) := by
  rw [← List.singleton_append, ← List.append_assoc]
  exact (solid_append_singleton a hc).append hs

/-- A solid text that is not empty makes any text in front solid. -/
theorem Solid.append_cons {a s : List Char} {c : Char} (h : Solid (c :: s)) :
    Solid (a ++ c :: s) := by
  intro d hd
  rw [List.getLast?_append, List.getLast?_cons, Option.some_or] at hd
  exact h d ((List.getLast?_cons).trans hd)

/-! ## The end of a text -/

/-- Nothing is trimmed from the end of a solid text. -/
theorem trimEnd_of_solid {s : List Char} (h : Solid s) : trimEnd s = s := by
  rw [trimEnd, trimEndWhile]
  cases hs : s.reverse with
  | nil => rw [List.reverse_eq_nil_iff.1 hs]; rfl
  | cons c t =>
      have hlast : s.getLast? = some c := by rw [List.getLast?_eq_head?_reverse, hs]; rfl
      rw [List.dropWhile_cons_of_neg (by rw [h c hlast]; exact Bool.false_ne_true), ← hs,
        List.reverse_reverse]

/-- White space at the end makes no difference when the end is trimmed. -/
theorem trimEnd_append_blank (a : List Char) {b : List Char} (hb : AllBlank b) :
    trimEnd (a ++ b) = trimEnd a := by
  rw [trimEnd, trimEndWhile, List.reverse_append, List.dropWhile_append_of_pos]
  · rfl
  · intro c hc
    exact hb c (List.mem_reverse.1 hc)

/-- What is trimmed is white space. -/
theorem exists_trimEnd_append (s : List Char) :
    ∃ b, s = trimEnd s ++ b ∧ AllBlank b ∧ Solid (trimEnd s) := by
  refine ⟨(s.reverse.takeWhile isBlank).reverse, ?_, ?_, ?_⟩
  · rw [trimEnd, trimEndWhile, ← List.reverse_append, List.takeWhile_append_dropWhile,
      List.reverse_reverse]
  · intro c hc
    exact List.all_eq_true.1 List.all_takeWhile c (List.mem_reverse.1 hc)
  · intro c hc
    rw [trimEnd, trimEndWhile, List.getLast?_reverse] at hc
    have := List.head?_dropWhile_not isBlank s.reverse
    rw [hc] at this
    simpa using this

/-- Trimming the end of a text behind a solid one leaves the solid one. -/
theorem trimEnd_append_of_solid {a : List Char} (ha : Solid a) (s : List Char) :
    trimEnd (a ++ s) = a ++ trimEnd s := by
  obtain ⟨b, hs, hb, hsolid⟩ := exists_trimEnd_append s
  have hsplit : a ++ s = (a ++ trimEnd s) ++ b := by rw [List.append_assoc, ← hs]
  rw [hsplit, trimEnd_append_blank _ hb, trimEnd_of_solid (ha.append hsolid)]

/-! ## The start of a text -/

/-- White space at the start makes no difference when the start is trimmed. -/
theorem trimStart_append_blank {b : List Char} (hb : AllBlank b) (s : List Char) :
    trimStart (b ++ s) = trimStart s := List.dropWhile_append_of_pos hb

/-- Nothing is trimmed in front of a character that is not white space. -/
theorem trimStart_cons {c : Char} (hc : isBlank c = false) (s : List Char) :
    trimStart (c :: s) = c :: s :=
  List.dropWhile_cons_of_neg (by rw [hc]; exact Bool.false_ne_true)

/-- Of white space and a text that starts otherwise only the white space is trimmed. -/
theorem trimStart_blank_cons {b : List Char} (hb : AllBlank b) {c : Char} (hc : isBlank c = false)
    (rest : List Char) : trimStart (b ++ c :: rest) = c :: rest := by
  rw [trimStart_append_blank hb, trimStart_cons hc]

/-- What is trimmed from the start is white space. -/
theorem exists_append_trimStart (s : List Char) : ∃ b, AllBlank b ∧ s = b ++ trimStart s :=
  ⟨s.takeWhile isBlank, List.all_eq_true.1 List.all_takeWhile, List.takeWhile_append_dropWhile.symm⟩

/-- White space in front of a text with a visible character is trimmed in front of this
character. -/
theorem trimStart_append_cons (a : List Char) {c : Char} (hc : isBlank c = false) (s : List Char) :
    trimStart (a ++ c :: s) = trimStart a ++ c :: s := by
  rw [trimStart, List.dropWhile_append]
  split
  · next hempty =>
    rw [trimStart, List.isEmpty_iff.1 hempty, List.nil_append, ← trimStart, trimStart_cons hc]
  · rfl

/-! ## Both ends -/

/-- White space at the end makes no difference to trimming. -/
theorem trim_append_blank (s : List Char) {b : List Char} (hb : AllBlank b) :
    trim (s ++ b) = trim s := by
  rw [trim, trim, trimStart, trimStart, List.dropWhile_append]
  split
  · next hempty =>
    have hnil : b.dropWhile isBlank = [] := by
      rw [← List.append_nil b, List.dropWhile_append_of_pos hb]
      rfl
    rw [hnil, List.isEmpty_iff.1 hempty]
  · exact trimEnd_append_blank _ hb

/-- A text between printed characters stays as it is. -/
theorem trim_of_printed {s : List Char} (hhead : s.head?.all isPrinted = true)
    (hlast : s.getLast?.all isPrinted = true) : trim s = s := by
  have hsolid : Solid s := by
    intro c hc
    rw [hc] at hlast
    exact isBlank_of_isPrinted hlast
  cases s with
  | nil => rfl
  | cons c s => rw [trim, trimStart_cons (isBlank_of_isPrinted hhead), trimEnd_of_solid hsolid]

/-- A text that does not start with white space is trimmed at its end only. -/
theorem trim_cons {c : Char} (hc : isBlank c = false) (s : List Char) :
    trim (c :: s) = c :: trimEnd s := by
  rw [trim, trimStart_cons hc]
  exact trimEnd_append_of_solid (solid_singleton hc) s

/-- Of a blank text nothing is left. -/
theorem trim_of_allBlank {s : List Char} (h : AllBlank s) : trim s = [] := trim_append_blank [] h

/-- White space at the start makes no difference to trimming. -/
theorem trim_blank_append {b : List Char} (hb : AllBlank b) (s : List Char) :
    trim (b ++ s) = trim s :=
  congrArg trimEnd (trimStart_append_blank hb s)

/-- A text without the white space around it. -/
theorem exists_trim (s : List Char) : ∃ b b', s = b ++ (trim s ++ b') ∧ AllBlank b ∧ AllBlank b' ∧
    Solid (trim s) ∧ ∀ d, (trim s ++ b').head? = some d → isBlank d = false := by
  obtain ⟨b, hb, hsplit⟩ := exists_append_trimStart s
  obtain ⟨b', hsplit', hb', hsolid⟩ := exists_trimEnd_append (trimStart s)
  refine ⟨b, b', hsplit.trans (congrArg _ hsplit'), hb, hb', hsolid, fun d hd => ?_⟩
  have hhead := List.head?_dropWhile_not isBlank s
  change (trimEnd (trimStart s) ++ b').head? = some d at hd
  rw [show s.dropWhile isBlank = trimStart s from rfl, hsplit', hd] at hhead
  exact hhead

/-- Trimming the end first makes no difference. -/
theorem trim_trimEnd (s : List Char) : trim (trimEnd s) = trim s := by
  obtain ⟨b, hs, hb, -⟩ := exists_trimEnd_append s
  exact (trim_append_blank _ hb).symm.trans (congrArg trim hs.symm)

/-- A trimmed text is left as it is. -/
theorem trim_trim (s : List Char) : trim (trim s) = trim s := by
  obtain ⟨b, hb, hs⟩ := exists_append_trimStart s
  calc trim (trim s) = trim (trimStart s) := trim_trimEnd _
    _ = trim (b ++ trimStart s) := (trim_blank_append hb _).symm
    _ = trim s := congrArg trim hs.symm

/-- Trimming takes characters away and puts none in. -/
theorem trim_subset (s : List Char) : trim s ⊆ s := by
  obtain ⟨b, b', hs, -⟩ := exists_trim s
  intro c hc
  rw [hs]
  exact List.mem_append_right b (List.mem_append_left b' hc)

theorem allBlank_nil : AllBlank [] := List.forall_mem_nil _

theorem isBlank_space : isBlank ' ' = true := isBlank_of_isSpace rfl

theorem allBlank_space : AllBlank [' '] := List.forall_mem_singleton.2 isBlank_space

/-- A text of spaces is blank. -/
theorem allBlank_of_all_space {s : List Char} (h : s.all (· == ' ') = true) : AllBlank s :=
  fun c hc =>
  beq_iff_eq.1 (List.all_eq_true.1 h c hc) ▸ isBlank_space

/-- A space in front is trimmed, and nothing of a text that starts and ends with printed
characters. -/
theorem trim_space_cons {s : List Char} (hhead : s.head?.all isPrinted = true)
    (hlast : s.getLast?.all isPrinted = true) : trim (' ' :: s) = s :=
  (trim_blank_append allBlank_space s).trans (trim_of_printed hhead hlast)

/-! ## What is left -/

/-- Dropping characters of another kind at the start leaves the count of a character. -/
theorem count_dropWhile {p : Char → Bool} {c : Char} (hc : p c = false) (s : List Char) :
    (s.dropWhile p).count c = s.count c := by
  have hout : (s.takeWhile p).count c = 0 := List.count_eq_zero.2 fun hmem => by
    have htake := List.all_eq_true.1 (List.all_takeWhile (p := p) (l := s)) c hmem
    rw [hc] at htake
    cases htake
  have hsplit := congrArg (List.count c) (List.takeWhile_append_dropWhile (p := p) (l := s))
  rwa [List.count_append, hout, Nat.zero_add] at hsplit

/-- Trimming leaves all places of a character that is not trimmed. -/
theorem count_trimWhile {p : Char → Bool} {c : Char} (hc : p c = false) (s : List Char) :
    (trimWhile p s).count c = s.count c := by
  rw [trimWhile, trimEndWhile, List.count_reverse, count_dropWhile hc, List.count_reverse,
    count_dropWhile hc]

/-- Trimming leaves the count of every character that is not white space. -/
theorem count_trim {c : Char} (hc : isBlank c = false) (s : List Char) :
    (trim s).count c = s.count c :=
  count_trimWhile hc s

end CodeAtlas.Text
