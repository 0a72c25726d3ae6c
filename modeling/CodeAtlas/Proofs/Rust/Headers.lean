import CodeAtlas.Proofs.Text.Balanced
import CodeAtlas.Proofs.Text.Splitting
import CodeAtlas.Source.Rust.Types
import Mathlib.Data.List.Count
import Mathlib.Data.List.Induction

/-!
# Headers of implementation blocks

The generic parameters of a block end at the bracket that closes them. The search for it takes the
second character of an arrow for a closing bracket, so parameters with an arrow in a bound are cut
off within. Parameters without arrows are dropped as a whole, whatever brackets are in them. What
the block is for is told by the rest, in which the words `for` and `where` part the trait, the type
and the bounds.
-/

namespace CodeAtlas.Source.Rust

open Text
open Unicode (isBlank)

/-! ## Single spaces -/

section
variable {s : List Char}

/-- Single spaces leave the words of a text. -/
theorem words_singleSpaced (s : List Char) : words (singleSpaced s) = words s :=
  words_intercalate fun _ => of_mem_words

/-- Texts with the same words are the same with single spaces. -/
theorem singleSpaced_congr {s t : List Char} (h : words s = words t) :
    singleSpaced s = singleSpaced t := by
  rw [singleSpaced, singleSpaced, h]

/-- A word is left as it is. -/
theorem singleSpaced_of_mem_words {w : List Char} (hne : w ≠ []) (hw : ∀ c ∈ w, isBlank c = false) :
    singleSpaced w = w := by
  rw [singleSpaced, words_of_not_blank hne hw, List.intercalate_singleton]

/-- What is parted by white space is parted by a single space. -/
theorem singleSpaced_append_cons {a b : List Char} (ha : words a ≠ []) {c : Char}
    (hc : isBlank c = true) (hb : words b ≠ []) :
    singleSpaced (a ++ c :: b) = singleSpaced a ++ ' ' :: singleSpaced b := by
  rw [singleSpaced, words_append_cons a hc, singleSpaced, singleSpaced]
  generalize words a = ws at ha
  induction ws with
  | nil => exact absurd rfl ha
  | cons w ws ih =>
      cases ws with
      | nil =>
          rw [List.singleton_append, List.intercalate_cons_of_ne_nil hb, List.intercalate_singleton,
            List.append_assoc]
          rfl
      | cons w' ws =>
          rw [List.cons_append, List.cons_append, List.intercalate_cons_cons,
            List.intercalate_cons_cons, ← List.cons_append, ih (List.cons_ne_nil w' ws),
              List.append_assoc, List.append_assoc, List.append_assoc]

/-- In front of the white space of a text nothing changes. -/
theorem singleSpaced_append {a : List Char} (ha : ∀ c ∈ a, isBlank c = false) {c : Char}
    (hc : isBlank c = false) (s : List Char) :
    singleSpaced (a ++ c :: s) = a ++ singleSpaced (c :: s) := by
  by_cases hne : a = []
  · rw [hne]
    rfl
  · obtain ⟨w, ws, hplain, hlong⟩ := words_append hne ha hc s
    rw [singleSpaced, singleSpaced, hplain, hlong]
    cases ws with
    | nil => rw [List.intercalate_singleton, List.intercalate_singleton]
    | cons w' ws => simp only [List.intercalate_cons_cons, List.append_assoc]

/-- What is not white space stays. -/
theorem filter_singleSpaced {p : Char → Bool} (hp : ∀ c, isBlank c = true → p c = false)
    (s : List Char) :
    (singleSpaced s).filter p = s.filter p := by
  have hjoin : ∀ ws : List (List Char), ([' '].intercalate ws).filter p = ws.flatten.filter p := by
    intro ws
    induction ws with
    | nil => rfl
    | cons w ws ih =>
        cases ws with
        | nil => rw [List.intercalate_singleton, List.flatten_singleton]
        | cons w' ws =>
            have hspace : [' '].filter p = [] :=
              List.filter_cons_of_neg (by simp [hp ' ' isBlank_space])
            rw [List.intercalate_cons_cons, List.filter_append, List.filter_append, hspace, ih,
              List.append_nil, ← List.filter_append, ← List.flatten_cons]
  have hword : ∀ c, (!isBlank c && p c) = p c := by
    intro c
    cases hc : isBlank c with
    | false => rfl
    | true => exact (hp c hc).symm
  rw [singleSpaced, hjoin, flatten_words, List.filter_filter]
  exact List.filter_congr fun c _ => by rw [Bool.and_comm]; exact hword c

/-- Characters that are not white space are left. -/
theorem mem_singleSpaced {c : Char} (hc : isBlank c = false) : c ∈ singleSpaced s ↔ c ∈ s := by
  have hfilter := filter_singleSpaced (p := (· == c)) (fun d hd => beq_false_of_ne fun h => by
    rw [h, hc] at hd
    cases hd) s
  have hmem : ∀ t : List Char, c ∈ t ↔ c ∈ t.filter (· == c) := fun t => by simp
  rw [hmem, hfilter, ← hmem]

/-- Words with spaces between them start as the first one does and end as the last one does. -/
theorem ends_intercalate {ws : List (List Char)} (h : ∀ w ∈ ws, w ≠ []) :
    ([' '].intercalate ws).head? = ws.flatten.head?
      ∧ ([' '].intercalate ws).getLast? = ws.flatten.getLast? := by
  induction ws with
  | nil => exact ⟨rfl, rfl⟩
  | cons w ws ih =>
      obtain ⟨hw, hws⟩ := List.forall_mem_cons.1 h
      obtain ⟨c, w, rfl⟩ := List.exists_cons_of_ne_nil hw
      cases ws with
      | nil => simp [List.intercalate_singleton]
      | cons w' ws =>
          obtain ⟨-, hlast⟩ := ih hws
          obtain ⟨d, w', rfl⟩ := List.exists_cons_of_ne_nil (hws w' List.mem_cons_self)
          rw [List.intercalate_cons_cons, List.flatten_cons]
          refine ⟨rfl, ?_⟩
          have hsome : (((d :: w') :: ws).flatten).getLast? = some _ := List.getLast?_cons
          rw [List.getLast?_append, hlast, hsome, Option.some_or, List.getLast?_append, hsome,
            Option.some_or]

/-- With single spaces a text starts with its first character that is not white space. -/
theorem head?_singleSpaced (s : List Char) :
    (singleSpaced s).head? = (s.filter (!isBlank ·)).head? := by
  rw [singleSpaced, (ends_intercalate fun _ h => (of_mem_words h).1).1, flatten_words]

/-- With single spaces a text ends with its last character that is not white space. -/
theorem getLast?_singleSpaced (s : List Char) :
    (singleSpaced s).getLast? = (s.filter (!isBlank ·)).getLast? := by
  rw [singleSpaced, (ends_intercalate fun _ h => (of_mem_words h).1).2, flatten_words]

/-- A text with single spaces is trimmed. -/
theorem trim_singleSpaced (s : List Char) : trim (singleSpaced s) = singleSpaced s := by
  have hsolid : Solid (singleSpaced s) := fun c hc => by
    rw [getLast?_singleSpaced] at hc
    simpa using (List.mem_filter.1 (List.mem_of_getLast? hc)).2
  have hhead := head?_singleSpaced s
  cases htext : singleSpaced s with
  | nil => rfl
  | cons c t =>
      rw [htext] at hhead hsolid
      have hc : isBlank c = false := by
        simpa using (List.mem_filter.1 (List.mem_of_mem_head? hhead.symm)).2
      rw [trim, trimStart_cons hc, trimEnd_of_solid hsolid]

/-- A text between two characters stays between them. -/
theorem exists_singleSpaced_between {c d : Char} (hc : isBlank c = false) (hd : isBlank d = false)
    (s : List Char) :
    ∃ t, singleSpaced (c :: (s ++ [d])) = c :: (t ++ [d]) := by
  have hfilter : (c :: (s ++ [d])).filter (!isBlank ·) = (c :: s.filter (!isBlank ·)) ++ [d] := by
    simp [hc, hd]
  have hhead := head?_singleSpaced (c :: (s ++ [d]))
  have hlast := getLast?_singleSpaced (c :: (s ++ [d]))
  rw [hfilter] at hhead hlast
  rw [List.getLast?_concat] at hlast
  obtain ⟨init, hinit⟩ := List.getLast?_eq_some_iff.1 hlast
  cases init with
  | nil =>
      have hlength := congrArg List.length
        (filter_singleSpaced (p := (!isBlank ·)) (by simp) (c :: (s ++ [d])))
      rw [hinit, hfilter] at hlength
      simp [hd] at hlength
  | cons e t =>
      rw [hinit] at hhead
      obtain rfl : e = c := Option.some.inj hhead
      exact ⟨t, hinit⟩

end

/-! ## Brackets that match -/

/-- As many angle brackets of a text close as open, and in no part of it from the start more of
them. -/
structure Matched (text : List Char) : Prop where
  total : text.count '>' = text.count '<'
  prefix_le : ∀ p, p <+: text → p.count '>' ≤ p.count '<'

/-- Whether a character is an angle bracket. -/
def isAngle (c : Char) : Bool := c == '<' || c == '>'

/-- The brackets of a text are counted among its brackets. -/
theorem count_filter_isAngle (s : List Char) :
    (s.filter isAngle).count '<' = s.count '<' ∧ (s.filter isAngle).count '>' = s.count '>' :=
  ⟨List.count_filter rfl, List.count_filter rfl⟩

/-- What else is between the brackets does not matter. -/
theorem matched_filter {s : List Char} : Matched (s.filter isAngle) ↔ Matched s := by
  obtain ⟨hopen, hclose⟩ := count_filter_isAngle s
  constructor
  · rintro ⟨htotal, hle⟩
    refine ⟨by rw [← hopen, ← hclose, htotal], fun p hp => ?_⟩
    obtain ⟨hopen', hclose'⟩ := count_filter_isAngle p
    rw [← hopen', ← hclose']
    exact hle _ (hp.filter isAngle)
  · rintro ⟨htotal, hle⟩
    refine ⟨by rw [hopen, hclose, htotal], ?_⟩
    rintro q ⟨rest, hrest⟩
    obtain ⟨p, t, rfl, rfl, -⟩ := List.filter_eq_append_iff.1 hrest.symm
    obtain ⟨hopen', hclose'⟩ := count_filter_isAngle p
    rw [hopen', hclose']
    exact hle p (List.prefix_append p t)

/-- Whether brackets match is told by the brackets alone. -/
theorem matched_congr {s t : List Char} (h : s.filter isAngle = t.filter isAngle) :
    Matched s ↔ Matched t := by
  rw [← matched_filter, h, matched_filter]

/-- The text has neither quotes nor slashes, so there are no literals and no comments in it. -/
def Plain (text : List Char) : Prop := '"' ∉ text ∧ '/' ∉ text

/-- Plain text is cut into its characters. -/
theorem cuts_plain {s : List Char} (h : Plain s) (rest : List Char) :
    Cuts .rust (s ++ rest) (s.map Token.char) rest := by
  induction s with
  | nil => exact .nil rest
  | cons c s ih =>
      obtain ⟨hquote, hslash⟩ := h
      rw [List.mem_cons, not_or] at hquote hslash
      refine .cons (.char ?_ ?_ ?_) (ih ⟨hquote.2, hslash.2⟩)
      · rintro ⟨d, hd, back, hback⟩
        cases hd
        exact hslash.1 (List.cons.inj hback).1
      · rintro ⟨lead, hlead, back, hback⟩
        obtain rfl := List.mem_singleton.1 hlead
        exact hslash.1 (List.cons.inj hback).1
      · exact fun hmem => hquote.1 (List.mem_singleton.1 hmem).symm

/-- The characters of a text have its bytes. -/
theorem bytesOf_map_char (s : List Char) : bytesOf (s.map Token.char) = byteLength s := by
  induction s with
  | nil => rfl
  | cons c s ih => rw [List.map_cons, bytesOf_cons, byteLength_cons, ih, Token.size]

/-- Characters are counted among tokens as in the text. -/
theorem count_map_char (c : Char) (s : List Char) :
    (s.map Token.char).count (.char c) = s.count c :=
  List.count_map_of_injective s Token.char (fun _ _ => Token.char.inj) c

/-- The depth that the characters of a text amount to is told by its counts. -/
theorem excess_map_char (s : List Char) :
    excess '<' '>' (s.map Token.char) = s.count '<' - s.count '>' := by
  rw [excess, count_map_char, count_map_char]

/-- A bracket is closed behind a text just if the brackets of the text match. -/
theorem closes_map_char_iff {s : List Char} :
    Closes '<' '>' 1 (s.map Token.char) (.char '>') ↔ Matched s := by
  have hlast : excess '<' '>' (s.map Token.char ++ [.char '>'])
      = s.count '<' - s.count '>' - 1 := by
    rw [excess_append, excess_map_char]
    rfl
  constructor
  · rintro ⟨hclosed, hnot⟩
    rw [hlast] at hclosed
    refine ⟨by omega, fun p hp => ?_⟩
    -- a character changes the depth by one at most, so it does not jump over zero
    induction p using List.reverseRecOn with
    | nil => exact Nat.le_refl 0
    | append_singleton p c ih =>
        have hle := ih ((List.prefix_append p [c]).trans hp)
        have hne := hnot _ (hp.map Token.char)
        rw [excess_map_char] at hne
        rw [List.count_append, List.count_append] at hne ⊢
        have hone : [c].count '>' ≤ 1 := List.count_le_length
        omega
  · rintro ⟨htotal, hle⟩
    refine ⟨by rw [hlast]; omega, fun p hp => ?_⟩
    obtain ⟨q, hq, rfl⟩ := List.prefix_map_iff.1 hp
    have := hle q hq
    rw [excess_map_char]
    omega

/-- The bracket behind a text closes the one in front of it just if the brackets of the text
match. -/
theorem findBalanced_matched {g : List Char} (hg : Plain g) (rest : List Char) :
    findBalanced .rust '<' '>' ('<' :: (g ++ '>' :: rest)) 0 = some (byteLength ('<' :: g))
      ↔ Matched g := by
  have hlexis : Lexis.rust ∈ Lexis.all := by simp [Lexis.all]
  have hleads := Lexis.rust.newline_not_mem_lead hlexis
  have hplain : Plain ('<' :: g ++ ['>']) := by
    obtain ⟨hquote, hslash⟩ := hg
    exact ⟨by simp [hquote], by simp [hslash]⟩
  have hcuts := cuts_plain hplain rest
  rw [List.map_append, List.append_assoc] at hcuts
  have hbytes : bytesOf (('<' :: g).map Token.char) = byteLength ('<' :: g) := bytesOf_map_char _
  rw [findBalanced_eq_some_iff hlexis rfl, ← closes_map_char_iff, ← shortest_iff (by decide)]
  constructor
  · rintro ⟨front, text, ts, t, back, htext, hfront, -, hts, hshort, hstop⟩
    obtain ⟨rfl, rfl⟩ := append_inj_byteLength (a := []) (htext : [] ++ _ = _) hfront.symm
    obtain ⟨mid, hinit, -⟩ := hts.exists_mid
    obtain ⟨mid', hinit', -⟩ := hcuts.exists_mid
    rw [Nat.zero_add, ← hbytes] at hstop
    obtain rfl := hinit.eq_of_bytesOf hleads hinit' hstop.symm
    have hlast : t = .char '>' := by
      obtain ⟨vs, hvs, -⟩ | ⟨vs, hvs, -⟩ := hts.comparable hleads hcuts
      · rw [List.append_assoc] at hvs
        exact (List.cons.inj (List.append_cancel_left hvs)).1.symm
      · rw [List.append_assoc] at hvs
        exact (List.cons.inj (List.append_cancel_left hvs)).1
    exact hlast ▸ hshort
  · intro hshort
    exact ⟨[], _, _, _, rest, rfl, rfl, rfl, hcuts, hshort, by rw [Nat.zero_add]; exact hbytes.symm⟩

/-- The parameters in front are dropped up to the bracket that closes them. -/
theorem dropParameters?_eq_some_iff {header t : List Char} (h : header.head? = some '<') :
    dropParameters? header = some t ↔ ∃ front behind, header = front ++ '>' :: behind
      ∧ trim behind = t
      ∧ findBalanced .rust '<' '>' header 0 = some (byteLength front) := by
  have hlexis : Lexis.rust ∈ Lexis.all := by simp [Lexis.all]
  have hdrop : ∀ front behind, dropBytes? (byteLength front + 1) (front ++ '>' :: behind)
      = some behind :=
    fun front behind => dropBytes?_eq_some_iff.2 ⟨front ++ ['>'],
      by simp, byteLength_append front ['>']⟩
  have hhead : (header.head? == some '<') = true := by rw [h]; rfl
  rw [dropParameters?, if_pos hhead]
  simp only [Option.bind_eq_bind, Option.bind_eq_some_iff, Option.pure_def, Option.some.injEq]
  constructor
  · rintro ⟨stop, hfound, rest, hrest, rfl⟩
    obtain ⟨-, front, behind, rfl, rfl⟩ := exists_of_findBalanced hlexis rfl hfound
    cases (hdrop front behind).symm.trans hrest
    exact ⟨front, rest, rfl, rfl, hfound⟩
  · rintro ⟨front, behind, rfl, rfl, hfound⟩
    exact ⟨_, hfound, behind, hdrop front behind, rfl⟩

/-- A text is split at a character by how often the character stands behind it. -/
theorem append_inj_of_count {c : Char} {a b a' b' : List Char} (h : a ++ c :: b = a' ++ c :: b')
    (hcount : b.count c = b'.count c) : a = a' := by
  have hlater : ∀ {b b' d : List Char}, b.count c = b'.count c → b = d ++ c :: b' → False := by
    rintro b b' d heq rfl
    rw [List.count_append, List.count_cons_self] at heq
    omega
  induction a generalizing a' with
  | nil =>
      cases a' with
      | nil => rfl
      | cons d a' => exact (hlater hcount (List.cons.inj h).2).elim
  | cons d a ih =>
      cases a' with
      | nil => exact (hlater hcount.symm (List.cons.inj h).2.symm).elim
      | cons d' a' =>
          obtain ⟨rfl, hrest⟩ := List.cons.inj h
          rw [ih hrest]

/-- Parameters are dropped in front of a text just if the brackets in them match. -/
theorem dropParameters?_matched {g : List Char} (hg : Plain g) {t : List Char} (ht : trim t = t) :
    dropParameters? ('<' :: (g ++ '>' :: ' ' :: t)) = some t ↔ Matched g := by
  have hclose : isBlank '>' = false := isBlank_of_isPrinted rfl
  rw [← findBalanced_matched hg, dropParameters?_eq_some_iff rfl]
  constructor
  · rintro ⟨front, behind, htext, htrim, hfound⟩
    -- what is left has the brackets of the text, so it stands behind the bracket in front of it
    have hcount : behind.count '>' = (' ' :: t).count '>' := by
      rw [← count_trim hclose behind, htrim, List.count_cons_of_ne (by decide)]
    have hfront : front = '<' :: g := append_inj_of_count htext.symm hcount
    rw [← hfront]
    exact hfound
  · intro hfound
    exact ⟨'<' :: g, ' ' :: t, rfl, (trim_blank_append allBlank_space t).trans ht, hfound⟩

/-! ## Generic parameters -/

/-- What may stand between the angle brackets of parameters, with the number of arrows in it. The
second character of an arrow closes nothing. -/
inductive Angled : Nat → List Char → Prop
  | nil : Angled 0 []
  | char {c : Char} {n : Nat} {s : List Char} (hc : c ∉ ['<', '>', '-', '"', '/'])
    (hs : Angled n s) :
    Angled n (c :: s)
  | minus {c : Char} {n : Nat} {s : List Char} (hs : Angled n (c :: s)) : Angled n ('-' :: c :: s)
  | arrow {n : Nat} {s : List Char} (hs : Angled n s) : Angled (n + 1) ('-' :: '>' :: s)
  | angle {m n : Nat} {s t : List Char} (hs : Angled m s) (ht : Angled n t) :
    Angled (m + n) ('<' :: (s ++ '>' :: t))

namespace Angled

variable {n : Nat} {s : List Char}

/-- A text without brackets in front of one that may stand in parameters. -/
theorem chars {front : List Char}
    (hfront : front.all (['<', '>', '-', '"', '/'].contains · == false) = true) (h : Angled n s) :
    Angled n (front ++ s) := by
  induction front with
  | nil => exact h
  | cons c front ih =>
      rw [List.all_cons, Bool.and_eq_true, beq_iff_eq] at hfront
      exact .char (fun hmem => by rw [List.contains_iff_mem.2 hmem] at hfront; cases hfront.1)
        (ih hfront.2)

/-- Parameters without strings and comments are plain. -/
theorem plain (h : Angled n s) : Plain s := by
  induction h with
  | nil => exact ⟨List.not_mem_nil, List.not_mem_nil⟩
  | char hc _ ih =>
      simp only [List.mem_cons, List.not_mem_nil, or_false, not_or] at hc
      obtain ⟨-, -, -, hquote, hslash⟩ := hc
      exact ⟨List.not_mem_cons_of_ne_of_not_mem (Ne.symm hquote) ih.1,
        List.not_mem_cons_of_ne_of_not_mem (Ne.symm hslash) ih.2⟩
  | minus _ ih =>
      exact ⟨List.not_mem_cons_of_ne_of_not_mem (by decide) ih.1,
        List.not_mem_cons_of_ne_of_not_mem (by decide) ih.2⟩
  | arrow _ ih => exact ⟨by simp [ih.1], by simp [ih.2]⟩
  | angle _ _ ihs iht => exact ⟨by simp [ihs.1, iht.1], by simp [ihs.2, iht.2]⟩

/-- Each arrow adds a closing bracket that has no opening one. -/
theorem count_close (h : Angled n s) : s.count '>' = s.count '<' + n := by
  induction h with
  | nil => rfl
  | char hc _ ih =>
      simp only [List.mem_cons, List.not_mem_nil, or_false, not_or] at hc
      rw [List.count_cons_of_ne hc.1, List.count_cons_of_ne hc.2.1, ih]
  | @minus c n s _ ih =>
      rw [List.count_cons_of_ne (a := '>') (by decide),
        List.count_cons_of_ne (a := '<') (by decide), ih]
  | arrow _ ih => simp [ih]; omega
  | angle _ _ ihs iht => simp [ihs, iht]; omega

/-- In no part of parameters more brackets close than open and arrows have. -/
theorem prefix_le (h : Angled n s) {p : List Char} (hp : p <+: s) :
    p.count '>' ≤ p.count '<' + n := by
  induction h generalizing p with
  | nil =>
      -- a character that is neither bracket counts on no side
      rw [List.prefix_nil.1 hp]; exact Nat.le_refl 0
  | char hc _ ih =>
      obtain rfl | ⟨q, rfl, hq⟩ := List.prefix_cons_iff.1 hp
      · exact Nat.zero_le _
      · simp only [List.mem_cons, List.not_mem_nil, or_false, not_or] at hc
        rw [List.count_cons_of_ne hc.1, List.count_cons_of_ne hc.2.1]
        exact ih hq
  | minus _ ih =>
      obtain rfl | ⟨q, rfl, hq⟩ := List.prefix_cons_iff.1 hp
      · exact Nat.zero_le _
      · rw [List.count_cons_of_ne (by decide), List.count_cons_of_ne (by decide)]
        exact ih hq
  | arrow _ ih =>
      -- the bracket of an arrow closes nothing, and is the one that `n` allows for
      obtain rfl | ⟨q, rfl, hq⟩ := List.prefix_cons_iff.1 hp
      · exact Nat.zero_le _
      · obtain rfl | ⟨r, rfl, hr⟩ := List.prefix_cons_iff.1 hq
        · exact Nat.zero_le _
        · have := ih hr
          simp
          omega
  | angle hs _ ihs iht =>
      obtain rfl | ⟨q, rfl, hq⟩ := List.prefix_cons_iff.1 hp
      · exact Nat.zero_le _
      · -- the part ends inside the brackets, or behind what is inside
        rcases prefix_append_cases hq with hq | ⟨d, rfl, hd⟩
        · have := ihs hq
          simp
          omega
        · have hinside := hs.count_close
          obtain rfl | ⟨e, rfl, he⟩ := List.prefix_cons_iff.1 hd
          · simp
            omega
          · have := iht he
            simp
            omega

/-- The brackets match just if there is no arrow. -/
theorem matched_iff (h : Angled n s) : Matched s ↔ n = 0 := by
  have hcount := h.count_close
  constructor
  · rintro ⟨htotal, -⟩
    omega
  · rintro rfl
    exact ⟨hcount, fun p hp => h.prefix_le hp⟩

end Angled

/-- The header of a block with generic parameters. -/
def withParameters (params header : List Char) : List Char :=
  '<' :: (params ++ '>' :: ' ' :: header)

/-- Parameters are dropped just if there are no arrows in them. -/
theorem dropParameters?_withParameters {n : Nat} {params : List Char} (h : Angled n params)
    {header : List Char} (hwords : words header ≠ []) :
    dropParameters? (singleSpaced (withParameters params header)) = some (singleSpaced header)
      ↔ n = 0 := by
  obtain ⟨g, hg⟩ := exists_singleSpaced_between (isBlank_of_isPrinted rfl : isBlank '<' = false)
    (isBlank_of_isPrinted rfl : isBlank '>' = false) params
  have hfull : words ('<' :: (params ++ ['>'])) ≠ [] := fun hnil => by
    rw [singleSpaced, hnil] at hg
    cases hg
  have hsplit : singleSpaced (withParameters params header)
      = '<' :: (g ++ '>' :: ' ' :: singleSpaced header) := by
    have hjoin := singleSpaced_append_cons hfull isBlank_space hwords
    rw [hg] at hjoin
    simpa [withParameters] using hjoin
  -- single spaces change nothing but white space
  have hmem : ∀ c, isBlank c = false → c ≠ '<' → c ≠ '>' → (c ∈ g ↔ c ∈ params) := by
    intro c hc hopen hclose
    have := mem_singleSpaced (s := '<' :: (params ++ ['>'])) hc
    rw [hg] at this
    simpa [hopen, hclose] using this
  have hplain : Plain g := by
    obtain ⟨hquote, hslash⟩ := h.plain
    exact ⟨fun hin => hquote ((hmem '"' (isBlank_of_isPrinted rfl) (by decide) (by decide)).1 hin),
      fun hin => hslash ((hmem '/' (isBlank_of_isPrinted rfl) (by decide) (by decide)).1 hin)⟩
  have hangles : g.filter isAngle = params.filter isAngle := by
    have hfilter := filter_singleSpaced (p := isAngle) (fun c hc => ?_) ('<' :: (params ++ ['>']))
    · rw [hg] at hfilter
      simpa [isAngle] using hfilter
    · rw [isAngle, Bool.or_eq_false_iff]
      refine ⟨beq_false_of_ne fun heq => ?_, beq_false_of_ne fun heq => ?_⟩ <;> rw [heq] at hc <;>
        exact absurd hc (by rw [isBlank_of_isPrinted rfl]; exact Bool.false_ne_true)
  rw [hsplit, dropParameters?_matched hplain (trim_singleSpaced header), matched_congr hangles,
    h.matched_iff]

/-! ## Words in a header -/

section
variable {w : List Char} (hne : w ≠ []) (hw : ∀ c ∈ w, isBlank c = false)
include hne hw

/-- What stands between two spaces is a word. -/
theorem mem_words_of_spaced (a b : List Char) : w ∈ words (a ++ ' ' :: (w ++ ' ' :: b)) := by
  rw [words_append_cons a isBlank_space, words_append_cons w isBlank_space,
    words_of_not_blank hne hw]
  exact List.mem_append_right _ (List.mem_append_left _ (List.mem_singleton_self w))

/-- A text is cut at the spaces around its first word of some kind. -/
theorem cut?_word {a : List Char} (hnot : w ∉ words a) (b : List Char) :
    cut? (' ' :: (w ++ [' '])) (a ++ ' ' :: (w ++ ' ' :: b)) = some (a, b) := by
  refine cut?_eq_some_iff.2 ⟨by simp, ?_⟩
  rintro front c rfl hc ⟨more, hmore⟩
  obtain ⟨d, c, rfl⟩ := List.exists_cons_of_ne_nil hc
  rw [List.cons_append, List.cons_append] at hmore
  obtain ⟨rfl, hmore⟩ := List.cons.inj hmore
  have hend : c ≠ w := by
    rintro rfl
    refine hnot ?_
    rw [words_append_cons front isBlank_space, words_of_not_blank hne hw]
    exact List.mem_append_right _ (List.mem_singleton_self c)
  have hmore' : w ++ ' ' :: more = c ++ ' ' :: (w ++ ' ' :: b) := by simpa using hmore
  -- if the word stood earlier it would be a word of the front, or have a space in it
  rcases List.append_eq_append_iff.1 hmore' with ⟨e, hword, hrest⟩ | ⟨e, hword, hrest⟩
  · cases e with
    | nil => exact hend (by rw [hword, List.append_nil])
    | cons f e =>
        obtain ⟨rfl, -⟩ := List.cons.inj hrest
        exact hnot (hword ▸ mem_words_of_spaced hne hw front e)
  · cases e with
    | nil => exact hend (by rw [hword, List.append_nil])
    | cons f e =>
        obtain ⟨rfl, -⟩ := List.cons.inj hrest
        have hblank := hw ' ' (by rw [hword]; simp)
        rw [isBlank_space] at hblank
        cases hblank

/-- A word between two parts of a text stands between them behind single spaces as well. -/
theorem singleSpaced_between {a b : List Char} (ha : words a ≠ []) (hb : words b ≠ []) :
    singleSpaced (a ++ ' ' :: (w ++ ' ' :: b))
      = singleSpaced a ++ ' ' :: (w ++ ' ' :: singleSpaced b) := by
  have hone : words w = [w] := words_of_not_blank hne hw
  have hbehind : words (w ++ ' ' :: b) ≠ [] := by
    rw [words_append_cons w isBlank_space, hone]
    exact List.cons_ne_nil _ _
  rw [singleSpaced_append_cons ha isBlank_space hbehind,
    singleSpaced_append_cons (by rw [hone]; exact List.cons_ne_nil _ _) isBlank_space hb,
    singleSpaced_of_mem_words hne hw]

/-- A text without a word does not have it between spaces. -/
theorem not_infix_of_spaced {s : List Char} (hnot : w ∉ words s) :
    ¬ ' ' :: (w ++ [' ']) <:+: s := by
  rintro ⟨a, b, rfl⟩
  exact hnot (by simpa using mem_words_of_spaced hne hw a b)

end

/-- The words that part a header are solid. -/
theorem keyword_solid {w : List Char} (h : w ∈ ["for".toList, "where".toList]) :
    w ≠ [] ∧ ∀ c ∈ w, isBlank c = false := by
  have hall : ["for".toList, "where".toList].all (fun w => !w.isEmpty && w.all isPrinted)
      = true := by decide
  have hword := List.all_eq_true.1 hall w h
  rw [Bool.and_eq_true] at hword
  exact ⟨by simpa using hword.1, fun c hc => isBlank_of_isPrinted (List.all_eq_true.1 hword.2 c hc)⟩

/-- Nothing is dropped where the word does not stand. -/
theorem trimStartWord_eq_self {word s : List Char} (h : after? word s = none) :
    trimStartWord word s = s := by
  rw [trimStartWord]
  cases s.length with
  | zero => rfl
  | succ n => rw [dropWords, h]

/-- A word is dropped once where it stands once. -/
theorem trimStartWord_append {word s : List Char} (hne : word ≠ []) (h : after? word s = none) :
    trimStartWord word (word ++ s) = s := by
  obtain ⟨c, word, rfl⟩ := List.exists_cons_of_ne_nil hne
  have hafter : after? (c :: word) (c :: word ++ s) = some s := after?_eq_some_iff.2 rfl
  rw [trimStartWord, List.cons_append, List.length_cons, dropWords, ← List.cons_append, hafter]
  dsimp only
  cases (word ++ s).length with
  | zero => rfl
  | succ n => rw [dropWords, h]

/-! ## Names of types -/

/-- The path of a type or a trait with its generic arguments. -/
structure TypePath where
  /-- What stands in front of the name: nothing, or the modules that it is in. -/
  qualifier : List Char
  name : List Char
  /-- The arguments with their angle brackets, or nothing. -/
  arguments : List Char
  qualifier_ends : qualifier = [] ∨ [':', ':'] <:+ qualifier
  qualifier_chars : ∀ c ∈ qualifier, c = ':' ∨ isNameChar c = true ∧ isBlank c = false
  name_ne_nil : name ≠ []
  name_chars : ∀ c ∈ name, isNameChar c = true ∧ isBlank c = false
  arguments_head : arguments = [] ∨ arguments.head? = some '<'
  /-- The words that part a header are no words of a path; `for<'a>` is none of them. -/
  words_ne : ∀ w ∈ words (qualifier ++ name ++ arguments), w ∉ ["for".toList, "where".toList]

namespace TypePath

variable (t : TypePath)

/-- The path without arguments. -/
def path : List Char := t.qualifier ++ t.name

/-- A path with its arguments as it stands in a text. -/
def text : List Char := t.path ++ t.arguments

/-- A path has no white space and none of the marks that part a header. -/
theorem path_chars : ∀ c ∈ t.path, isBlank c = false ∧ c ∉ ['<', '&', ' '] := by
  have hname : ∀ c, isNameChar c = true → c ∉ ['<', '&', ' '] := by
    intro c hc hmem
    simp only [List.mem_cons, List.not_mem_nil, or_false] at hmem
    rcases hmem with rfl | rfl | rfl <;> exact absurd hc (by decide)
  intro c hc
  rcases List.mem_append.1 hc with hc | hc
  · rcases t.qualifier_chars c hc with rfl | ⟨hchar, hblank⟩
    · exact ⟨isBlank_of_isPrinted rfl, by decide⟩
    · exact ⟨hblank, hname c hchar⟩
  · obtain ⟨hchar, hblank⟩ := t.name_chars c hc
    exact ⟨hblank, hname c hchar⟩

theorem path_ne_nil : t.path ≠ [] := fun h => t.name_ne_nil (List.append_eq_nil_iff.1 h).2

/-- White space is inside the arguments only. -/
theorem exists_singleSpaced_text : ∃ a, singleSpaced t.text = t.path ++ a
    ∧ (a = [] ∨ a.head? = some '<') := by
  have hpath : ∀ c ∈ t.path, isBlank c = false := fun c hc => (t.path_chars c hc).1
  rcases t.arguments_head with h | h
  · refine ⟨[], ?_, .inl rfl⟩
    rw [text, h, List.append_nil, singleSpaced_of_mem_words t.path_ne_nil hpath]
  · obtain ⟨a, h⟩ := List.head?_eq_some_iff.1 h
    have hopen : isBlank '<' = false := isBlank_of_isPrinted rfl
    refine ⟨singleSpaced t.arguments, by rw [text, h, singleSpaced_append hpath hopen], .inr ?_⟩
    rw [head?_singleSpaced, h, List.filter_cons_of_pos (by rw [hopen]; rfl), List.head?_cons]

/-- The last piece of a path is its name. -/
theorem lastPiece_path : lastPiece [':', ':'] t.path = t.name := by
  have hcolon : ':' ∉ t.name.reverse := fun hmem =>
    absurd (t.name_chars ':' (List.mem_reverse.1 hmem)).1 (by decide)
  rw [lastPiece, cutLast?, path, List.reverse_append]
  rcases t.qualifier_ends with h | ⟨front, h⟩
  · rw [h, List.reverse_nil, List.append_nil, List.reverse_cons, List.reverse_singleton,
      List.singleton_append, cut?_eq_none_of_not_mem hcolon]
    rfl
  · have hcut : cut? [':', ':'] (t.name.reverse ++ ([':', ':'] ++ front.reverse))
        = some (t.name.reverse, front.reverse) := cut?_of_not_mem hcolon [':'] front.reverse
    rw [← h, List.reverse_append]
    exact (congrArg (fun p => (Option.map _ (Option.map _ p)).getD _) hcut).trans
      (List.reverse_reverse t.name)

section
variable {a : List Char} (ha : a = [] ∨ a.head? = some '<')
include ha

/-- A path ends where its arguments begin. -/
theorem upTo_path : upTo ['<'] (t.path ++ a) = t.path := by
  have hopen : '<' ∉ t.path := fun hmem => absurd List.mem_cons_self (t.path_chars '<' hmem).2
  rcases ha with rfl | ha
  · rw [List.append_nil, upTo, upTo?, cut?_eq_none_of_not_mem hopen]
    rfl
  · obtain ⟨a, rfl⟩ := List.head?_eq_some_iff.1 ha
    rw [upTo, upTo?, cut?_singleton hopen]
    rfl

/-- A path does not start with the word for changeable references. -/
theorem after?_mut_path : after? "mut ".toList (t.path ++ a) = none := by
  rw [Option.eq_none_iff_forall_ne_some]
  intro rest hrest
  have hspace : ' ' ∉ t.path := fun hmem => absurd (by simp) (t.path_chars ' ' hmem).2
  rcases List.append_eq_append_iff.1 (after?_eq_some_iff.1 hrest) with ⟨b, hword, htail⟩ | ⟨b,
    hpath, -⟩
  · cases b with
    | nil => exact hspace (by rw [← List.append_nil t.path, ← hword]; decide)
    | cons c b =>
        -- the arguments would start within the word
        obtain rfl : c = '<' := by
          rcases ha with rfl | ha
          · cases htail
          · rw [htail] at ha
            exact Option.some.inj ha
        have hmem : '<' ∈ "mut ".toList := by rw [hword]; simp
        exact absurd hmem (by decide)
  · exact hspace (by rw [hpath]; simp)

/-- A type has the name at the end of its path, whether or not it is a reference. -/
theorem baseName?_path (htrim : trim (t.path ++ a) = t.path ++ a) {marks : List Char}
    (hmarks : marks ∈ ["".toList, "&".toList, "&mut ".toList]) :
    baseName? (marks ++ (t.path ++ a)) = some (String.ofList t.name) := by
  obtain ⟨c, p, hp⟩ := List.exists_cons_of_ne_nil t.path_ne_nil
  obtain ⟨hblank, hc⟩ := t.path_chars c (by rw [hp]; exact List.mem_cons_self)
  have htext : t.path ++ a = c :: (p ++ a) := by rw [hp]; rfl
  have hsolid : Solid (c :: (p ++ a)) := by
    obtain ⟨-, -, -, -, -, hsolid, -⟩ := exists_trim (t.path ++ a)
    rwa [htrim, htext] at hsolid
  have hand : (c == '&') = false := beq_false_of_ne fun h => hc (by rw [h]; simp)
  have hmut : after? "mut ".toList (c :: (p ++ a)) = none := htext ▸ t.after?_mut_path ha
  have hreferenced :
      trimStartWord "mut ".toList ((trim (marks ++ (t.path ++ a))).dropWhile (· == '&'))
        = t.path ++ a := by
    rw [htext]
    simp only [List.mem_cons, List.not_mem_nil, or_false] at hmarks
    -- nothing, a reference, or a mutable reference stands in front of the path
    rcases hmarks with rfl | rfl | rfl
    · have hplain : trim ("".toList ++ c :: (p ++ a)) = c :: (p ++ a) := htext ▸ htrim
      rw [hplain, List.dropWhile_cons_of_neg (by simp [hand]), trimStartWord_eq_self hmut]
    · have hmark : trim ("&".toList ++ c :: (p ++ a)) = '&' :: c :: (p ++ a) :=
        (trim_cons (isBlank_of_isPrinted rfl) _).trans (congrArg _ (trimEnd_of_solid hsolid))
      rw [hmark, List.dropWhile_cons_of_pos rfl, List.dropWhile_cons_of_neg (by simp [hand]),
        trimStartWord_eq_self hmut]
    · have hmark : trim ("&mut ".toList ++ c :: (p ++ a))
          = '&' :: ("mut ".toList ++ c :: (p ++ a)) :=
        (trim_cons (isBlank_of_isPrinted rfl) _).trans
          (congrArg _ (trimEnd_of_solid hsolid.append_cons))
      rw [hmark, List.dropWhile_cons_of_pos rfl]
      exact trimStartWord_append (by decide) hmut
  have hname : trim t.name = t.name := by
    have hspaced := singleSpaced_of_mem_words t.name_ne_nil fun c hc => (t.name_chars c hc).2
    rw [← hspaced, trim_singleSpaced]
  have hall : (!t.name.isEmpty && t.name.all isNameChar) = true := by
    rw [Bool.and_eq_true, List.all_eq_true]
    exact ⟨by simpa using t.name_ne_nil, fun c hc => (t.name_chars c hc).1⟩
  rw [baseName?, hreferenced, htrim, t.upTo_path ha, t.lastPiece_path, hname, if_pos hall]

end

/-- The words of a type that may be a reference, and its name behind single spaces. -/
theorem marked {marks : List Char} (hmarks : marks ∈ ["".toList, "&".toList, "&mut ".toList]) :
    baseName? (singleSpaced (marks ++ t.text)) = some (String.ofList t.name)
      ∧ words (marks ++ t.text) ≠ []
      ∧ ∀ w ∈ words (marks ++ t.text), w ∉ ["for".toList, "where".toList] := by
  obtain ⟨c, p, hp⟩ := List.exists_cons_of_ne_nil t.path_ne_nil
  have hc : isBlank c = false := (t.path_chars c (by rw [hp]; exact List.mem_cons_self)).1
  have htext : t.text = c :: (p ++ t.arguments) := by rw [text, hp]; rfl
  obtain ⟨a, ha, hhead⟩ := t.exists_singleSpaced_text
  have htrim : trim (t.path ++ a) = t.path ++ a := by rw [← ha, trim_singleSpaced]
  have hfull : words t.text ≠ [] := by
    intro h
    rw [singleSpaced, h] at ha
    exact t.path_ne_nil (List.append_eq_nil_iff.1 ha.symm).1
  have hand : ∀ w, '&' :: w ∉ ["for".toList, "where".toList] := fun w h => by
    simp at h
  have hwords : ∀ w ∈ words t.text, w ∉ ["for".toList, "where".toList] := t.words_ne
  have hname : ∀ marks ∈ ["".toList, "&".toList, "&mut ".toList],
      baseName? (marks ++ singleSpaced t.text) = some (String.ofList t.name) := fun _ hmarks => by
    rw [ha]
    exact t.baseName?_path hhead htrim hmarks
  have hbase := hname marks hmarks
  simp only [List.mem_cons, List.not_mem_nil, or_false] at hmarks
  -- without a mark, behind a reference, and behind a mutable reference
  rcases hmarks with rfl | rfl | rfl
  · exact ⟨hbase, hfull, hwords⟩
  · have hmark : ∀ d ∈ ['&'], isBlank d = false :=
      List.forall_mem_singleton.2 (isBlank_of_isPrinted rfl)
    have hsingle : singleSpaced ("&".toList ++ t.text) = "&".toList ++ singleSpaced t.text := by
      rw [htext]
      exact singleSpaced_append hmark hc _
    obtain ⟨w, ws, hplain, hlong⟩ :=
      words_append (List.cons_ne_nil '&' []) hmark hc (p ++ t.arguments)
    rw [← htext] at hplain hlong
    refine ⟨by rw [hsingle]; exact hbase, fun h => List.cons_ne_nil _ _ (hlong.symm.trans h), ?_⟩
    rw [show "&".toList ++ t.text = ['&'] ++ t.text from rfl, hlong]
    rw [hplain] at hwords
    exact List.forall_mem_cons.2 ⟨hand w, fun v hv => hwords v (List.mem_cons_of_mem w hv)⟩
  · have hmark : ∀ d ∈ "&mut".toList, isBlank d = false := fun d hd =>
      isBlank_of_isPrinted
        (List.all_eq_true.1 (by decide : "&mut".toList.all isPrinted = true) d hd)
    have hone : words "&mut".toList = ["&mut".toList] := words_of_not_blank (by decide) hmark
    have hlong : words ("&mut ".toList ++ t.text) = "&mut".toList :: words t.text := by
      rw [show "&mut ".toList ++ t.text = "&mut".toList ++ ' ' :: t.text from rfl,
        words_append_cons _ isBlank_space, hone]
      rfl
    have hsingle : singleSpaced ("&mut ".toList ++ t.text)
        = "&mut ".toList ++ singleSpaced t.text := by
      rw [show "&mut ".toList ++ t.text = "&mut".toList ++ ' ' :: t.text from rfl,
        singleSpaced_append_cons (by rw [hone]; exact List.cons_ne_nil _ _) isBlank_space hfull,
        singleSpaced_of_mem_words (by decide) hmark]
      rfl
    refine ⟨by rw [hsingle]; exact hbase, by rw [hlong]; exact List.cons_ne_nil _ _, ?_⟩
    rw [hlong]
    exact List.forall_mem_cons.2 ⟨hand "mut".toList, hwords⟩

end TypePath

/-! ## Headers -/

/-- The header of a block: the trait, if there is one, and the type, which may be behind a
reference, and what the parameters have to satisfy. -/
structure Header where
  trait? : Option TypePath
  marks : List Char
  type : TypePath
  clause? : Option (List Char)
  marks_mem : marks ∈ ["".toList, "&".toList, "&mut ".toList]
  clause_words : ∀ clause ∈ clause?, words clause ≠ []

namespace Header

variable (h : Header)

/-- The header without what the parameters have to satisfy. -/
def front : List Char := (h.trait?.elim [] fun t => t.text ++ " for ".toList)
    ++ (h.marks ++ h.type.text)

/-- A header as it stands in a text. -/
def text : List Char := h.front ++ h.clause?.elim [] (" where ".toList ++ ·)

/-- The names in the header. -/
def target : ImplTarget where
  trait := h.trait?.map fun t => String.ofList t.name
  type := String.ofList h.type.name

/-- A header for a trait has the word between the trait and the type. -/
theorem trait_front {t : TypePath} (ht : h.trait? = some t) :
    h.front = t.text ++ ' ' :: ("for".toList ++ ' ' :: (h.marks ++ h.type.text)) := by
  rw [front, ht, Option.elim_some, List.append_assoc]
  rfl

/-- The words of a header in front of what the parameters have to satisfy. -/
theorem words_front : words h.front ≠ [] ∧ "where".toList ∉ words h.front := by
  obtain ⟨-, hfull, hwords⟩ := h.type.marked h.marks_mem
  have hwhere : "where".toList ∉ words (h.marks ++ h.type.text) :=
    fun hmem => hwords _ hmem (by simp)
  cases ht : h.trait? with
  | none =>
      rw [front, ht]
      exact ⟨hfull, hwhere⟩
  | some t =>
      obtain ⟨hne, hfor⟩ := keyword_solid (w := "for".toList) (by simp)
      rw [h.trait_front ht, words_append_cons _ isBlank_space, words_append_cons _ isBlank_space,
        words_of_not_blank hne hfor]
      refine ⟨fun hnil => hfull (List.append_eq_nil_iff.1 (List.append_eq_nil_iff.1 hnil).2).2,
        fun hmem => ?_⟩
      rcases List.mem_append.1 hmem with hmem | hmem
      · exact t.words_ne _ hmem (by simp)
      · rcases List.mem_append.1 hmem with hmem | hmem
        · exact absurd hmem (by decide)
        · exact hwhere hmem

/-- What stands in front of a clause is the front of the header. -/
theorem upTo_where : upTo " where ".toList (singleSpaced h.text) = singleSpaced h.front := by
  obtain ⟨hfull, hwhere⟩ := h.words_front
  obtain ⟨hne, hsolid⟩ := keyword_solid (w := "where".toList) (by simp)
  have hnot : "where".toList ∉ words (singleSpaced h.front) := by rwa [words_singleSpaced]
  cases hc : h.clause? with
  | none =>
      rw [text, hc, Option.elim_none, List.append_nil]
      exact upTo_of_not_infix (not_infix_of_spaced hne hsolid hnot)
  | some clause =>
      have htext : h.text = h.front ++ ' ' :: ("where".toList ++ ' ' :: clause) := by
        rw [text, hc]
        rfl
      rw [htext, singleSpaced_between hne hsolid hfull (h.clause_words clause hc), upTo, upTo?]
      exact congrArg (fun p => (Option.map Prod.fst p).getD _) (cut?_word hne hsolid hnot _)

/-- A header starts with a character that is neither white space nor a bracket. -/
theorem exists_head : ∃ c rest, h.text = c :: rest ∧ isBlank c = false ∧ c ≠ '<' := by
  have hpath : ∀ t : TypePath, ∃ c rest, t.text = c :: rest ∧ isBlank c = false ∧ c ≠ '<' := by
    intro t
    obtain ⟨c, p, hp⟩ := List.exists_cons_of_ne_nil t.path_ne_nil
    obtain ⟨hblank, hc⟩ := t.path_chars c (by rw [hp]; exact List.mem_cons_self)
    exact ⟨c, p ++ t.arguments,
      by rw [TypePath.text, hp]; rfl, hblank, fun heq => hc (by rw [heq]; simp)⟩
  cases ht : h.trait? with
  | some t =>
      obtain ⟨c, rest, htext, hc⟩ := hpath t
      exact ⟨c, _, by rw [text, h.trait_front ht, htext]; rfl, hc⟩
  | none =>
      obtain ⟨c, rest, htext, hc⟩ := hpath h.type
      have hmarks := h.marks_mem
      simp only [List.mem_cons, List.not_mem_nil, or_false] at hmarks
      rcases hmarks with hmarks | hmarks | hmarks
      · exact ⟨c, _, by rw [text, front, ht, hmarks, htext]; rfl, hc⟩
      · exact ⟨'&', _, by rw [text, front, ht, hmarks]; rfl, isBlank_of_isPrinted rfl, by decide⟩
      · exact ⟨'&', _, by rw [text, front, ht, hmarks]; rfl, isBlank_of_isPrinted rfl, by decide⟩

/-- A header without parameters is left as it is. -/
theorem dropParameters?_text : dropParameters? (singleSpaced h.text)
    = some (singleSpaced h.text) := by
  obtain ⟨c, rest, htext, hblank, hc⟩ := h.exists_head
  have hhead : (singleSpaced h.text).head? = some c := by
    rw [head?_singleSpaced, htext, List.filter_cons_of_pos (by rw [hblank]; rfl), List.head?_cons]
  rw [dropParameters?, hhead, if_neg (by simpa using hc)]

/-- What a block is for is told by its header without parameters. -/
theorem implTarget?_eq {header : List Char}
    (hdrop : dropParameters? (singleSpaced header) = some (singleSpaced h.text)) :
    implTarget? header = some h.target := by
  obtain ⟨hne, hsolid⟩ := keyword_solid (w := "for".toList) (by simp)
  obtain ⟨hname, hfull, hwords⟩ := h.type.marked h.marks_mem
  rw [implTarget?, hdrop]
  simp only [Option.bind_eq_bind, Option.bind_some, h.upTo_where, trim_singleSpaced]
  cases ht : h.trait? with
  | none =>
      -- no trait: the word `for` does not occur
      have hfront : h.front = h.marks ++ h.type.text := by rw [front, ht]; rfl
      have hnot : "for".toList ∉ words (singleSpaced h.front) := by
        rw [words_singleSpaced, hfront]
        exact fun hmem => hwords _ hmem (by simp)
      have hcut : cut? " for ".toList (singleSpaced h.front) = none :=
        cut?_eq_none (not_infix_of_spaced hne hsolid hnot)
      rw [hcut, hfront]
      dsimp only
      rw [hname, target, ht]
      rfl
  | some t =>
      -- a trait: the first `for` is the one behind it
      obtain ⟨hname', hfull', hwords'⟩ := t.marked (List.mem_cons_self : "".toList ∈ _)
      rw [show "".toList ++ t.text = t.text from rfl] at hname' hfull' hwords'
      have hnot : "for".toList ∉ words (singleSpaced t.text) := by
        rw [words_singleSpaced]
        exact fun hmem => hwords' _ hmem (by simp)
      have hcut : cut? " for ".toList (singleSpaced h.front)
          = some (singleSpaced t.text, singleSpaced (h.marks ++ h.type.text)) := by
        rw [h.trait_front ht, singleSpaced_between hne hsolid hfull' hfull]
        exact cut?_word hne hsolid hnot _
      rw [hcut]
      dsimp only
      rw [hname, hname', target, ht]
      rfl

/-- The target of a header is that of its trait and its type. -/
theorem implTarget?_text : implTarget? h.text = some h.target :=
  h.implTarget?_eq h.dropParameters?_text

/-- A header has words. -/
theorem words_text : words h.text ≠ [] := by
  obtain ⟨c, rest, htext, hblank, -⟩ := h.exists_head
  intro hnil
  have hflat := flatten_words h.text
  rw [hnil, htext, List.filter_cons_of_pos (by rw [hblank]; rfl)] at hflat
  cases hflat

end Header

/-! ## Blocks -/

/-- Headers with the same words have the same target. -/
theorem implTarget?_congr {header header' : List Char} (h : words header = words header') :
    implTarget? header = implTarget? header' := by
  rw [implTarget?, implTarget?, singleSpaced_congr h]

/-- The functions of a block are methods of the type that its header names, or the type has the
trait. -/
theorem filed {f : SourceFile} {m : Match} (hm : m ∈ implHeader.findAll f.content)
    {target : ImplTarget} (htarget : implTarget? (m.textOf "header").toList = some target)
    {body : List Char} (hbody : delimitedBody? .rust f.content (m.stop - 1) = some body) :
    (target.trait = none → functionNames body ⊆ methodsOf (impls f) target.type)
      ∧ ∀ trait, target.trait = some trait → trait ∈ traitsOf (impls f) target.type := by
  have himpl : ⟨target, functionNames body⟩ ∈ impls f :=
    List.mem_filterMap.2 ⟨m, hm, by rw [htarget, hbody]; rfl⟩
  constructor
  · intro hnone name hname
    refine List.mem_flatMap.2 ⟨_, himpl, ?_⟩
    rw [if_pos (by simp [hnone])]
    exact hname
  · intro trait htrait
    exact mem_addNew.2
      (.inr (List.mem_filterMap.2 ⟨_, himpl, by rw [if_pos (by simp)]; exact htrait⟩))

/-- A header tells the trait and the type that it names. Parameters in front of it are dropped just
if there is no arrow in them, and then they do not change what it tells, so the block is filed under
the same type. -/
theorem implTarget?_withParameters (h : Header) :
    implTarget? h.text = some h.target
    ∧ ∀ n params, Angled n params →
      (dropParameters? (singleSpaced (withParameters params h.text))
        = some (singleSpaced h.text) ↔ n = 0)
      ∧ (n = 0 → implTarget? (withParameters params h.text) = implTarget? h.text
        ∧ ∀ (f : SourceFile) m body, m ∈ implHeader.findAll f.content →
          words (m.textOf "header").toList = words (withParameters params h.text) →
          delimitedBody? .rust f.content (m.stop - 1) = some body →
          (h.trait? = none → functionNames body ⊆ methodsOf (impls f) (String.ofList h.type.name))
          ∧ ∀ t, h.trait? = some t → String.ofList t.name
            ∈ traitsOf (impls f) (String.ofList h.type.name)) := by
  refine ⟨h.implTarget?_text, fun n params hparams => ?_⟩
  have hdrop := dropParameters?_withParameters hparams h.words_text
  refine ⟨hdrop, fun hn => ?_⟩
  have htarget := h.implTarget?_eq (hdrop.2 hn)
  refine ⟨htarget.trans h.implTarget?_text.symm, fun f m body hm hwords hbody => ?_⟩
  obtain ⟨hmethods, htraits⟩ := filed hm ((implTarget?_congr hwords).trans htarget) hbody
  exact ⟨fun hnone => hmethods (by rw [Header.target, hnone]; rfl),
    fun t ht => htraits _ (by rw [Header.target, ht]; rfl)⟩

/-- The check of printed characters of names says that they are such. -/
theorem nameChars_of_all {s : List Char} (h : s.all (fun c => isNameChar c && isPrinted c) = true) :
    ∀ c ∈ s, isNameChar c = true ∧ isBlank c = false := fun c hc => by
  have hboth := Bool.and_eq_true_iff.1 (List.all_eq_true.1 h c hc)
  exact ⟨hboth.1, isBlank_of_isPrinted hboth.2⟩

/-- A printed text is one word. -/
theorem words_of_printed {s : List Char} (hne : s ≠ []) (h : s.all isPrinted = true) :
    words s = [s] :=
  words_of_not_blank hne fun c hc => isBlank_of_isPrinted (List.all_eq_true.1 h c hc)

/-- Bounds with arguments, and an arrow where it does not matter. -/
theorem implTarget?_withParameters_bounds :
    let params := "'a, T: From<Vec<u8>>".toList
    let header := "fmt::Debug for &mut Cell<'a, T> where T: Fn(u8) -> u8".toList
    Angled 0 params ∧ implTarget? header = some { trait := some "Debug", type := "Cell" }
      ∧ implTarget? (withParameters params header) = implTarget? header := by
  intro params header
  have hinner : Angled 0 ("u8".toList ++ []) := .chars (by decide) .nil
  have hmiddle : Angled 0 ("Vec".toList ++ '<' :: ("u8".toList ++ [] ++ '>' :: [])) :=
    .chars (by decide) (.angle hinner .nil)
  have hparams : Angled 0 params :=
    .chars (by decide : "'a, T: From".toList.all _ = true) (.angle hmiddle .nil)
  -- the header as a record: each of its parts is plain, so the general theorem applies
  let trait : TypePath := {
    qualifier := "fmt::".toList
    name := "Debug".toList
    arguments := []
    qualifier_ends := .inr ⟨"fmt".toList, rfl⟩
    qualifier_chars := by
      intro c hc
      rw [show "fmt::".toList = "fmt".toList ++ [':', ':'] from rfl] at hc
      rcases List.mem_append.1 hc with hc | hc
      · exact .inr (nameChars_of_all (by decide) c hc)
      · exact .inl (by simpa using hc)
    name_ne_nil := by decide
    name_chars := nameChars_of_all (by decide)
    arguments_head := .inl rfl
    words_ne := by
      rw [show "fmt::".toList ++ "Debug".toList ++ [] = "fmt::Debug".toList from rfl,
        words_of_printed (by decide) (by decide)]
      decide }
  let type : TypePath := {
    qualifier := []
    name := "Cell".toList
    arguments := "<'a, T>".toList
    qualifier_ends := .inl rfl
    qualifier_chars := fun _ hc => absurd hc List.not_mem_nil
    name_ne_nil := by decide
    name_chars := nameChars_of_all (by decide)
    arguments_head := .inr rfl
    words_ne := by
      rw [show [] ++ "Cell".toList ++ "<'a, T>".toList
        = "Cell<'a,".toList ++ ' ' :: "T>".toList
          from rfl, words_append_cons _ isBlank_space, words_of_printed (by decide) (by decide),
        words_of_printed (by decide) (by decide)]
      decide }
  let h : Header := {
    trait? := some trait
    marks := "&mut ".toList
    type
    clause? := some "T: Fn(u8) -> u8".toList
    marks_mem := by decide
    clause_words := by
      rintro clause ⟨⟩
      rw [show "T: Fn(u8) -> u8".toList = "T:".toList ++ ' ' :: "Fn(u8) -> u8".toList from rfl,
        words_append_cons _ isBlank_space, words_of_printed (by decide) (by decide)]
      exact List.cons_ne_nil _ _ }
  obtain ⟨htext, hrest⟩ := implTarget?_withParameters h
  exact ⟨hparams, htext, ((hrest 0 params hparams).2 rfl).1⟩

/-- Printed words with spaces between them have single spaces. -/
theorem singleSpaced_intercalate {ws : List (List Char)}
    (h : ws.all (fun w => !w.isEmpty && w.all isPrinted) = true) :
    singleSpaced ([' '].intercalate ws) = [' '].intercalate ws := by
  rw [singleSpaced, words_intercalate]
  intro w hw
  have hboth := Bool.and_eq_true_iff.1 (List.all_eq_true.1 h w hw)
  exact ⟨by simpa using hboth.1, fun c hc => isBlank_of_isPrinted (List.all_eq_true.1 hboth.2 c hc)⟩

/-- The arrow of a bound closes the parameters, and what the block is for is told by what is behind
it. -/
theorem implTarget?_withParameters_arrow :
    implTarget? "Handler for Server<F>".toList = some { trait := some "Handler", type := "Server" }
      ∧ implTarget? "<F: Fn(u8) -> u8> Handler for Server<F>".toList
        = some { trait := none, type := "Server" } := by
  -- the name of a type is the last piece of its path in front of the arguments
  have hname : ∀ type last : List Char, trim type = type →
      trimStartWord "mut ".toList (type.dropWhile (· == '&')) = type →
        lastPiece [':', ':'] (upTo ['<'] type) = last →
      trim last = last →
      baseName? type = if !last.isEmpty && last.all isNameChar then some (String.ofList last)
        else none := by
    intro type last htrim hplain hlast hlast'
    rw [baseName?, htrim, hplain, htrim, hlast, hlast']
  have hserver : baseName? "Server<F>".toList = some "Server" :=
    hname _ "Server".toList (trim_of_printed rfl rfl) (by decide) (by decide)
      (trim_of_printed rfl rfl)
  have hhandler : baseName? "Handler".toList = some "Handler" :=
    hname _ "Handler".toList (trim_of_printed rfl rfl) (by decide) (by decide)
      (trim_of_printed rfl rfl)
  have hrest : baseName? "u8> Handler".toList = none :=
    hname _ "u8> Handler".toList (trim_of_printed rfl rfl) (by decide) (by decide)
      (trim_of_printed rfl rfl)
  -- the parameter list is closed by the bracket of the arrow
  have hdrop : dropParameters? "<F: Fn(u8) -> u8> Handler for Server<F>".toList
      = some "u8> Handler for Server<F>".toList := by
    have hmatched : Matched "F: Fn(u8) -".toList := by
      have hclose : '>' ∉ "F: Fn(u8) -".toList := by decide
      refine ⟨by decide, fun p hp => ?_⟩
      rw [List.count_eq_zero.2 fun hmem => hclose (hp.subset hmem)]
      exact Nat.zero_le _
    have hplain : Plain "F: Fn(u8) -".toList := ⟨by decide, by decide⟩
    exact (dropParameters?_eq_some_iff rfl).2 ⟨"<F: Fn(u8) -".toList,
      " u8> Handler for Server<F>".toList, rfl, trim_space_cons rfl rfl,
        (findBalanced_matched hplain " u8> Handler for Server<F>".toList).2 hmatched⟩
  constructor
  · have hspaced : singleSpaced "Handler for Server<F>".toList = "Handler for Server<F>".toList :=
      @singleSpaced_intercalate (["Handler", "for", "Server<F>"].map String.toList) (by decide)
    have htrim : trim "Handler for Server<F>".toList = "Handler for Server<F>".toList :=
      trim_of_printed rfl rfl
    have hcut : cut? " for ".toList "Handler for Server<F>".toList
        = some ("Handler".toList, "Server<F>".toList) := by
      decide
    have hbare : dropParameters? "Handler for Server<F>".toList
        = some "Handler for Server<F>".toList := rfl
    have hwhere : upTo " where ".toList "Handler for Server<F>".toList
        = "Handler for Server<F>".toList := by decide
    rw [implTarget?, hspaced, hbare]
    simp only [Option.bind_eq_bind, Option.bind_some, hwhere, htrim, hcut, hhandler, hserver]
    rfl
  · have hspaced : singleSpaced "<F: Fn(u8) -> u8> Handler for Server<F>".toList
        = "<F: Fn(u8) -> u8> Handler for Server<F>".toList :=
      @singleSpaced_intercalate
        (["<F:", "Fn(u8)", "->", "u8>", "Handler", "for", "Server<F>"].map String.toList)
        (by decide)
    have htrim : trim "u8> Handler for Server<F>".toList = "u8> Handler for Server<F>".toList :=
      trim_of_printed rfl rfl
    have hcut : cut? " for ".toList "u8> Handler for Server<F>".toList
        = some ("u8> Handler".toList, "Server<F>".toList) := by decide
    have hwhere : upTo " where ".toList "u8> Handler for Server<F>".toList
        = "u8> Handler for Server<F>".toList := by
      decide
    rw [implTarget?, hspaced, hdrop]
    simp only [Option.bind_eq_bind, Option.bind_some, hwhere, htrim, hcut, hrest, hserver]
    rfl

end CodeAtlas.Source.Rust
