import CodeAtlas.Proofs.Json.Number
import CodeAtlas.Proofs.Json.Spelling

/-!
# What the reader reads

A text of a document is described by its parts: values, the entries between brackets, which are
items or members with a key, and the blanks around them. The reader reads exactly these texts, and
its fuel is always enough.
-/

namespace CodeAtlas.Json

/-- Blanks between the parts of a document. -/
def Blank (s : List Char) : Prop := ∀ c ∈ s, isSpace c = true

theorem blank_nil : Blank [] := nofun

/-- Two blank texts behind each other are blank. -/
theorem Blank.append {a b : List Char} (ha : Blank a) (hb : Blank b) : Blank (a ++ b) := by
  intro c hc
  rcases List.mem_append.1 hc with hc | hc
  · exact ha c hc
  · exact hb c hc

/-- A text is blank if its first character and the others are. -/
theorem blank_cons {c : Char} {s : List Char} : Blank (c :: s) ↔ isSpace c = true ∧ Blank s :=
  List.forall_mem_cons

/-- White space in front is skipped. -/
theorem skipSpace_append {b : List Char} (hb : Blank b) (s : List Char) :
    skipSpace (b ++ s) = skipSpace s := by
  induction b with
  | nil => rfl
  | cons c b ih =>
      obtain ⟨hc, hb⟩ := blank_cons.1 hb
      rw [List.cons_append, skipSpace, List.dropWhile_cons_of_pos hc]
      exact ih hb

/-- Of a blank text nothing is left. -/
theorem skipSpace_blank {b : List Char} (hb : Blank b) : skipSpace b = [] := by
  have hskip := skipSpace_append hb []
  rwa [List.append_nil] at hskip

/-- Nothing is skipped in front of a character that is not white space. -/
theorem skipSpace_cons {c : Char} (hc : isSpace c = false) (s : List Char) :
    skipSpace (c :: s) = c :: s :=
  List.dropWhile_cons_of_neg (by rw [hc]; exact Bool.false_ne_true)

/-- Before what remains there were blanks. -/
theorem exists_blank_append_skipSpace (s : List Char) : ∃ b, Blank b ∧ s = b ++ skipSpace s :=
  ⟨s.takeWhile isSpace, List.all_eq_true.1 List.all_takeWhile, List.takeWhile_append_dropWhile.symm⟩

/-- The parts of a text: a value, an entry between brackets, some entries, and what follows an
entry. Only entries of objects are keyed; for items of arrays the key means nothing. -/
inductive Form where
  | value (j : Json)
  | entry (keyed : Bool) (e : String × Json)
  | entries (keyed : Bool) (es : List (String × Json))
  | more (keyed : Bool) (es : List (String × Json))

/-- The texts of a part in which brackets are nested at most so deep. -/
inductive Text : Nat → Form → List Char → Prop
  | null {n : Nat} : Text n (.value .null) ['n', 'u', 'l', 'l']
  | yes {n : Nat} : Text n (.value (.bool true)) ['t', 'r', 'u', 'e']
  | no {n : Nat} : Text n (.value (.bool false)) ['f', 'a', 'l', 's', 'e']
  | num {n : Nat} {x : Json.Number} {s : List Char} (h : readNumber? s = some (x, [])) :
      Text n (.value (.num x)) s
  | str {n : Nat} {s cs : List Char} (h : Spells s cs) :
      Text n (.value (.str (String.ofList cs))) ('"' :: (s ++ ['"']))
  | arr {n : Nat} {es : List (String × Json)} {s : List Char} :
      Text n (.entries false es) s →
      Text (n + 1) (.value (.arr (es.map Prod.snd))) ('[' :: (s ++ [']']))
  | obj {n : Nat} {es : List (String × Json)} {s : List Char} :
      Text n (.entries true es) s →
      Text (n + 1) (.value (.obj es)) ('\x7b' :: (s ++ ['\x7d']))
  | item {n : Nat} {key : String} {j : Json} {s : List Char} :
      Text n (.value j) s → Text n (.entry false (key, j)) s
  | member {n : Nat} {j : Json} {k cs b b' s : List Char} (hk : Spells k cs) (hb : Blank b)
      (hb' : Blank b') :
      Text n (.value j) s → Text n (.entry true (String.ofList cs, j))
        ('"' :: (k ++ '"' :: (b ++ ':' :: (b' ++ s))))
  | nil {n : Nat} {keyed : Bool} {b : List Char} (hb : Blank b) : Text n (.entries keyed []) b
  | cons {n : Nat} {keyed : Bool} {e : String × Json} {es : List (String × Json)}
      {b s b' m : List Char} (hb : Blank b) (hb' : Blank b') :
      Text n (.entry keyed e) s → Text n (.more keyed es) m →
      Text n (.entries keyed (e :: es)) (b ++ (s ++ (b' ++ m)))
  | last {n : Nat} {keyed : Bool} : Text n (.more keyed []) []
  | comma {n : Nat} {keyed : Bool} {e : String × Json} {es : List (String × Json)} {s : List Char} :
      Text n (.entries keyed (e :: es)) s → Text n (.more keyed (e :: es)) (',' :: s)

namespace Text

/-- Blanks may come before entries. -/
theorem blank_append {n : Nat} {keyed : Bool} {es : List (String × Json)} {b s : List Char}
    (hb : Blank b) (h : Text n (.entries keyed es) s) : Text n (.entries keyed es) (b ++ s) := by
  cases h with
  | nil hb' => exact .nil (hb.append hb')
  | cons hb₁ hb₂ he hm =>
      rw [← List.append_assoc]
      exact .cons (hb.append hb₁) hb₂ he hm

/-- A text is one for deeper nesting as well. -/
theorem mono {n m : Nat} (hle : n ≤ m) {form : Form} {s : List Char} (h : Text n form s) :
    Text m form s := by
  induction h generalizing m with
  | null => exact .null
  | yes => exact .yes
  | no => exact .no
  | num h => exact .num h
  | str h => exact .str h
  | arr _ ih =>
      cases m with
      | zero => exact absurd hle (Nat.not_succ_le_zero _)
      | succ m => exact .arr (ih (Nat.le_of_succ_le_succ hle))
  | obj _ ih =>
      cases m with
      | zero => exact absurd hle (Nat.not_succ_le_zero _)
      | succ m => exact .obj (ih (Nat.le_of_succ_le_succ hle))
  | item _ ih => exact .item (ih hle)
  | member hk hb hb' _ ih => exact .member hk hb hb' (ih hle)
  | nil hb => exact .nil hb
  | cons hb hb' _ _ ih ihm => exact .cons hb hb' (ih hle) (ihm hle)
  | last => exact .last
  | comma _ ih => exact .comma (ih hle)

end Text

/-! ## What is read is a text -/

/-- A key with its colon. -/
theorem exists_of_readKey? {text rest : List Char} {key : String}
    (h : readKey? text = some (key, rest)) : ∃ b k cs b',
      text = b ++ '"' :: (k ++ '"' :: (b' ++ ':' :: rest))
      ∧ Blank b ∧ Spells k cs ∧ Blank b' ∧ key = String.ofList cs := by
  obtain ⟨b, hb, htext⟩ := exists_blank_append_skipSpace text
  rw [readKey?] at h
  split at h
  · next t ht =>
    split at h
    · next k' t' hread =>
      obtain ⟨b', hb', ht'⟩ := exists_blank_append_skipSpace t'
      split at h
      · next t'' hcolon =>
        cases h
        obtain ⟨k, cs, rfl, hk, hcs⟩ := spells_of_readString? hread
        refine ⟨b, k, cs, b', ?_, hb, hk, hb', hcs⟩
        rw [← hcolon, ← ht', ← ht, ← htext]
      · cases h
    · cases h
  · cases h

/-- What is read as a value is a text of it, behind blanks. -/
def ValueRead (fuel : Nat) : Prop :=
  ∀ ⦃room text j rest⦄, readValue? fuel room text = some (j, rest) →
    ∃ b s, text = b ++ (s ++ rest) ∧ Blank b ∧ Text room (.value j) s

/-- What is read as items is a text of entries, and a bracket. -/
def ItemsRead (fuel : Nat) : Prop :=
  ∀ ⦃room read text j rest⦄, readItems? fuel room read text = some (j, rest) →
    ∃ e es s, text = s ++ ']' :: rest ∧ Text room (.entries false (e :: es)) s
      ∧ j = .arr (read.reverse ++ (e :: es).map Prod.snd)

/-- What is read as members is a text of entries, and a brace. -/
def MembersRead (fuel : Nat) : Prop :=
  ∀ ⦃room read text j rest⦄, readMembers? fuel room read text = some (j, rest) →
    ∃ e es s, text = s ++ '\x7d' :: rest ∧ Text room (.entries true (e :: es)) s
      ∧ j = .obj (read.reverse ++ e :: es)

/-- A value is read with one more step if its items and members are read. -/
theorem ValueRead.succ {fuel : Nat} (hi : ItemsRead fuel) (hm : MembersRead fuel) :
    ValueRead (fuel + 1) := by
  intro room text j rest h
  obtain ⟨b, hb, htext⟩ := exists_blank_append_skipSpace text
  -- one case for each kind of value, told by the first character behind the white space
  rw [readValue?] at h
  split at h
  · next t ht =>
    cases h
    exact ⟨b, _, htext.trans (by rw [ht]; rfl), hb, .null⟩
  · next t ht =>
    cases h
    exact ⟨b, _, htext.trans (by rw [ht]; rfl), hb, .yes⟩
  · next t ht =>
    cases h
    exact ⟨b, _, htext.trans (by rw [ht]; rfl), hb, .no⟩
  · next t ht =>
    obtain ⟨⟨str, t'⟩, hread, heq⟩ := Option.map_eq_some_iff.1 h
    cases heq
    obtain ⟨s, cs, rfl, hs, rfl⟩ := spells_of_readString? hread
    refine ⟨b, _, htext.trans ?_, hb, .str hs⟩
    rw [ht, List.cons_append, List.append_assoc, List.singleton_append]
  · next t ht =>
    obtain ⟨b', hb', ht'⟩ := exists_blank_append_skipSpace t
    -- an array or an object takes one level of room, and its items are read with one step less
    cases room with
    | zero => cases h
    | succ room =>
        dsimp only at h
        split at h
        · next t'' hclose =>
          cases h
          refine ⟨b, _, htext.trans ?_, hb, .arr (.nil hb')⟩
          rw [ht, ht', hclose, List.cons_append, List.append_assoc, List.singleton_append]
        · obtain ⟨e, es, s, hs, hes, rfl⟩ := hi h
          refine ⟨b, _, htext.trans ?_, hb, .arr (hes.blank_append hb')⟩
          rw [ht, ht', hs, List.cons_append, List.append_assoc, List.append_assoc,
            List.singleton_append]
  · next t ht =>
    obtain ⟨b', hb', ht'⟩ := exists_blank_append_skipSpace t
    cases room with
    | zero => cases h
    | succ room =>
        dsimp only at h
        split at h
        · next t'' hclose =>
          cases h
          refine ⟨b, _, htext.trans ?_, hb, .obj (.nil hb')⟩
          rw [ht, ht', hclose, List.cons_append, List.append_assoc, List.singleton_append]
        · obtain ⟨e, es, s, hs, hes, rfl⟩ := hm h
          refine ⟨b, _, htext.trans ?_, hb, .obj (hes.blank_append hb')⟩
          rw [ht, ht', hs, List.cons_append, List.append_assoc, List.append_assoc,
            List.singleton_append]
  · -- a number stops at the first character that cannot go on with it
    obtain ⟨⟨x, t⟩, hread, heq⟩ := Option.map_eq_some_iff.1 h
    cases heq
    obtain ⟨s, hs, -, hlocal⟩ := readNumber?_local hread
    have hwhole := hlocal [] delimited_nil
    rw [List.append_nil] at hwhole
    exact ⟨b, s, htext.trans (by rw [hs]), hb, .num hwhole⟩

/-- Items are read with one more step if values and items are read. -/
theorem ItemsRead.succ {fuel : Nat} (hv : ValueRead fuel) (hi : ItemsRead fuel) :
    ItemsRead (fuel + 1) := by
  intro room read text j rest h
  rw [readItems?] at h
  split at h
  · cases h
  · next item t hread =>
    obtain ⟨b, s, rfl, hb, hs⟩ := hv hread
    obtain ⟨b', hb', ht⟩ := exists_blank_append_skipSpace t
    split at h
    · next t' hcomma =>
      obtain ⟨e, es, m, rfl, hes, rfl⟩ := hi h
      refine ⟨("", item), e :: es, _, ?_, .cons hb hb' (.item hs) (.comma hes), ?_⟩
      · rw [ht, hcomma]
        simp only [List.append_assoc, List.cons_append]
      · rw [List.reverse_cons, List.append_assoc, List.singleton_append]
        rfl
    · next t' hclose =>
      cases h
      refine ⟨("", item), [], _, ?_, .cons hb hb' (.item hs) .last, ?_⟩
      · rw [ht, hclose]
        simp only [List.append_assoc, List.append_nil]
      · rw [List.map_singleton, List.reverse_cons]
    · cases h

/-- Members are read with one more step if values and members are read. -/
theorem MembersRead.succ {fuel : Nat} (hv : ValueRead fuel) (hm : MembersRead fuel) :
    MembersRead (fuel + 1) := by
  intro room read text j rest h
  rw [readMembers?] at h
  split at h
  · cases h
  · next key t hkey =>
    obtain ⟨b, k, cs, b₁, rfl, hb, hk, hb₁, rfl⟩ := exists_of_readKey? hkey
    split at h
    · cases h
    · next value t hread =>
      obtain ⟨b₂, s, rfl, hb₂, hs⟩ := hv hread
      obtain ⟨b', hb', ht⟩ := exists_blank_append_skipSpace t
      split at h
      · next t' hcomma =>
        obtain ⟨e, es, m, rfl, hes, rfl⟩ := hm h
        refine ⟨_, e :: es, _, ?_, .cons hb hb' (.member hk hb₁ hb₂ hs) (.comma hes), ?_⟩
        · rw [ht, hcomma]
          simp only [List.append_assoc, List.cons_append]
        · rw [List.reverse_cons, List.append_assoc, List.singleton_append]
      · next t' hclose =>
        cases h
        refine ⟨_, [], _, ?_, .cons hb hb' (.member hk hb₁ hb₂ hs) .last, ?_⟩
        · rw [ht, hclose]
          simp only [List.append_assoc, List.cons_append, List.append_nil]
        · rw [List.reverse_cons]
      · cases h

/-- What the reader reads is a text of what it returns. -/
theorem valueRead (fuel : Nat) : ValueRead fuel := by
  have hall : ValueRead fuel ∧ ItemsRead fuel ∧ MembersRead fuel := by
    induction fuel with
    | zero => exact ⟨nofun, nofun, nofun⟩
    | succ fuel ih =>
        obtain ⟨hv, hi, hm⟩ := ih
        exact ⟨.succ hi hm, .succ hv hi, .succ hv hm⟩
  exact hall.1

/-! ## Texts are read -/

/-- The characters of a number. -/
theorem isNumberChar_of_readNumber? {s : List Char} {x : Json.Number}
    (h : readNumber? s = some (x, [])) : s ≠ [] ∧ ∀ c ∈ s, isNumberChar c = true := by
  constructor
  · rintro rfl
    cases h
  · obtain ⟨s', hs, hchars, -⟩ := readNumber?_local h
    rw [List.append_nil] at hs
    rw [hs]
    exact hchars

/-- White space in front of what delimits a number delimits it too. -/
theorem delimited_blank_append {b : List Char} (hb : Blank b) {rest : List Char}
    (h : Delimited rest) : Delimited (b ++ rest) := by
  cases b with
  | nil => exact h
  | cons c b =>
      obtain ⟨hc, -⟩ := blank_cons.1 hb
      refine delimited_cons.2 ?_
      simp only [isSpace, Bool.or_eq_true, beq_iff_eq] at hc
      rcases hc with ((rfl | rfl) | rfl) | rfl
      all_goals rfl

/-- White space in front of a value is skipped. -/
theorem readValue?_blank (fuel n : Nat) {b : List Char} (hb : Blank b) (s : List Char) :
    readValue? fuel n (b ++ s) = readValue? fuel n s := by
  cases fuel with
  | zero => rfl
  | succ fuel => rw [readValue?, readValue?, skipSpace_append hb]

/-- White space in front of items is skipped. -/
theorem readItems?_blank (fuel n : Nat) (read : List Json) {b : List Char} (hb : Blank b)
    (s : List Char) : readItems? fuel n read (b ++ s) = readItems? fuel n read s := by
  cases fuel with
  | zero => rfl
  | succ fuel => rw [readItems?, readItems?, readValue?_blank fuel n hb]

/-- White space in front of a key is skipped. -/
theorem readKey?_blank {b : List Char} (hb : Blank b) (s : List Char) :
    readKey? (b ++ s) = readKey? s := by
  rw [readKey?, readKey?, skipSpace_append hb]

/-- White space in front of members is skipped. -/
theorem readMembers?_blank (fuel n : Nat) (read : List (String × Json)) {b : List Char}
    (hb : Blank b) (s : List Char) :
    readMembers? fuel n read (b ++ s) = readMembers? fuel n read s := by
  cases fuel with
  | zero => rfl
  | succ fuel => rw [readMembers?, readMembers?, readKey?_blank hb]

/-- A text that starts like a number is read as one. -/
theorem readValue?_number {fuel n : Nat} {c : Char} {text : List Char}
    (hc : isNumberChar c = true) :
    readValue? (fuel + 1) n (c :: text)
      = (readNumber? (c :: text)).map fun (x, rest) => (.num x, rest) := by
  have hspace : isSpace c = false := by
    cases hc' : isSpace c with
    | false => rfl
    | true =>
        have hd : Delimited ([c] ++ []) :=
          delimited_blank_append (blank_cons.2 ⟨hc', blank_nil⟩) delimited_nil
        rw [delimited_cons.1 hd] at hc
        cases hc
  have hfirst : ∀ d t, c :: text = d :: t → isNumberChar d = true := by
    rintro d t heq
    rwa [← (List.cons.inj heq).1]
  rw [readValue?, skipSpace_cons hspace]
  split
  case h_7 => rfl
  all_goals
    rename_i heq
    exact absurd (hfirst _ _ heq) (by decide)

/-- A key is read from its spelling. -/
theorem readKey?_of_spells {k cs b : List Char} (hk : Spells k cs) (hb : Blank b)
    (rest : List Char) :
    readKey? ('"' :: (k ++ '"' :: (b ++ ':' :: rest))) = some (String.ofList cs, rest) := by
  rw [readKey?, skipSpace_cons rfl]
  simp only [readString?_spells hk, skipSpace_append hb, skipSpace_cons (c := ':') rfl]
  rfl

/-- A quote starts a string. -/
theorem readValue?_quote (fuel n : Nat) (text : List Char) :
    readValue? (fuel + 1) n ('"' :: text)
      = (readString? [] text).map fun (s, text) => (.str s, text) := by
  rw [readValue?, skipSpace_cons rfl]
  rfl

/-- A bracket starts a list, which may be empty. -/
theorem readValue?_bracket (fuel n : Nat) (text : List Char) :
    readValue? (fuel + 1) (n + 1) ('[' :: text) = match skipSpace text with
      | ']' :: text => some (.arr [], text)
      | text => readItems? fuel n [] text := by
  rw [readValue?, skipSpace_cons rfl]
  rfl

/-- A brace starts an object, which may be empty. -/
theorem readValue?_brace (fuel n : Nat) (text : List Char) :
    readValue? (fuel + 1) (n + 1) ('\x7b' :: text) = match skipSpace text with
      | '\x7d' :: text => some (.obj [], text)
      | text => readMembers? fuel n [] text := by
  rw [readValue?, skipSpace_cons rfl]
  rfl

/-- No value starts with a bracket that closes. -/
theorem readItems?_close (fuel n : Nat) (read : List Json) (text : List Char) :
    readItems? fuel n read (']' :: text) = none := by
  cases fuel with
  | zero => rfl
  | succ fuel =>
      rw [readItems?]
      cases fuel with
      | zero => rfl
      | succ fuel =>
          rw [readValue?, skipSpace_cons rfl]
          rfl

/-- No member starts with a brace that closes. -/
theorem readMembers?_close (fuel n : Nat) (read : List (String × Json)) (text : List Char) :
    readMembers? fuel n read ('\x7d' :: text) = none := by
  cases fuel with
  | zero => rfl
  | succ fuel =>
      rw [readMembers?, readKey?, skipSpace_cons rfl]
      rfl

/-- What it means that the reader reads a text of a part. -/
def Form.Read (n : Nat) (s : List Char) : Form → Prop
  | .value j => ∀ fuel rest, 2 * s.length ≤ fuel + 1 → Delimited rest →
      readValue? fuel n (s ++ rest) = some (j, rest)
  | .entry false e => ∀ fuel rest, 2 * s.length ≤ fuel + 1 → Delimited rest →
      readValue? fuel n (s ++ rest) = some (e.2, rest)
  | .entry true e => ∀ fuel rest, 2 * s.length ≤ fuel + 1 → Delimited rest →
      ∃ t, readKey? (s ++ rest) = some (e.1, t) ∧ readValue? fuel n t = some (e.2, rest)
  | .entries _ [] => Blank s
  | .entries false (e :: es) => ∀ fuel read rest, 2 * s.length ≤ fuel →
      readItems? fuel n read (s ++ ']' :: rest)
        = some (.arr (read.reverse ++ (e :: es).map Prod.snd), rest)
  | .entries true (e :: es) => ∀ fuel read rest, 2 * s.length ≤ fuel →
      readMembers? fuel n read (s ++ '\x7d' :: rest)
        = some (.obj (read.reverse ++ e :: es), rest)
  | .more _ [] => s = []
  | .more false (e :: es) => ∃ t, s = ',' :: t ∧ ∀ fuel read rest, 2 * t.length ≤ fuel →
      readItems? fuel n read (t ++ ']' :: rest)
        = some (.arr (read.reverse ++ (e :: es).map Prod.snd), rest)
  | .more true (e :: es) => ∃ t, s = ',' :: t ∧ ∀ fuel read rest, 2 * t.length ≤ fuel →
      readMembers? fuel n read (t ++ '\x7d' :: rest)
        = some (.obj (read.reverse ++ e :: es), rest)

/-- A list is read if its entries are. -/
theorem read_arr {n : Nat} {es : List (String × Json)} {s : List Char}
    (h : (Form.entries false es).Read n s) :
    (Form.value (.arr (es.map Prod.snd))).Read (n + 1) ('[' :: (s ++ [']'])) := by
  intro fuel rest hfuel _
  simp only [List.length_cons, List.length_append, List.length_nil] at hfuel
  cases fuel with
  | zero => omega
  | succ fuel =>
      rw [List.cons_append, List.append_assoc, List.singleton_append, readValue?_bracket]
      cases es with
      | nil =>
          rw [skipSpace_append h, skipSpace_cons rfl]
          rfl
      | cons e es =>
          have hitems := h fuel [] rest (by omega)
          obtain ⟨b, hb, htext⟩ := exists_blank_append_skipSpace (s ++ ']' :: rest)
          rw [htext, readItems?_blank fuel n [] hb] at hitems
          split
          · next t hclose =>
            rw [hclose, readItems?_close] at hitems
            cases hitems
          · exact hitems

/-- An object is read if its entries are. -/
theorem read_obj {n : Nat} {es : List (String × Json)} {s : List Char}
    (h : (Form.entries true es).Read n s) :
    (Form.value (.obj es)).Read (n + 1) ('\x7b' :: (s ++ ['\x7d'])) := by
  intro fuel rest hfuel _
  simp only [List.length_cons, List.length_append, List.length_nil] at hfuel
  cases fuel with
  | zero => omega
  | succ fuel =>
      rw [List.cons_append, List.append_assoc, List.singleton_append, readValue?_brace]
      cases es with
      | nil =>
          rw [skipSpace_append h, skipSpace_cons rfl]
          rfl
      | cons e es =>
          have hmembers := h fuel [] rest (by omega)
          obtain ⟨b, hb, htext⟩ := exists_blank_append_skipSpace (s ++ '\x7d' :: rest)
          rw [htext, readMembers?_blank fuel n [] hb] at hmembers
          split
          · next t hclose =>
            rw [hclose, readMembers?_close] at hmembers
            cases hmembers
          · exact hmembers

/-- Entries of a list are read if the first one and those that follow are. -/
theorem read_items {n : Nat} {e : String × Json} {es : List (String × Json)} {b s b' m : List Char}
    (hb : Blank b) (hb' : Blank b') (he : (Form.entry false e).Read n s)
    (hm : (Form.more false es).Read n m) :
    (Form.entries false (e :: es)).Read n (b ++ (s ++ (b' ++ m))) := by
  intro fuel read rest hfuel
  simp only [List.length_append] at hfuel
  cases fuel with
  | zero =>
      -- without fuel no value is read, so there is some
      exact nomatch he 0 [] (by omega) delimited_nil
  | succ fuel =>
      cases es with
      | nil =>
          cases hm
          have hread := he fuel (b' ++ ']' :: rest) (by omega)
            (delimited_blank_append hb' (delimited_cons.2 rfl))
          simp only [List.append_assoc, List.nil_append]
          rw [readItems?, readValue?_blank fuel n hb, hread]
          simp only [skipSpace_append hb', skipSpace_cons (c := ']') rfl]
          rw [List.reverse_cons]
          rfl
      | cons e' es =>
          -- behind a comma the reader goes on with what it has read so far
          obtain ⟨t, rfl, hmore⟩ := hm
          rw [List.length_cons] at hfuel
          have hread := he fuel (b' ++ ',' :: (t ++ ']' :: rest)) (by omega)
            (delimited_blank_append hb' (delimited_cons.2 rfl))
          simp only [List.append_assoc, List.cons_append]
          rw [readItems?, readValue?_blank fuel n hb, hread]
          simp only [skipSpace_append hb', skipSpace_cons (c := ',') rfl]
          rw [hmore fuel _ rest (by omega), List.reverse_cons, List.append_assoc]
          rfl

/-- Entries of an object are read if the first one and those that follow are. -/
theorem read_members {n : Nat} {e : String × Json} {es : List (String × Json)}
    {b s b' m : List Char} (hb : Blank b) (hb' : Blank b') (he : (Form.entry true e).Read n s)
    (hm : (Form.more true es).Read n m) :
    (Form.entries true (e :: es)).Read n (b ++ (s ++ (b' ++ m))) := by
  intro fuel read rest hfuel
  simp only [List.length_append] at hfuel
  cases fuel with
  | zero =>
      obtain ⟨t, -, hread⟩ := he 0 [] (by omega) delimited_nil
      cases hread
  | succ fuel =>
      cases es with
      | nil =>
          cases hm
          obtain ⟨t, hkey, hread⟩ := he fuel (b' ++ '\x7d' :: rest) (by omega)
            (delimited_blank_append hb' (delimited_cons.2 rfl))
          simp only [List.append_assoc, List.nil_append]
          rw [readMembers?, readKey?_blank hb, hkey]
          simp only [hread, skipSpace_append hb', skipSpace_cons (c := '\x7d') rfl]
          rw [List.reverse_cons]
      | cons e' es =>
          obtain ⟨t, rfl, hmore⟩ := hm
          rw [List.length_cons] at hfuel
          obtain ⟨t', hkey, hread⟩ := he fuel (b' ++ ',' :: (t ++ '\x7d' :: rest)) (by omega)
            (delimited_blank_append hb' (delimited_cons.2 rfl))
          simp only [List.append_assoc, List.cons_append]
          rw [readMembers?, readKey?_blank hb, hkey]
          simp only [hread, skipSpace_append hb', skipSpace_cons (c := ',') rfl]
          rw [hmore fuel _ rest (by omega), List.reverse_cons, List.append_assoc]
          rfl

/-- The reader reads every text. -/
theorem Text.read {n : Nat} {form : Form} {s : List Char} (h : Text n form s) : form.Read n s := by
  induction h with
  | null | yes | no =>
      -- the three words are read in one step
      intro fuel rest hfuel _
      cases fuel with
      | zero => exact absurd hfuel (by decide)
      | succ fuel =>
          rw [List.cons_append, readValue?, skipSpace_cons rfl]
          rfl
  | num h =>
      -- the end of a number is seen at what follows, so `Local` is used here
      intro fuel rest hfuel hrest
      obtain ⟨hne, hchars⟩ := isNumberChar_of_readNumber? h
      obtain ⟨s, hs, -, hlocal⟩ := readNumber?_local h
      rw [List.append_nil] at hs
      subst hs
      have hread := hlocal rest hrest
      obtain ⟨c, s, rfl⟩ := List.exists_cons_of_ne_nil hne
      rw [List.length_cons] at hfuel
      cases fuel with
      | zero => omega
      | succ fuel =>
          rw [List.cons_append] at hread ⊢
          rw [readValue?_number (hchars c List.mem_cons_self), hread]
          rfl
  | str h =>
      intro fuel rest hfuel _
      rw [List.length_cons, List.length_append, List.length_singleton] at hfuel
      cases fuel with
      | zero => omega
      | succ fuel =>
          rw [List.cons_append, List.append_assoc, List.singleton_append, readValue?_quote,
            readString?_spells h]
          rfl
  | arr _ ih => exact read_arr ih
  | obj _ ih => exact read_obj ih
  | item _ ih => exact ih
  | member hk hb hb' _ ih =>
      intro fuel rest hfuel hrest
      simp only [List.length_cons, List.length_append] at hfuel
      simp only [List.cons_append, List.append_assoc]
      refine ⟨_, readKey?_of_spells hk hb _, ?_⟩
      rw [readValue?_blank fuel _ hb']
      exact ih fuel rest (by omega) hrest
  | nil hb => exact hb
  | @cons n keyed e es b s b' m hb hb' _ _ ih ihm =>
      -- the items of an array and the members of an object have one grammar but two readers
      cases keyed with
      | false => exact read_items hb hb' ih ihm
      | true => exact read_members hb hb' ih ihm
  | last => rfl
  | @comma n keyed e es s _ ih =>
      cases keyed with
      | false => exact ⟨s, rfl, ih⟩
      | true => exact ⟨s, rfl, ih⟩

/-! ## Whole documents -/

/-- A text of a document within the bound of nesting is read as the document. -/
theorem readChars?_of_text {j : Json} {b s b' : List Char} (hb : Blank b)
    (h : Text maxNesting (.value j) s) (hb' : Blank b') :
    readChars? (b ++ (s ++ b')) = some j := by
  have hread := h.read (2 * (b ++ (s ++ b')).length + 2) b'
    (by simp only [List.length_append]; omega)
    (by simpa using delimited_blank_append hb' delimited_nil)
  rw [readChars?, readValue?_blank _ _ hb, hread]
  simp only [skipSpace_blank hb']
  rfl

/-- A document is read from a text of it with blanks around, and from nothing else. -/
theorem readChars?_eq_some_iff {j : Json} {text : List Char} :
    readChars? text = some j ↔ ∃ b s b', text = b ++ (s ++ b') ∧ Blank b
      ∧ Text maxNesting (.value j) s ∧ Blank b' := by
  constructor
  · intro h
    rw [readChars?] at h
    split at h
    · next j' rest hread =>
      obtain ⟨b, s, htext, hb, hs⟩ := valueRead _ hread
      obtain ⟨b', hb', hrest⟩ := exists_blank_append_skipSpace rest
      split at h
      · next hempty =>
        cases h
        rw [List.isEmpty_iff.1 hempty, List.append_nil] at hrest
        exact ⟨b, s, b', by rw [htext, ← hrest], hb, hs, hb'⟩
      · cases h
    · cases h
  · rintro ⟨b, s, b', rfl, hb, hs, hb'⟩
    exact readChars?_of_text hb hs hb'

end CodeAtlas.Json
