import CodeAtlas.Json.Printer
import CodeAtlas.Proofs.Json.Grammar

/-!
# Reading what was written

What is written of a document is a text of it, if its numbers are integers of 64 bits. So it is read
back, unless it is nested too deep for the reader, and no two documents are written alike.
-/

namespace CodeAtlas.Json

/-! ## Integers -/

/-- More digits make no smaller number. -/
theorem le_ofDigitChars (s : List Char) (sum : Nat) : sum ≤ Nat.ofDigitChars 10 s sum := by
  induction s generalizing sum with
  | nil => exact Nat.le_refl _
  | cons c s ih =>
      rw [Nat.ofDigitChars_cons]
      have hle := ih (10 * sum + (c.toNat - '0'.toNat))
      omega

/-- Digits are added as long as their number fits. -/
theorem addDigits_of_digits {s : List Char} (hs : ∀ c ∈ s, c.isDigit = true) {sum : Nat}
    (h : Nat.ofDigitChars 10 s sum < Nat.pow 2 64) (count : Nat) :
    addDigits sum count s = (Nat.ofDigitChars 10 s sum, count + s.length, []) := by
  induction s generalizing sum count with
  | nil => rfl
  | cons c s ih =>
      obtain ⟨hc, hs⟩ := List.forall_mem_cons.1 hs
      rw [Nat.ofDigitChars_cons] at h ⊢
      have hfits : 10 * sum + digitValue c < Nat.pow 2 64 :=
        Nat.lt_of_le_of_lt (le_ofDigitChars s _) h
      rw [addDigits, if_pos (by simp [hc, hfits])]
      have hrest := ih hs h (count + 1)
      rw [List.length_cons, Nat.add_comm s.length 1, ← Nat.add_assoc]
      exact hrest

/-- The digits of a number that is not zero do not start with zero. -/
theorem natChars_cons {n : Nat} (hn : 0 < n) : ∃ c s, natChars n = c :: s ∧ c ≠ '0' := by
  induction n using Nat.strongRecOn with
  | ind n ih =>
      rw [natChars]
      by_cases h : 10 ≤ n
      · obtain ⟨c, s, hs, hc⟩ := ih (n / 10) (by omega) (by omega)
        rw [natChars] at hs
        rw [Nat.toDigits_of_base_le (by decide) h, hs]
        exact ⟨c, _, rfl, hc⟩
      · rw [Nat.toDigits_of_lt_base (by omega)]
        have hall : ∀ n < 10, 0 < n → n.digitChar ≠ '0' := by decide
        exact ⟨_, _, rfl, hall n (by omega) hn⟩

/-- The digits of a number are digits. -/
theorem isDigit_of_mem_natChars {n : Nat} {c : Char} (hc : c ∈ natChars n) : c.isDigit = true :=
  Nat.isDigit_of_mem_toDigits (by decide) (by decide) hc

/-- A natural number is read back from its digits. -/
theorem readUnsigned?_natChars {n : Nat} (hn : n < Nat.pow 2 64) (negative : Bool) :
    readUnsigned? negative (natChars n) = (intNumber? negative n).map (·, []) := by
  rcases Nat.eq_zero_or_pos n with rfl | hpos
  · rfl
  · obtain ⟨c, s, hs, hc⟩ := natChars_cons hpos
    have hvalue : Nat.ofDigitChars 10 (natChars n) 0 = n := Nat.ofDigitChars_ten_toDigits
    have hdigits : ∀ c ∈ natChars n, c.isDigit = true := fun c => isDigit_of_mem_natChars
    have hadd := addDigits_of_digits hdigits (hvalue.symm ▸ hn) 0
    rw [hvalue] at hadd
    rw [hs] at hadd hdigits ⊢
    rw [readUnsigned?_digits (hdigits c List.mem_cons_self) hc hadd rfl]
    rfl

/-- The integers that a document may hold. -/
def Fits (n : Int) : Prop := -(Nat.pow 2 63 : Int) ≤ n ∧ n < (Nat.pow 2 64 : Int)

/-- An integer that fits is read back from its digits. -/
theorem readNumber?_intChars {n : Int} (h : Fits n) :
    readNumber? (intChars n) = some (.int n, []) := by
  obtain ⟨hlow, hhigh⟩ := h
  have hpow : Nat.pow 2 64 = 18446744073709551616 := rfl
  have hpow' : Nat.pow 2 63 = 9223372036854775808 := rfl
  rw [intChars]
  split
  · next hneg =>
    have hsize : ¬ (n.natAbs = 0 ∨ Nat.pow 2 63 < n.natAbs) := by omega
    have hback : -(n.natAbs : Int) = n := by omega
    have hint : intNumber? true n.natAbs = some (.int n) := by
      rw [intNumber?, if_neg (by decide), if_neg (by simpa using hsize), hback]
    rw [readNumber?, readUnsigned?_natChars (by omega), hint]
    rfl
  · next hneg =>
    have hback : (n.natAbs : Int) = n := by omega
    have hplain : ∀ c, (natChars n.natAbs).head? = some c → c ≠ '-' := by
      rintro c hc rfl
      exact absurd (isDigit_of_mem_natChars (List.mem_of_head? hc)) (by decide)
    rw [readNumber?_plain hplain, readUnsigned?_natChars (by omega), intNumber?, if_pos (by decide),
      hback]
    rfl

/-! ## Strings -/

/-- An escaped character spells the character. -/
theorem spells_escapeChar {s cs : List Char} (h : Spells s cs) (c : Char) :
    Spells (escapeChar c ++ s) (c :: cs) := by
  unfold escapeChar
  split
  case h_8 hquote hslash _ _ _ _ _ =>
    split
    · next hcontrol =>
      have hhex : ∀ n < 32, hex4? '0' '0' (hexDigit (n / 16)) (hexDigit (n % 16)) = some n := by
        decide
      have hescape := HexEscape.one (hhex c.toNat hcontrol) (by omega) (by omega)
      rw [Char.ofNat_toNat] at hescape
      exact .hex hescape h
    · next hcontrol => exact .plain hquote hslash (by omega) h
  all_goals exact .letter rfl h

/-- The escaped characters of a string spell them. -/
theorem spells_flatMap_escapeChar (cs : List Char) : Spells (cs.flatMap escapeChar) cs := by
  induction cs with
  | nil => exact .nil
  | cons c cs ih =>
      rw [List.flatMap_cons]
      exact spells_escapeChar ih c

/-- A string in quotes is its own text. -/
theorem text_quoted {n : Nat} (s : String) : Text n (.value (.str s)) (quoted s) := by
  have htext := Text.str (n := n) (spells_flatMap_escapeChar s.toList)
  rw [String.ofList_toList] at htext
  exact htext

/-! ## Documents -/

/-- Documents whose numbers are integers of 64 bits. -/
inductive Plain : Json → Prop
  | null : Plain .null
  | bool (b : Bool) : Plain (.bool b)
  | int {n : Int} (h : Fits n) : Plain (.num (.int n))
  | str (s : String) : Plain (.str s)
  | arr {items : List Json} (h : ∀ j ∈ items, Plain j) : Plain (.arr items)
  | obj {members : List (String × Json)} (h : ∀ m ∈ members, Plain m.2) : Plain (.obj members)

mutual

/-- How deep the brackets of a document are nested. -/
def nesting : Json → Nat
  | .arr items => nestingItems items + 1
  | .obj members => nestingMembers members + 1
  | _ => 0

/-- How deep the brackets of documents are nested. -/
def nestingItems : List Json → Nat
  | [] => 0
  | item :: items => max item.nesting (nestingItems items)

/-- How deep the brackets of the values of members are nested. -/
def nestingMembers : List (String × Json) → Nat
  | [] => 0
  | (_, value) :: members => max value.nesting (nestingMembers members)

end

/-- An item is nested no deeper than the items. -/
theorem nesting_le_items {items : List Json} {j : Json} (h : j ∈ items) :
    j.nesting ≤ nestingItems items := by
  induction items with
  | nil => cases h
  | cons item items ih =>
      rw [nestingItems]
      rcases List.mem_cons.1 h with rfl | h
      · exact Nat.le_max_left _ _
      · exact Nat.le_trans (ih h) (Nat.le_max_right _ _)

/-- A member is nested no deeper than the members. -/
theorem nesting_le_members {members : List (String × Json)} {m : String × Json} (h : m ∈ members) :
    m.2.nesting ≤ nestingMembers members := by
  induction members with
  | nil => cases h
  | cons m' members ih =>
      rw [nestingMembers]
      rcases List.mem_cons.1 h with rfl | h
      · exact Nat.le_max_left _ _
      · exact Nat.le_trans (ih h) (Nat.le_max_right _ _)

/-- Items are nested no deeper than a bound for each of them. -/
theorem nestingItems_le {items : List Json} {n : Nat} (h : ∀ j ∈ items, j.nesting ≤ n) :
    nestingItems items ≤ n := by
  induction items with
  | nil => exact Nat.zero_le n
  | cons item items ih =>
      obtain ⟨hitem, hitems⟩ := List.forall_mem_cons.1 h
      exact Nat.max_le.2 ⟨hitem, ih hitems⟩

/-- Members are nested no deeper than a bound for each of them. -/
theorem nestingMembers_le {members : List (String × Json)} {n : Nat}
    (h : ∀ m ∈ members, m.2.nesting ≤ n) : nestingMembers members ≤ n := by
  induction members with
  | nil => exact Nat.zero_le n
  | cons m members ih =>
      obtain ⟨hm, hmembers⟩ := List.forall_mem_cons.1 h
      exact Nat.max_le.2 ⟨hm, ih hmembers⟩

/-- A new line with its indentation is blank. -/
theorem blank_newLine (depth : Nat) : Blank (newLine depth) := by
  refine blank_cons.2 ⟨rfl, ?_⟩
  intro c hc
  rw [List.eq_of_mem_replicate hc]
  rfl

/-! ## Entries -/

/-- Parts with commas between them, and a gap behind every comma. -/
def separated (gap : List Char) : List (List Char) → List Char
  | [] => []
  | [part] => part
  | part :: parts => part ++ ',' :: (gap ++ separated gap parts)

/-- Separated parts are the first one, a comma with the gap, and the others. -/
theorem separated_cons (gap part part' : List Char) (parts : List (List Char)) :
    separated gap (part :: part' :: parts)
      = part ++ ',' :: (gap ++ separated gap (part' :: parts)) :=
  rfl

/-- Texts of entries with commas and blanks between them are a text of all entries. -/
theorem text_separated {α : Type} {n : Nat} {keyed : Bool} {b gap b' : List Char} (hb : Blank b)
    (hgap : Blank gap) (hb' : Blank b') (entry : α → String × Json) (text : α → List Char)
    {l : List α} (hne : l ≠ []) (h : ∀ a ∈ l, Text n (.entry keyed (entry a)) (text a)) :
    Text n (.entries keyed (l.map entry)) (b ++ (separated gap (l.map text) ++ b')) := by
  induction l generalizing b with
  | nil => exact absurd rfl hne
  | cons a rest ih =>
      obtain ⟨ha, hrest⟩ := List.forall_mem_cons.1 h
      cases rest with
      | nil =>
          have htext := Text.cons hb hb' ha .last
          rw [List.append_nil] at htext
          exact htext
      | cons a' rest =>
          have hmore := ih hgap (List.cons_ne_nil a' rest) hrest
          have htext := Text.cons hb blank_nil ha (.comma hmore)
          simpa [separated] using htext

variable {n : Nat} {b gap b' : List Char}

/-- Items with commas and gaps between them are the text of a list. -/
theorem text_items (hb : Blank b) (hgap : Blank gap) (hb' : Blank b') {write : Json → List Char}
    {items : List Json} (hne : items ≠ []) (h : ∀ j ∈ items, Text n (.value j) (write j)) :
    Text (n + 1) (.value (.arr items))
      ('[' :: ((b ++ (separated gap (items.map write) ++ b')) ++ [']'])) := by
  have htext := Text.arr (text_separated hb hgap hb' (fun j => ("", j)) write hne
    fun j hj => .item (h j hj))
  simpa [Function.comp_def] using htext

/-- Members with commas and gaps between them are the text of an object. -/
theorem text_members (hb : Blank b) (hgap : Blank gap) (hb' : Blank b') {colon : List Char}
    (hcolon : Blank colon) {write : Json → List Char} {members : List (String × Json)}
    (hne : members ≠ []) (h : ∀ m ∈ members, Text n (.value m.2) (write m.2)) :
    Text (n + 1) (.value (.obj members))
      ('\x7b' :: ((b ++ (separated gap (members.map fun m =>
        quoted m.1 ++ ':' :: (colon ++ write m.2)) ++ b')) ++ ['\x7d'])) := by
  have htext := text_separated hb hgap hb' id (fun m : String × Json =>
      quoted m.1 ++ ':' :: (colon ++ write m.2)) hne fun m hm => by
    have hmember := Text.member (spells_flatMap_escapeChar m.1.toList) blank_nil hcolon (h m hm)
    rw [String.ofList_toList] at hmember
    simpa [quoted] using hmember
  rw [List.map_id] at htext
  exact .obj htext

/-! ## Over several lines -/

/-- Items on lines of their own are separated by these. -/
theorem writePrettyItems_eq (depth : Nat) (items : List Json) :
    writePrettyItems depth items = separated (newLine depth) (items.map (writePretty depth)) := by
  induction items with
  | nil => rfl
  | cons item items ih =>
      cases items with
      | nil => rfl
      | cons item' items => simp [writePrettyItems, ih, separated]

/-- Members on lines of their own are separated by these. -/
theorem writePrettyMembers_eq (depth : Nat) (members : List (String × Json)) :
    writePrettyMembers depth members = separated (newLine depth)
      (members.map fun m => quoted m.1 ++ ':' :: ([' '] ++ writePretty depth m.2)) := by
  induction members with
  | nil => rfl
  | cons m members ih =>
      cases members with
      | nil => rfl
      | cons m' members => simp [writePrettyMembers, ih, separated]

/-- What is written of a document is a text of it. -/
theorem text_writePretty {j : Json} (h : Plain j) (depth : Nat) :
    Text j.nesting (.value j) (writePretty depth j) := by
  have hspace : Blank [' '] := blank_cons.2 ⟨rfl, blank_nil⟩
  induction h generalizing depth with
  | null => exact .null
  | bool b =>
      cases b with
      | false => exact .no
      | true => exact .yes
  | int h => exact .num (readNumber?_intChars h)
  | str s => exact text_quoted s
  | @arr items _ ih =>
      cases items with
      | nil => exact .arr (.nil blank_nil)
      | cons item items =>
          have htext := text_items (blank_newLine (depth + 1)) (blank_newLine (depth + 1))
            (blank_newLine depth) (List.cons_ne_nil item items)
            fun j hj => (ih j hj (depth + 1)).mono (nesting_le_items hj)
          simpa [writePretty, nesting, writePrettyItems_eq] using htext
  | @obj members _ ih =>
      cases members with
      | nil => exact .obj (.nil blank_nil)
      | cons m members =>
          have htext := text_members (blank_newLine (depth + 1)) (blank_newLine (depth + 1))
            (blank_newLine depth) hspace (List.cons_ne_nil m members)
            fun m hm => (ih m hm (depth + 1)).mono (nesting_le_members hm)
          simpa [writePretty, nesting, writePrettyMembers_eq] using htext

/-- What is written of a document is read back, if it is not nested too deep. -/
theorem readChars?_writePretty {j : Json} (h : Plain j) (hdepth : j.nesting ≤ maxNesting) :
    readChars? (writePretty 0 j) = some j := by
  have hread := readChars?_of_text blank_nil ((text_writePretty h 0).mono hdepth) blank_nil
  rw [List.nil_append, List.append_nil] at hread
  exact hread

/-! ## On one line -/

/-- Items in one line are separated by nothing. -/
theorem writeItems_eq (items : List Json) :
    writeItems items = separated [] (items.map write) := by
  induction items with
  | nil => rfl
  | cons item items ih =>
      cases items with
      | nil => rfl
      | cons item' items => simp [writeItems, ih, separated]

/-- Members in one line are separated by nothing. -/
theorem writeMembers_eq (members : List (String × Json)) :
    writeMembers members = separated []
      (members.map fun m => quoted m.1 ++ ':' :: ([] ++ write m.2)) := by
  induction members with
  | nil => rfl
  | cons m members ih =>
      cases members with
      | nil => rfl
      | cons m' members => simp [writeMembers, ih, separated]

/-- What is written of a document on one line is a text of it. -/
theorem text_write {j : Json} (h : Plain j) : Text j.nesting (.value j) (write j) := by
  induction h with
  | null => exact .null
  | bool b =>
      cases b with
      | false => exact .no
      | true => exact .yes
  | int h => exact .num (readNumber?_intChars h)
  | str s => exact text_quoted s
  | @arr items _ ih =>
      cases items with
      | nil => exact .arr (.nil blank_nil)
      | cons item items =>
          have htext := text_items blank_nil blank_nil blank_nil (List.cons_ne_nil item items)
            fun j hj => (ih j hj).mono (nesting_le_items hj)
          simpa [write, nesting, writeItems_eq] using htext
  | @obj members _ ih =>
      cases members with
      | nil => exact .obj (.nil blank_nil)
      | cons m members =>
          have htext := text_members blank_nil blank_nil blank_nil blank_nil
            (List.cons_ne_nil m members) fun m hm => (ih m hm).mono (nesting_le_members hm)
          simpa [write, nesting, writeMembers_eq] using htext

/-- A text is that of one document. -/
theorem Text.value_unique {n m : Nat} {j k : Json} {s : List Char} (hj : Text n (.value j) s)
    (hk : Text m (.value k) s) : j = k := by
  have hread := (hj.mono (Nat.le_max_left n m)).read (2 * s.length) [] (Nat.le_succ _) nofun
  have hread' := (hk.mono (Nat.le_max_right n m)).read (2 * s.length) [] (Nat.le_succ _) nofun
  exact congrArg Prod.fst (Option.some.inj (hread.symm.trans hread'))

/-- Documents that are written alike on one line are the same, however deep they are nested. -/
theorem write_injective {j k : Json} (hj : Plain j) (hk : Plain k) (h : write j = write k) :
    j = k :=
  (text_write hj).value_unique (h ▸ text_write hk)

end CodeAtlas.Json
