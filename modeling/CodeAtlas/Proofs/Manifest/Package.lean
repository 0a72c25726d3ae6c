import CodeAtlas.Manifest.Package
import CodeAtlas.Proofs.Json.Fields
import CodeAtlas.Proofs.Json.Grammar
import CodeAtlas.Proofs.Text.Splitting
import Mathlib.Data.List.Perm.Basic

/-!
# Dependencies of package files in JSON

A package file is read twice: the names and versions of its dependencies come from the document,
their lines from a search of the text for the name in quotes. The places of members are told by the
grammar of documents (`MemberAt`, `Placed`), and what the search answers by the lines of the text
(`Told`). The names and versions are always those of the members of the sections; the line of one is
right just if the search tells it, and other members, sections or strings with the name in quotes
can lead it astray.
-/

namespace CodeAtlas.Json

/-! ## Places of members -/

/-- The text of a member up to its value. -/
inductive Lead : String → List Char → Prop
  | mk {k cs b b' : List Char} (hk : Spells k cs) (hb : Blank b) (hb' : Blank b') :
    Lead (String.ofList cs) ('"' :: (k ++ '"' :: (b ++ ':' :: b')))

/-- In the text of some members one with a key and a value stands behind `front`, with its own text
up to the value and the text of the value. -/
inductive MemberAt (n : Nat) (key : String) (j : Json) (lead value : List Char) :
    List (String × Json) → List Char → List Char → Prop
  | here {es : List (String × Json)} {b b' m : List Char} (hlead : Lead key lead)
    (hvalue : Text n (.value j) value)
    (hb : Blank b) (hb' : Blank b') (hm : Text n (.more true es) m) :
    MemberAt n key j lead value ((key, j) :: es) b (b ++ (lead ++ value ++ (b' ++ m)))
  | later {e : String × Json} {es : List (String × Json)} {b s b' front t : List Char}
    (hb : Blank b) (hb' : Blank b')
    (he : Text n (.entry true e) s) (h : MemberAt n key j lead value es front t) :
    MemberAt n key j lead value (e :: es) (b ++ (s ++ (b' ++ ',' :: front)))
      (b ++ (s ++ (b' ++ ',' :: t)))

variable {n : Nat} {key : String} {j : Json} {lead value front s : List Char}
  {es : List (String × Json)}

/-- A key and a value behind it are the text of a member. -/
theorem text_member (hlead : Lead key lead) (hvalue : Text n (.value j) value) :
    Text n (.entry true (key, j)) (lead ++ value) := by
  cases hlead with
  | mk hk hb hb' =>
      have htext := Text.member hk hb hb' hvalue
      simpa using htext

/-- The text of a member starts with its key. -/
theorem exists_lead {e : String × Json} (h : Text n (.entry true e) s) :
    ∃ lead value, s = lead ++ value ∧ Lead e.1 lead ∧ Text n (.value e.2) value := by
  cases h with
  | member hk hb hb' hvalue => exact ⟨_, _, by simp, .mk hk hb hb', hvalue⟩

namespace MemberAt

/-- An object with a member at a place is a text. -/
theorem text (h : MemberAt n key j lead value es front s) : Text n (.entries true es) s := by
  induction h with
  | here hlead hvalue hb hb' hm => exact .cons hb hb' (text_member hlead hvalue) hm
  | later hb hb' he h ih =>
      cases h with
      | here => exact .cons hb hb' he (.comma ih)
      | later => exact .cons hb hb' he (.comma ih)

/-- A member at a place is one of the object. -/
theorem mem (h : MemberAt n key j lead value es front s) : (key, j) ∈ es := by
  induction h with
  | here => exact List.mem_cons_self
  | later _ _ _ _ ih => exact List.mem_cons_of_mem _ ih

/-- An object is what stands in front of a member, the key, the value, and the rest. -/
theorem exists_split (h : MemberAt n key j lead value es front s) :
    ∃ back, s = front ++ (lead ++ (value ++ back)) := by
  induction h with
  | @here _ _ b' m => exact ⟨b' ++ m, by simp⟩
  | later _ _ _ _ ih =>
      obtain ⟨back, rfl⟩ := ih
      exact ⟨back, by simp⟩

/-- A member at a place has its key and the text of its value. -/
theorem lead_value (h : MemberAt n key j lead value es front s) :
    Lead key lead ∧ Text n (.value j) value := by
  induction h with
  | here hlead hvalue => exact ⟨hlead, hvalue⟩
  | later _ _ _ _ ih => exact ih

end MemberAt

/-- Each of some members stands somewhere in their text. -/
theorem exists_memberAt (h : Text n (.entries true es) s) (hmem : (key, j) ∈ es) :
    ∃ lead value front, MemberAt n key j lead value es front s := by
  induction es generalizing s with
  | nil => cases hmem
  | cons e es ih =>
      cases h with
      | cons hb hb' he hm =>
          rcases List.mem_cons.1 hmem with rfl | hmem
          · obtain ⟨lead, value, rfl, hlead, hvalue⟩ := exists_lead he
            exact ⟨lead, value, _, .here hlead hvalue hb hb' hm⟩
          · cases hm with
            | last => cases hmem
            | comma hrest =>
                obtain ⟨lead, value, front, hat⟩ := ih hrest hmem
                exact ⟨lead, value, _, .later hb hb' he hat⟩

/-- In a document the member under a name in the object under a title stands behind `front`. -/
inductive Placed (title name : String) (j : Json) : List Char → List Char → Prop
  | mk {n : Nat} {entries members : List (String × Json)}
    {b b' inner lead front body lead' value front' : List Char}
    (hn : n + 2 ≤ maxNesting) (hb : Blank b) (hb' : Blank b')
    (houter : MemberAt (n + 1) title (.obj members) lead ('\x7b' :: (body ++ ['\x7d'])) entries
      front inner)
    (hinner : MemberAt n name j lead' value members front' body) :
    Placed title name j (b ++ '\x7b' :: (front ++ (lead ++ '\x7b' :: front')))
      (b ++ ('\x7b' :: (inner ++ ['\x7d']) ++ b'))

/-- What stands in a document is read from it. -/
theorem Placed.exists_members {title : String} {text : List Char}
    (h : Placed title key j front text) :
    ∃ entries members, readChars? text = some (.obj entries)
      ∧ (title, .obj members) ∈ entries ∧ (key, j) ∈ members := by
  cases h with
  | mk hn hb hb' houter hinner =>
      exact ⟨_, _, readChars?_of_text hb (Text.mono hn (.obj houter.text)) hb',
        houter.mem, hinner.mem⟩

/-- The text of the member stands behind the front. -/
theorem Placed.exists_back {title : String} {text : List Char} (h : Placed title key j front text) :
    ∃ lead back, Lead key lead ∧ text = front ++ (lead ++ back) := by
  cases h with
  | @mk _ _ _ _ b' _ _ _ _ _ value _ hn hb hb' houter hinner =>
      obtain ⟨back, rfl⟩ := houter.exists_split
      obtain ⟨back', rfl⟩ := hinner.exists_split
      exact ⟨_, value ++ (back' ++ '\x7d' :: (back ++ '\x7d' :: b')), hinner.lead_value.1, by simp⟩

/-- Each member of an object in a document stands somewhere. -/
theorem exists_placed {text : List Char} {entries members : List (String × Json)} {title : String}
    (hread : readChars? text = some (.obj entries)) (hentry : (title, .obj members) ∈ entries)
    (hmember : (key, j) ∈ members) : ∃ front, Placed title key j front text := by
  obtain ⟨b, s, b', rfl, hb, hs, hb'⟩ := readChars?_eq_some_iff.1 hread
  generalize hnest : maxNesting = nest at hs
  cases hs with
  | obj hentries =>
      obtain ⟨lead, value, front, houter⟩ := exists_memberAt hentries hentry
      cases houter.lead_value.2 with
      | obj hmembers =>
          obtain ⟨lead', value', front', hinner⟩ := exists_memberAt hmembers hmember
          exact ⟨_, .mk (Nat.le_of_eq hnest.symm) hb hb' houter hinner⟩

/-! ## Keys without escapes -/

/-- The spelling of a string has no newline. -/
theorem newline_not_mem_of_spells {k cs : List Char} (h : Spells k cs) : '\n' ∉ k := by
  induction h with
  | nil => exact List.not_mem_nil
  | plain _ _ hcontrol _ ih =>
      refine List.not_mem_cons_of_ne_of_not_mem ?_ ih
      rintro rfl
      exact absurd hcontrol (by decide)
  | letter hescape _ ih =>
      refine List.not_mem_cons_of_ne_of_not_mem (by decide)
        (List.not_mem_cons_of_ne_of_not_mem ?_ ih)
      rintro rfl
      cases hescape
  | hex hu _ ih =>
      refine fun hmem => (List.mem_append.1 hmem).elim (fun hmem => ?_) ih
      rcases hu.chars '\n' hmem with h | h | h
      · cases h
      · cases h
      · exact absurd h (by decide)

/-- A spelling is no shorter than its string. -/
theorem length_le_of_spells {k cs : List Char} (h : Spells k cs) : cs.length ≤ k.length := by
  induction h with
  | nil => exact Nat.le_refl 0
  | plain _ _ _ _ ih => exact Nat.succ_le_succ ih
  | letter _ _ ih =>
      simp only [List.length_cons]
      omega
  | hex hu _ ih =>
      cases hu <;> simp only [List.length_append, List.length_cons, List.length_nil] <;> omega

/-- A key that stands as it is has no newline. -/
theorem newline_not_mem_of_lead {lead back back' : List Char} (h : Lead key lead)
    (hplain : lead ++ back = '"' :: (key.toList ++ '"' :: back')) : '\n' ∉ key.toList := by
  cases h with
  | @mk k cs b b' hk hb hb' =>
      rw [String.toList_ofList] at hplain ⊢
      have hlength := length_le_of_spells hk
      have htext : k ++ '"' :: (b ++ ':' :: (b' ++ back)) = cs ++ '"' :: back' := by
        simpa using hplain
      -- a spelling is no shorter than the key, so the key as it stands is a part of it
      have hstart : cs <+: k :=
        List.prefix_of_prefix_length_le ⟨_, htext.symm⟩ (List.prefix_append k _) hlength
      exact fun hmem => newline_not_mem_of_spells hk (hstart.subset hmem)

/-! ## Documents without repeated keys -/

/-- No object in the document repeats a key. -/
inductive Distinct : Json → Prop
  | null : Distinct .null
  | bool (b : Bool) : Distinct (.bool b)
  | num (x : Json.Number) : Distinct (.num x)
  | str (s : String) : Distinct (.str s)
  | arr {items : List Json} (h : ∀ j ∈ items, Distinct j) : Distinct (.arr items)
  | obj {members : List (String × Json)} (hkeys : (members.map Prod.fst).Nodup) (h : ∀ m ∈ members,
    Distinct m.2) :
    Distinct (.obj members)

/-- The members of the object under a key of a document, none if there is no object. -/
def membersOf (doc : Json) (title : String) : List (String × Json) :=
  ((doc.get? title) >>= obj?).getD []

/-- What is found in a list of pairs is one of them. -/
theorem mem_of_lookup {l : List (String × Json)} {k : String} {j : Json} (h : l.lookup k = some j) :
    (k, j) ∈ l := by
  obtain ⟨a, b, rfl, -⟩ := List.lookup_eq_some_iff.1 h
  exact List.mem_append_right a List.mem_cons_self

/-- The members under a key are those of an object that the document has under it. -/
theorem exists_of_mem_membersOf {doc : Json} {title : String} {m : String × Json}
    (h : m ∈ membersOf doc title) :
    ∃ entries members, doc = .obj entries ∧ (title, .obj members) ∈ entries ∧ m ∈ members := by
  rw [membersOf] at h
  cases hfound : (doc.get? title) >>= obj? with
  | none =>
      rw [hfound] at h
      cases h
  | some members =>
      rw [hfound] at h
      obtain ⟨value, hvalue, hobj⟩ := Option.bind_eq_some_iff.1 hfound
      cases doc with
      | obj entries =>
          cases value with
          | obj members' =>
              obtain rfl := Option.some.inj hobj
              exact ⟨entries, members', rfl, mem_of_lookup hvalue, h⟩
          | _ => cases hobj
      | _ => cases hvalue

/-- What a document without repeated keys has under a key. -/
theorem membersOf_of_mem {entries members : List (String × Json)}
    (hkeys : (entries.map Prod.fst).Nodup) {title : String} (h : (title, .obj members) ∈ entries) :
    membersOf (.obj entries) title = members := by
  rw [membersOf, get?, lookup_of_mem hkeys h]
  rfl

/-- Sorting leaves strings. -/
theorem str?_sorted (j : Json) : j.sorted.str? = j.str? := by
  cases j <;> rfl

/-- What is found in a sorted object is sorted. -/
theorem lookup_sortedMembers (l : List (String × Json)) (k : String) :
    (sortedMembers l).lookup k = (l.lookup k).map sorted := by
  induction l with
  | nil => rfl
  | cons m l ih =>
      obtain ⟨k', j⟩ := m
      rw [sortedMembers, lookup_cons_eq, lookup_cons_eq, ih]
      split <;> rfl

/-- Sorting a document without repeated keys leaves all members of an object in it. -/
theorem membersOf_sorted {doc : Json} (h : Distinct doc) (title : String) :
    (membersOf doc.sorted title).Perm ((membersOf doc title).map fun m => (m.1, m.2.sorted)) := by
  cases h with
  | @obj entries hkeys hvalues =>
      have hget : (Json.obj entries).sorted.get? title = (entries.lookup title).map sorted := by
        rw [sorted, ofMembers, get?, lookup_sortMembers (by rwa [keys_sortedMembers]),
          lookup_sortedMembers]
      rw [membersOf, membersOf, hget, get?]
      cases hfound : entries.lookup title with
      | none => exact List.Perm.refl _
      | some value =>
          have hvalue : Distinct value := hvalues _ (mem_of_lookup hfound)
          cases hvalue with
          | @obj members hkeys' _ =>
              have hnodup : ((sortedMembers members).map Prod.fst).Nodup := by
                rwa [keys_sortedMembers]
              exact (sortMembers_perm hnodup).trans (.of_eq (sortedMembers_eq_map members))
          | _ => exact List.Perm.refl _
  | _ => exact List.Perm.refl _

end CodeAtlas.Json

namespace CodeAtlas.Manifest

open Text

/-! ## Lines that are reported -/

/-- The first of some lines with a property has a number, counted from 0. -/
def IsFirst (p : List Char → Prop) (ls : List (List Char)) (n : Nat) : Prop :=
  (∃ line, ls[n]? = some line ∧ p line) ∧ ∀ m < n, ∀ line, ls[m]? = some line → ¬ p line

/-- The name in quotes. -/
def quoted (name : String) : List Char := '"' :: (name.toList ++ ['"'])

/-- The line that is reported for a word is the first one that starts with it behind white space; if
there is none, the first that holds it; if there is none either, the first of all. -/
inductive Told (word : List Char) (ls : List (List Char)) (n : Nat) : Prop
  | starting (h : IsFirst (fun line => word <+: trimStart line) ls n)
  | holding (hno : ∀ line ∈ ls, ¬ word <+: trimStart line)
    (h : IsFirst (fun line => word <:+: line) ls n)
  | nowhere (hno : ∀ line ∈ ls, ¬ word <:+: line) (h : n = 0)

/-- The search for the first line with a property finds it. -/
theorem findIdx?_eq_some_iff {p : List Char → Bool} {P : List Char → Prop}
    (hp : ∀ line, p line = true ↔ P line) {ls : List (List Char)} {n : Nat} :
    ls.findIdx? p = some n ↔ IsFirst P ls n := by
  rw [List.findIdx?_eq_some_iff_getElem]
  constructor
  · rintro ⟨hlt, hline, hnot⟩
    refine ⟨⟨ls[n], List.getElem?_eq_getElem hlt, (hp _).1 hline⟩, fun m hm line hget hP => ?_⟩
    obtain ⟨hlt', rfl⟩ := List.getElem?_eq_some_iff.1 hget
    exact hnot m hm ((hp _).2 hP)
  · rintro ⟨⟨line, hget, hP⟩, hnot⟩
    obtain ⟨hlt, rfl⟩ := List.getElem?_eq_some_iff.1 hget
    exact ⟨hlt, (hp _).2 hP,
      fun m hm hline => hnot m hm _ (List.getElem?_eq_getElem _) ((hp _).1 hline)⟩

/-- The search for the first line with a property finds none if there is none. -/
theorem findIdx?_eq_none_iff {p : List Char → Bool} {P : List Char → Prop}
    (hp : ∀ line, p line = true ↔ P line) {ls : List (List Char)} :
    ls.findIdx? p = none ↔ ∀ line ∈ ls, ¬ P line := by
  rw [List.findIdx?_eq_none_iff]
  exact forall₂_congr fun line _ => by rw [← hp, Bool.not_eq_true]

/-- The first line with a property is one with it. -/
theorem IsFirst.exists_mem {p : List Char → Prop} {ls : List (List Char)} {n : Nat}
    (h : IsFirst p ls n) :
    ∃ line ∈ ls, p line := by
  obtain ⟨⟨line, hget, hline⟩, -⟩ := h
  exact ⟨line, List.mem_of_getElem? hget, hline⟩

/-- There is one first line with a property. -/
theorem IsFirst.unique {p : List Char → Prop} {ls : List (List Char)} {m n : Nat}
    (hm : IsFirst p ls m) (hn : IsFirst p ls n) : m = n := by
  obtain ⟨⟨line, hget, hline⟩, hbefore⟩ := hm
  obtain ⟨⟨line', hget', hline'⟩, hbefore'⟩ := hn
  rcases Nat.lt_trichotomy m n with hlt | heq | hlt
  · exact absurd hline (hbefore' m hlt line hget)
  · exact heq
  · exact absurd hline' (hbefore n hlt line' hget')

/-- A line that starts with a word behind white space holds it. -/
theorem infix_of_starts {word line : List Char} (h : word <+: trimStart line) : word <:+: line :=
  h.isInfix.trans (List.dropWhile_suffix _).isInfix

/-- One line at most is told. -/
theorem Told.unique {word : List Char} {ls : List (List Char)} {m n : Nat} (hm : Told word ls m)
    (hn : Told word ls n) : m = n := by
  have hstarting : ∀ {k}, IsFirst (fun line => word <+: trimStart line) ls k →
      ¬ (∀ line ∈ ls, ¬ word <+: trimStart line) ∧ ¬ ∀ line ∈ ls, ¬ word <:+: line := by
    intro k h
    obtain ⟨line, hmem, hline⟩ := h.exists_mem
    exact ⟨fun hno => hno line hmem hline, fun hno => hno line hmem (infix_of_starts hline)⟩
  have hholding : ∀ {k}, IsFirst (fun line => word <:+: line) ls k →
      ¬ ∀ line ∈ ls, ¬ word <:+: line := by
    intro k h hno
    obtain ⟨line, hmem, hline⟩ := h.exists_mem
    exact hno line hmem hline
  cases hm with
  | starting h =>
      cases hn with
      | starting h' => exact h.unique h'
      | holding hno => exact absurd hno (hstarting h).1
      | nowhere hno => exact absurd hno (hstarting h).2
  | holding hno h =>
      cases hn with
      | starting h' => exact absurd hno (hstarting h').1
      | holding _ h' => exact h.unique h'
      | nowhere hno' => exact absurd hno' (hholding h)
  | nowhere hno h =>
      cases hn with
      | starting h' => exact absurd hno (hstarting h').2
      | holding _ h' => exact absurd hno (hholding h')
      | nowhere _ h' => rw [h, h']

/-- The search tells a line. -/
theorem exists_told (text : List Char) (name : String) :
    ∃ n, quotedLine text name = n + 1 ∧ Told (quoted name) (lines text) n := by
  have hstart : ∀ line, startsWith (trimStart line) (quoted name) = true
      ↔ quoted name <+: trimStart line :=
    fun _ => startsWith_iff
  have hhold : ∀ line, containsWord line (quoted name) = true ↔ quoted name <:+: line :=
    fun _ => containsWord_iff
  have hline : quotedLine text name
      = ((((lines text).findIdx? fun line => startsWith (trimStart line) (quoted name)).or
        ((lines text).findIdx? fun line => containsWord line (quoted name))).map (· + 1)).getD 1 :=
          rfl
  rw [hline]
  cases hs : (lines text).findIdx? fun line => startsWith (trimStart line) (quoted name) with
  | some i => exact ⟨i, rfl, .starting ((findIdx?_eq_some_iff hstart).1 hs)⟩
  | none =>
      have hno := (findIdx?_eq_none_iff hstart).1 hs
      cases hh : (lines text).findIdx? fun line => containsWord line (quoted name) with
      | some i => exact ⟨i, rfl, .holding hno ((findIdx?_eq_some_iff hhold).1 hh)⟩
      | none => exact ⟨0, rfl, .nowhere ((findIdx?_eq_none_iff hhold).1 hh) rfl⟩

/-- The line that is reported for a name is the one that is told. -/
theorem quotedLine_eq_iff {text : List Char} {name : String} {n : Nat} :
    quotedLine text name = n + 1 ↔ Told (quoted name) (lines text) n := by
  obtain ⟨m, hline, htold⟩ := exists_told text name
  rw [hline]
  constructor
  · intro h
    exact Nat.succ.inj h ▸ htold
  · intro h
    rw [htold.unique h]

/-- Without white space in front of its lines a text is searched for a line that starts with the
word. -/
theorem told_of_printed {word : List Char} {ls : List (List Char)} {n : Nat}
    (hprinted : ls.all (fun line => line.head?.any isPrinted) = true)
    (h : ls.findIdx? (fun line => startsWith line word) = some n) : Told word ls n := by
  have htrim : ∀ line ∈ ls, trimStart line = line := by
    intro line hline
    cases line with
    | nil => exact absurd (List.all_eq_true.1 hprinted _ hline) (by decide)
    | cons c line =>
        exact trimStart_cons (isBlank_of_isPrinted (List.all_eq_true.1 hprinted _ hline)) line
  obtain ⟨⟨line, hget, hword⟩, hbefore⟩ := (findIdx?_eq_some_iff fun _ => startsWith_iff).1 h
  refine .starting ⟨⟨line, hget, ?_⟩, fun m hm line' hget' => ?_⟩
  · have hstart := htrim line (List.mem_of_getElem? hget)
    simpa only [hstart] using hword
  · have hstart := htrim line' (List.mem_of_getElem? hget')
    simpa only [hstart] using hbefore m hm line' hget'

/-- A word that stands in a text at one place only is told to be on the line of that place. -/
theorem told_of_alone {text word front back : List Char} (hword : '\n' ∉ word) (hne : word ≠ [])
    (hlast : word.getLast? ≠ some '\r') (htext : text = front ++ (word ++ back))
    (halone : ∀ a b, text = a ++ (word ++ b) → a = front) :
    Told word (lines text) (front.count '\n') := by
  obtain ⟨line, hget, hin⟩ := exists_line_of_place hword hne hlast front back
  rw [← htext] at hget
  -- the word in a line is the word at a place of the text, and there is one place only
  have honly : ∀ m line, (lines text)[m]? = some line → word <:+: line → m = front.count '\n' := by
    rintro m line hget ⟨x, y, rfl⟩
    have hx : '\n' ∉ x := fun hmem =>
      newline_not_mem_of_mem_lines (List.mem_of_getElem? hget)
        (List.mem_append_left _ (List.mem_append_left _ hmem))
    obtain ⟨a, b, hplace, rfl⟩ := exists_place_of_line hget
    rw [← halone (a ++ x) (y ++ b) (by rw [hplace]; simp), List.count_append,
      List.count_eq_zero.2 hx, Nat.add_zero]
  have hfirst : ∀ {p : List Char → Prop}, p line → (∀ line, p line → word <:+: line) →
      IsFirst p (lines text) (front.count '\n') := fun hp himp =>
    ⟨⟨line, hget, hp⟩, fun m hm line' hget' hp' =>
      Nat.ne_of_lt hm (honly m line' hget' (himp line' hp'))⟩
  by_cases h : word <+: trimStart line
  · exact .starting (hfirst h fun _ => infix_of_starts)
  · refine .holding (fun line' hmem h' => h ?_) (hfirst hin fun _ => id)
    obtain ⟨m, hget'⟩ := List.mem_iff_getElem?.1 hmem
    rw [honly m line' hget' (infix_of_starts h'), hget] at hget'
    exact Option.some.inj hget' ▸ h'

/-! ## Package files -/

/-- The kinds of package files in JSON, by their sections, the names that they leave out, and how
they are read. -/
inductive PackageFile : List String → (String → Bool) →
    (List Char → String → Option (List Dependency)) → Prop
  | script : PackageFile ["dependencies", "devDependencies"] (fun _ => false) packageJson?
  | composer : PackageFile ["require", "require-dev"] isPlatform composerJson?

/-- A package file is read section by section. -/
theorem PackageFile.eq_sectionDependencies {sections : List String} {skip : String → Bool}
    {read : List Char → String → Option (List Dependency)} (h : PackageFile sections skip read) :
    read = sectionDependencies sections skip := by
  cases h <;> rfl

/-- The dependencies that a document lists. -/
theorem sectionDependencies_of_read {text : List Char} {doc : Json}
    (hdoc : Json.readChars? text = some doc) (hkeys : Json.Distinct doc) (sections : List String)
    (skip : String → Bool) (file : String) :
    ∃ deps, sectionDependencies sections skip text file = some deps
      ∧ (deps.map fun d => (d.name, d.version)).Perm (sections.flatMap fun title =>
        ((Json.membersOf doc title).filter fun m => !skip m.1).map fun m => (m.1, m.2.str?))
      ∧ ∀ d ∈ deps, d.line = quotedLine text d.name := by
  refine ⟨_, by rw [sectionDependencies, Json.parseChars?, hdoc]; rfl, ?_, ?_⟩
  · rw [List.map_flatMap]
    refine List.Perm.flatMap_left sections fun title _ => ?_
    -- what is read is sorted by keys, and without repeated keys nothing is lost by that
    have hperm := ((Json.membersOf_sorted hkeys title).filter fun m => !skip m.1).map fun m =>
      (m.1, m.2.str?)
    rw [List.filter_map, List.map_map] at hperm
    rw [List.map_map]
    refine .trans hperm (.of_eq ?_)
    simp only [Function.comp_def, Json.str?_sorted]
  · intro d hd
    obtain ⟨title, -, hd⟩ := List.mem_flatMap.1 hd
    obtain ⟨m, -, rfl⟩ := List.mem_map.1 hd
    rfl

/-! ### Files with a member in front of a section -/

/-- Characters that stand in a string as they are. -/
def isVerbatim (c : Char) : Bool := c != '"' && c != '\\' && decide (32 ≤ c.toNat)

/-- Characters that need no escape spell themselves. -/
theorem spells_verbatim {s : List Char} (h : s.all isVerbatim = true) : Json.Spells s s := by
  induction s with
  | nil => exact .nil
  | cons c s ih =>
      simp only [List.all_cons, isVerbatim, Bool.and_eq_true, bne_iff_ne, decide_eq_true_eq] at h
      exact .plain h.1.1.1 h.1.1.2 h.1.2 (ih h.2)

/-- A key that needs no escape leads with its quotes and a colon. -/
theorem lead_verbatim {key : String} (h : key.toList.all isVerbatim = true) :
    Json.Lead key (quoted key ++ [':']) := by
  have hlead := Json.Lead.mk (spells_verbatim h) Json.blank_nil Json.blank_nil
  rw [String.ofList_toList] at hlead
  simpa [quoted] using hlead

/-- A string that needs no escape is its own text between quotes. -/
theorem text_verbatim {n : Nat} {s : String} (h : s.toList.all isVerbatim = true) :
    Json.Text n (.value (.str s)) (quoted s) := by
  have htext := Json.Text.str (n := n) (spells_verbatim h)
  rwa [String.ofList_toList] at htext

/-- A package file whose section of dependencies is behind another member. -/
def packageBehind (title : String) (value : List Char) : List Char :=
  '\x7b' :: (quoted title
    ++ ':' :: (value ++ ",\n\"devDependencies\":\x7b\n\"jest\":\"^29\"\x7d\x7d".toList))

/-- A document with one more section in front of the dependencies. -/
def documentBehind (title : String) (j : Json) : Json :=
  .obj [(title, j), ("devDependencies", .obj [("jest", .str "^29")])]

section Behind

variable (title : String) {j : Json} {value : List Char}

/-- The member in the section, and its text. -/
theorem memberAt_section :
    Json.MemberAt 125 "jest" (.str "^29") (quoted "jest" ++ [':']) (quoted "^29")
      [("jest", .str "^29")] ['\n']
      ('\n' :: (quoted "jest" ++ ':' :: quoted "^29")) := by
  have hnewline : Json.Blank ['\n'] := Json.blank_cons.2 ⟨rfl, Json.blank_nil⟩
  have hlead : Json.Lead "jest" (quoted "jest" ++ [':']) := lead_verbatim rfl
  have hvalue : Json.Text 125 (.value (.str "^29")) (quoted "^29") := text_verbatim rfl
  have hat := Json.MemberAt.here hlead hvalue hnewline Json.blank_nil .last
  simpa using hat

/-- The section stands behind the other member. -/
theorem memberAt_behind (htitle : title.toList.all isVerbatim = true)
    (hvalue : Json.Text 126 (.value j) value) :
    Json.MemberAt 126 "devDependencies" (.obj [("jest", .str "^29")])
      (quoted "devDependencies" ++ [':'])
      ('\x7b' :: (('\n' :: (quoted "jest" ++ ':' :: quoted "^29")) ++ ['\x7d']))
      [(title, j), ("devDependencies", .obj [("jest", .str "^29")])]
      (quoted title ++ ':' :: (value ++ [',', '\n']))
      (quoted title ++ ':' :: (value ++ ',' :: '\n' :: (quoted "devDependencies" ++ ':' ::
        '\x7b' :: '\n' :: (quoted "jest" ++ ':' :: (quoted "^29" ++ ['\x7d']))))) := by
  have hsection : Json.MemberAt 126 "devDependencies" (.obj [("jest", .str "^29")])
      (quoted "devDependencies" ++ [':'])
        ('\x7b' :: (('\n' :: (quoted "jest" ++ ':' :: quoted "^29")) ++ ['\x7d']))
      [("devDependencies", .obj [("jest", .str "^29")])] ['\n'] _ :=
    .here (lead_verbatim rfl) (.obj memberAt_section.text) (Json.blank_cons.2 ⟨rfl, Json.blank_nil⟩)
      Json.blank_nil
      .last
  have hfirst := Json.text_member (lead_verbatim htitle) hvalue
  have hat := Json.MemberAt.later Json.blank_nil Json.blank_nil hfirst hsection
  simpa using hat

/-- The text with one more section in front is read as its document. -/
theorem read_packageBehind (htitle : title.toList.all isVerbatim = true)
    (hvalue : Json.Text 126 (.value j) value) :
    Json.readChars? (packageBehind title value) = some (documentBehind title j) := by
  have hread := Json.readChars?_of_text Json.blank_nil
    (.obj (memberAt_behind title htitle hvalue).text) Json.blank_nil
  rw [documentBehind, ← hread]
  simp [packageBehind, quoted]

/-- In the text with one more section the dependency stands two lines below that section. -/
theorem placed_packageBehind (htitle : title.toList.all isVerbatim = true)
    (hvalue : Json.Text 126 (.value j) value) :
    ∃ front, Json.Placed "devDependencies" "jest" (.str "^29") front (packageBehind title value)
      ∧ front.count '\n' = value.count '\n' + 2 := by
  have hplaced := Json.Placed.mk (Nat.le_refl _) Json.blank_nil Json.blank_nil
    (memberAt_behind title htitle hvalue)
    memberAt_section
  have hplain : '\n' ∉ title.toList := fun hmem =>
    absurd (List.all_eq_true.1 htitle _ hmem) (by decide)
  refine ⟨_, by simpa [packageBehind, quoted] using hplaced, ?_⟩
  simp [List.count_eq_zero.2 hplain]

/-- The document with one more section repeats no key. -/
theorem distinct_documentBehind (hne : title ≠ "devDependencies") (h : j.Distinct) :
    (documentBehind title j).Distinct :=
  .obj (by simp [hne]) (by simpa using ⟨h, .obj (by simp) (by simpa using .str _)⟩)

end Behind

/-- Of a single dependency the name is known. -/
theorem name_of_single {deps : List Dependency} {name : String} {version : Option String}
    (h : deps.map (fun d => (d.name, d.version)) = [(name, version)]) {d : Dependency}
    (hd : d ∈ deps) :
    d.name = name := by
  have hname : (d.name, d.version) ∈ [(name, version)] := h ▸ List.mem_map_of_mem hd
  exact congrArg Prod.fst (List.mem_singleton.1 hname)

/-- A package file that is a document without repeated keys gives one dependency for each member of
its sections that is not left out, with the name and the version of the member. Each member stands
somewhere; its dependency has the line on which its key stands just if this line is told by the name
in quotes, as it is if the name in quotes stands nowhere else in the file. -/
theorem packageFile_dependencies {sections : List String} {skip : String → Bool}
    {read : List Char → String → Option (List Dependency)} (hfile : PackageFile sections skip read)
    {text : List Char} {doc : Json} (hdoc : Json.readChars? text = some doc)
    (hkeys : Json.Distinct doc) (file : String) :
    ∃ deps, read text file = some deps
      ∧ (deps.map fun d => (d.name, d.version)).Perm (sections.flatMap fun title =>
        ((Json.membersOf doc title).filter fun m => !skip m.1).map fun m => (m.1, m.2.str?))
      ∧ (∀ title m, m ∈ Json.membersOf doc title ↔ ∃ front, Json.Placed title m.1 m.2 front text)
      ∧ ∀ title name version front, Json.Placed title name version front text →
        ∀ d ∈ deps, d.name = name →
        (d.line = front.count '\n' + 1 ↔ Told (quoted name) (lines text) (front.count '\n'))
        ∧ ((∃ back, text = front ++ (quoted name ++ back)) →
          (∀ a b, text = a ++ (quoted name ++ b) → a = front) → d.line = front.count '\n' + 1) := by
  obtain ⟨deps, hdeps, hmembers, hlines⟩ :=
  sectionDependencies_of_read hdoc hkeys sections skip file
  refine ⟨deps,
    by rw [hfile.eq_sectionDependencies, hdeps], hmembers, fun title m => ⟨fun hm => ?_, ?_⟩, ?_⟩
  · -- a member of a section is placed in the text where it was read
    obtain ⟨entries, members, rfl, hentry, hmember⟩ := Json.exists_of_mem_membersOf hm
    exact Json.exists_placed hdoc hentry hmember
  · rintro ⟨front, hplaced⟩
    obtain ⟨entries, members, hread, hentry, hmember⟩ := hplaced.exists_members
    obtain rfl := Option.some.inj (hdoc.symm.trans hread)
    cases hkeys with
    | obj hnodup _ => exact Json.membersOf_of_mem hnodup hentry ▸ hmember
  · -- the line is that of the first quoted name, which may be another than that of the member
    rintro title name version front hplaced d hd rfl
    have htold : d.line = front.count '\n' + 1
        ↔ Told (quoted d.name) (lines text) (front.count '\n') := by
      rw [hlines d hd, quotedLine_eq_iff]
    refine ⟨htold, fun ⟨back, htext⟩ halone => htold.2 ?_⟩
    obtain ⟨lead, back', hlead, htext'⟩ := hplaced.exists_back
    have hplain : '\n' ∉ d.name.toList := by
      have hat : lead ++ back' = quoted d.name ++ back :=
        List.append_cancel_left (htext'.symm.trans htext)
      rw [quoted, List.cons_append, List.append_assoc] at hat
      exact Json.newline_not_mem_of_lead hlead hat
    refine told_of_alone ?_ (List.cons_ne_nil _ _) ?_ htext halone
    · simpa [quoted] using hplain
    · rw [quoted, ← List.cons_append, List.getLast?_concat]
      decide

/-- A name that stands as a value in front of its section has the line of its key. -/
theorem packageJson?_behind_value :
    let text := packageBehind "main" (quoted "jest")
    ∃ deps, packageJson? text "package.json" = some deps
      ∧ deps.map (fun d => (d.name, d.version)) = [("jest", some "^29")]
        ∧ ∀ d ∈ deps, d.line = 3 := by
  intro text
  have hvalue : Json.Text 126 (.value (.str "jest")) (quoted "jest") := text_verbatim rfl
  obtain ⟨deps, hdeps, hmembers, -, hline⟩ := packageFile_dependencies .script
    (read_packageBehind "main" rfl hvalue) (distinct_documentBehind "main" (by decide) (.str _))
      "package.json"
  have hnames : deps.map (fun d => (d.name, d.version)) = [("jest", some "^29")] :=
    List.perm_singleton.1 hmembers
  refine ⟨deps, hdeps, hnames, fun d hd => ?_⟩
  obtain ⟨front, hplaced, hcount⟩ := placed_packageBehind "main" rfl hvalue
  have htold := (hline _ _ _ _ hplaced d hd (name_of_single hnames hd)).1
  rw [hcount] at htold
  have hlines : lines text
      = ["\x7b\"main\":\"jest\",".toList, "\"devDependencies\":\x7b".toList,
        "\"jest\":\"^29\"\x7d\x7d".toList] := by
    decide
  exact htold.2 (hlines ▸ told_of_printed (by decide) (by decide))

/-- A script of the same name in front of the section has its dependency on the line of the
script. -/
theorem packageJson?_behind_script :
    let text := packageBehind "scripts" "\x7b\n\"jest\":\"\"\x7d".toList
    (∃ doc, Json.readChars? text = some doc ∧ doc.Distinct)
      ∧ (∃ front, Json.Placed "devDependencies" "jest" (.str "^29") front text
        ∧ front.count '\n' + 1 = 4)
      ∧ ∃ deps, packageJson? text "package.json" = some deps
        ∧ deps.map (fun d => (d.name, d.version)) = [("jest", some "^29")]
          ∧ ∀ d ∈ deps, d.line = 2 := by
  intro text
  -- the value of the script has a key of the same name, on a line of its own
  have hvalue : Json.Text 126 (.value (.obj [("jest", .str "")]))
      "\x7b\n\"jest\":\"\"\x7d".toList := by
    have hstring : Json.Text 125 (.value (.str "")) (quoted "") := text_verbatim rfl
    have hlead : Json.Lead "jest" (quoted "jest" ++ [':']) := lead_verbatim rfl
    have hscript := Json.text_member hlead hstring
    have hmembers :=
      Json.Text.obj (.cons (b := ['\n']) (Json.blank_cons.2 ⟨rfl, Json.blank_nil⟩) Json.blank_nil
      hscript .last)
    exact hmembers
  have hread := read_packageBehind "scripts" rfl hvalue
  have hdistinct := distinct_documentBehind "scripts" (by decide)
    (.obj (by simp) (by simpa using Json.Distinct.str "") : Json.Distinct
      (.obj [("jest", .str "")]))
  obtain ⟨deps, hdeps, hmembers, hlines⟩ := sectionDependencies_of_read hread hdistinct
    ["dependencies", "devDependencies"] (fun _ => false) "package.json"
  obtain ⟨front, hplaced, hcount⟩ := placed_packageBehind "scripts" rfl hvalue
  have hnames : deps.map (fun d => (d.name, d.version)) = [("jest", some "^29")] :=
    List.perm_singleton.1 hmembers
  refine ⟨⟨_, hread, hdistinct⟩, ⟨front, hplaced, by rw [hcount]; decide⟩, deps, hdeps, hnames,
    fun d hd => ?_⟩
  -- the first line that quotes the name is the second, within the script
  have htext : lines text = ["\x7b\"scripts\":\x7b".toList, "\"jest\":\"\"\x7d,".toList,
      "\"devDependencies\":\x7b".toList, "\"jest\":\"^29\"\x7d\x7d".toList] := by decide
  rw [hlines d hd, name_of_single hnames hd, quotedLine_eq_iff, htext]
  exact told_of_printed (by decide) (by decide)

end CodeAtlas.Manifest
