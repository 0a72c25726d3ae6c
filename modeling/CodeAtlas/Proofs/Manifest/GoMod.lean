import CodeAtlas.Manifest.Basic
import CodeAtlas.Proofs.Text.Splitting

/-!
# Comments in module files

A comment behind a line of a module file does not count when the line is a requirement, a
replacement or the head of a block, whatever blocks are open. It does when the line names the
module, closes a block or opens one without a space: such a line is looked at before comments are
cut off.
-/

namespace CodeAtlas.Manifest.GoModule

open Text
open Unicode (isBlank)

/-! ## Lines with comments -/

/-- The line with a comment behind it. -/
def commented (line text : List Char) : List Char := line ++ ' ' :: '/' :: '/' :: text

/-- The words that start a directive. -/
def keywords : List (List Char) := ["module".toList, "require".toList, "replace".toList]

/-- The lines for which a comment behind them counts. -/
inductive Exposed (line : List Char) : Prop
  /-- The comment becomes a part of the name. -/
  | name (h : "module ".toList <+: trim line)
  /-- The block is not closed. -/
  | close (h : trim line = [')'])
  /-- The block is not opened. -/
  | tight (h : trim line = "require(".toList ∨ trim line = "replace(".toList)
  /-- A keyword alone, which is no line of a module file, is told by the space that follows it. -/
  | bare (word : List Char) (hword : word ∈ keywords) (h : trim line = word)
    (hspace : word ++ [' '] <+: trimStart line ++ [' '])

/-- A line in printed characters that is no name of a module, no end of a block, no tight head of
one and no keyword can have a comment. -/
theorem not_exposed {line : List Char} (hhead : line.head?.all isPrinted = true)
    (hlast : line.getLast?.all isPrinted = true) (hname : ¬ "module ".toList <+: line)
    (hword : line ∉ [')'] :: "require(".toList :: "replace(".toList :: keywords) :
    ¬ Exposed line := by
  have htrim : trim line = line := trim_of_printed hhead hlast
  intro h
  cases h with
  | name h => exact hname (htrim ▸ h)
  | close h => exact hword (by rw [← htrim, h]; simp)
  | tight h => exact hword (by rcases h with h | h <;> rw [← htrim, h] <;> simp)
  | bare word hmem h => exact hword (by rw [← htrim, h]; simp [hmem])

theorem isBlank_slash : isBlank '/' = false := isBlank_of_printed (by decide) (by decide)

/-- A comment behind a blank line is all that there is on the line. -/
theorem trim_commented_of_blank {line : List Char} (h : trim line = []) (text : List Char) :
    trim (commented line text) = '/' :: '/' :: trimEnd text := by
  obtain ⟨b, b', hline, hb, hb', -⟩ := exists_trim line
  rw [h, List.nil_append] at hline
  have hblank : AllBlank (line ++ [' ']) := by
    rw [hline]
    exact List.forall_mem_append.2 ⟨List.forall_mem_append.2 ⟨hb, hb'⟩, allBlank_space⟩
  have hsplit : commented line text = (line ++ [' ']) ++ '/' :: '/' :: text := by simp [commented]
  rw [hsplit, trim_blank_append hblank, trim_cons isBlank_slash]
  exact congrArg _ (trimEnd_append_of_solid (solid_singleton isBlank_slash) text)

/-- A comment stands behind the line and the white space that follows it. -/
theorem exists_trim_commented {line : List Char} (h : trim line ≠ []) (text : List Char) :
    ∃ b, b ≠ [] ∧ AllBlank b ∧ trimStart line ++ [' '] = trim line ++ b
      ∧ trim (commented line text) = trim line ++ (b ++ '/' :: '/' :: trimEnd text) := by
  obtain ⟨b, hsplit, hb, -⟩ := exists_trimEnd_append (trimStart line)
  change trimStart line = trim line ++ b at hsplit
  have hne : ¬ (line.dropWhile isBlank).isEmpty = true := fun hempty =>
    h (by rw [trim, trimStart, List.isEmpty_iff.1 hempty]; rfl)
  have hstart : trimStart (commented line text)
      = (trimStart line ++ [' ', '/']) ++ ['/'] ++ text := by
    rw [commented, trimStart, List.dropWhile_append, if_neg hne, trimStart]
    simp
  have hsolid := solid_append_singleton (trimStart line ++ [' ', '/']) isBlank_slash
  refine ⟨b ++ [' '], by simp, List.forall_mem_append.2 ⟨hb, allBlank_space⟩, ?_, ?_⟩
  · rw [hsplit, List.append_assoc]
  · rw [trim, hstart, trimEnd_append_of_solid hsolid, hsplit]
    simp

/-! ## What a line starts with -/

section
variable {t b x w : List Char}

/-- What is behind white space does not decide whether a text starts with a word, unless the text is
the front of the word up to one of its blanks. -/
theorem after?_append_blank (hne : b ≠ []) (hb : AllBlank b)
    (hw : ∀ c s, w = t ++ c :: s → isBlank c = true → b.head? ≠ some c) :
    after? w (t ++ (b ++ x)) = (after? w t).map (· ++ (b ++ x)) := by
  cases hafter : after? w t with
  | some rest =>
      rw [after?_eq_some_iff.1 hafter, List.append_assoc]
      exact after?_eq_some_iff.2 rfl
  | none =>
      rw [Option.map_none, Option.eq_none_iff_forall_ne_some]
      intro rest hrest
      rcases List.append_eq_append_iff.1 (after?_eq_some_iff.1 hrest) with ⟨a, hword, htail⟩ | ⟨a,
        ht, -⟩
      · obtain ⟨c, b, rfl⟩ := List.exists_cons_of_ne_nil hne
        cases a with
        | nil =>
            have hsome : after? w t = some [] := after?_eq_some_iff.2 (by rw [hword]; simp)
            cases hafter.symm.trans hsome
        | cons d a =>
            obtain rfl := (List.cons.inj htail).1
            exact hw _ a hword (hb _ List.mem_cons_self) rfl
      · cases hafter.symm.trans (after?_eq_some_iff.2 ht)

/-- A word without blanks is told from a text in front of white space alone. -/
theorem after?_append_of_printed (hne : b ≠ []) (hb : AllBlank b) (hw : w.all isPrinted = true) :
    after? w (t ++ (b ++ x)) = (after? w t).map (· ++ (b ++ x)) := by
  refine after?_append_blank hne hb ?_
  rintro c s rfl hc
  exact absurd (List.mem_append_right t List.mem_cons_self) (not_mem_of_isBlank hw hc)

/-- A word and a space and what follows it are told from a text in front of white space alone,
unless the text is the word and the white space starts with a space. -/
theorem after?_append_of_spaced {v s : List Char} (hne : b ≠ []) (hb : AllBlank b)
    (hv : v.all isPrinted = true) (hs : s.all isPrinted = true)
    (hbare : t = v → ¬ v ++ [' '] <+: t ++ b) :
    after? (v ++ ' ' :: s) (t ++ (b ++ x)) = (after? (v ++ ' ' :: s) t).map (· ++ (b ++ x)) := by
  refine after?_append_blank hne hb ?_
  intro c r hsplit hc hhead
  obtain ⟨b, rfl⟩ := List.head?_eq_some_iff.1 hhead
  -- the only blank of the word is its space
  rcases List.append_eq_append_iff.1 hsplit with ⟨a, rfl, hright⟩ | ⟨a, rfl, hright⟩
  · cases a with
    | nil =>
        obtain ⟨rfl, -⟩ := List.cons.inj hright
        refine hbare (by simp) ⟨b, by simp⟩
    | cons d a =>
        obtain ⟨rfl, hs'⟩ := List.cons.inj hright
        have hmem : c ∈ s := by rw [hs']; simp
        exact not_mem_of_isBlank hs hc hmem
  · cases a with
    | nil =>
        obtain ⟨rfl, -⟩ := List.cons.inj hright
        refine hbare (by simp) ⟨b, by simp⟩
    | cons d a =>
        obtain ⟨rfl, -⟩ := List.cons.inj hright
        exact not_mem_of_isBlank hv hc (by simp)

end

/-! ## What is in front of a comment -/

section
variable {l b x : List Char}

/-- There is no slash in white space. -/
theorem slash_not_mem_of_allBlank (hb : AllBlank b) : '/' ∉ b := fun hmem => by
  have hblank := hb _ hmem
  rw [isBlank_slash] at hblank
  cases hblank

/-- A comment behind white space is cut off, or it is part of a comment that is there. -/
theorem trim_dropComment_append (hne : b ≠ []) (hb : AllBlank b) :
    trim (dropComment (l ++ (b ++ '/' :: '/' :: x))) = trim (dropComment l) := by
  have hslash := slash_not_mem_of_allBlank hb
  cases hcut : cut? ['/', '/'] l with
  | some p =>
      -- the line has a comment already: it is cut at that one, the text behind makes no difference
      obtain ⟨front, rest⟩ := p
      obtain ⟨hl, hfirst⟩ := cut?_eq_some_iff.1 hcut
      have hlater : cut? ['/', '/'] (l ++ (b ++ '/' :: '/' :: x))
          = some (front, rest ++ (b ++ '/' :: '/' :: x)) := by
        refine cut?_eq_some_iff.2
          ⟨by rw [hl]; simp, fun a c hfront hc hmark => hfirst a c hfront hc ?_⟩
        have hpre : c ++ (['/', '/'] ++ rest)
            <+: c ++ (['/', '/'] ++ (rest ++ (b ++ '/' :: '/' :: x))) :=
          ⟨b ++ '/' :: '/' :: x, by simp⟩
        exact List.prefix_of_prefix_length_le hmark hpre (by simp; omega)
      rw [dropComment, dropComment, hcut, hlater]
  | none =>
      -- the line has none: the cut is at the new slashes, which cannot begin any sooner
      have hout : ¬ ['/', '/'] <:+: l := fun hin => by
        rw [← isSome_cut?_iff, hcut] at hin
        cases hin
      have hlater : cut? ['/', '/'] (l ++ (b ++ '/' :: '/' :: x)) = some (l ++ b, x) := by
        refine cut?_eq_some_iff.2 ⟨by simp, fun a c hfront hc hmark => ?_⟩
        have hin : ['/', '/'] <:+: l ++ b := by
          by_cases hlen : 2 ≤ c.length
          · have hpart : ['/', '/'] <+: c :=
              List.prefix_of_prefix_length_le hmark (List.prefix_append c _) hlen
            exact hfront ▸ hpart.isInfix.trans (List.suffix_append a c).isInfix
          · -- the one character is the end of the white space
            obtain ⟨d, rfl⟩ := List.length_eq_one_iff.1 (show c.length = 1 by
              have := List.length_pos_iff.2 hc
              omega)
            obtain ⟨rfl, -⟩ := List.cons_prefix_cons.1 hmark
            obtain ⟨b, e, rfl⟩ := (List.eq_nil_or_concat b).resolve_left hne
            have hlast := congrArg List.getLast? hfront
            rw [List.concat_eq_append, ← List.append_assoc, List.getLast?_concat,
              List.getLast?_concat] at hlast
            rw [List.concat_eq_append, Option.some.inj hlast] at hslash
            exact absurd List.mem_concat_self hslash
        -- two slashes in `l ++ b` would lie in `l`, in `b`, or across the two with a slash in `b`
        rcases List.infix_append_iff.1 hin with hin | hin | ⟨k, k', hmark, hk, hk'⟩
        · exact hout hin
        · exact hslash (hin.subset List.mem_cons_self)
        · cases k' with
          | nil => exact hout ((List.append_nil k ▸ hmark) ▸ hk.isInfix)
          | cons e k' =>
              have hmem : e ∈ ['/', '/'] := by rw [hmark]; simp
              obtain rfl : e = '/' := by simpa using hmem
              exact hslash (hk'.subset List.mem_cons_self)
      rw [dropComment, dropComment, hcut, hlater]
      exact trim_append_blank l hb

/-- A comment behind a requirement makes no difference. -/
theorem requirement?_append (hne : b ≠ []) (hb : AllBlank b) :
    requirement? (l ++ (b ++ '/' :: '/' :: x)) = requirement? l := by
  rw [requirement?, requirement?, trim_dropComment_append hne hb]

/-- A comment behind a replacement makes no difference. -/
theorem replacement?_append (hne : b ≠ []) (hb : AllBlank b) :
    replacement? (l ++ (b ++ '/' :: '/' :: x)) = replacement? l := by
  rw [replacement?, replacement?, trim_dropComment_append hne hb]

end

/-- The module and the version on a line. -/
theorem requirement?_words (name version : List Char)
    (hname : name ≠ [] ∧ name.all isPrinted = true)
    (hversion : version ≠ [] ∧ version.all isPrinted = true) (hparen : name ≠ ['('])
    (hline : trim (dropComment (name ++ ' ' :: version)) = name ++ ' ' :: version) :
    requirement? (name ++ ' ' :: version) = some (String.ofList name, String.ofList version) := by
  have hblank : ∀ {word : List Char}, word.all isPrinted = true → ∀ c ∈ word, isBlank c = false :=
    fun h c hc => isBlank_of_isPrinted (List.all_eq_true.1 h c hc)
  rw [requirement?, hline, words_append_cons _ isBlank_space,
    words_of_not_blank hname.1 (hblank hname.2), words_of_not_blank hversion.1 (hblank hversion.2)]
  exact if_neg (by simpa using hparen)

/-! ## Directives -/

/-- What a line is, without the white space around it, and the text that is looked at further. -/
inductive Directive where
  /-- Nothing, or a comment. -/
  | blank
  | name (text : List Char)
  | openRequires
  | openReplaces
  | close
  | require (text : List Char)
  | replace (text : List Char)
  /-- What a line means that starts with no keyword is told by the blocks that are open. -/
  | entry (text : List Char)

/-- The directive that a trimmed line is. -/
def directive (line : List Char) : Directive :=
  if line.isEmpty || startsWith line ['/', '/'] then .blank
  else match after? "module ".toList line with
  | some text => .name text
  | none =>
      if (after? "require (".toList line).isSome || line == "require(".toList then .openRequires
      else if (after? "replace (".toList line).isSome || line == "replace(".toList
        then .openReplaces
      else if line == [')'] then .close
      else match after? "require ".toList line with
      | some text => .require text
      | none =>
          match after? "replace ".toList line with
          | some text => .replace text
          | none => .entry line

/-- The directive with more text behind the text in which comments are cut off. -/
def Directive.extend (tail : List Char) : Directive → Directive
  | .require text => .require (text ++ tail)
  | .replace text => .replace (text ++ tail)
  | .entry text => .entry (text ++ tail)
  | d => d

namespace Reading

variable {r : Reading} {n : Nat}

/-- Takes in a directive on the line with a number. -/
def follow (r : Reading) (n : Nat) : Directive → Reading
  | .blank => r
  | .name text =>
      let name := trimWhile (· == '"') (trim text)
      { r with module := { r.module with name := String.ofList name } }
  | .openRequires => { r with inRequires := true }
  | .openReplaces => { r with inReplaces := true }
  | .close => { r with inRequires := false, inReplaces := false }
  | .require text => r.addRequired text n
  | .replace text => r.addReplacement text
  | .entry text =>
      if r.inRequires then r.addRequired text n
      else if r.inReplaces then r.addReplacement text
      else r

/-- Reading a line is finding out its directive and taking it in. -/
theorem step_eq (line : List Char) : r.step n line = r.follow n (directive (trim line)) := by
  rw [step, directive]
  dsimp only
  cases after? "module ".toList (trim line) with
  | some text =>
      simp only [apply_ite (r.follow n)]
      rfl
  | none =>
      cases after? "require ".toList (trim line) with
      | some text =>
          simp only [apply_ite (r.follow n)]
          rfl
      | none =>
          cases after? "replace ".toList (trim line) <;> simp only [apply_ite (r.follow n)] <;> rfl

/-- A comment behind the text of a directive is cut off. -/
theorem follow_extend {b x : List Char} (hne : b ≠ []) (hb : AllBlank b) (d : Directive) :
    r.follow n (d.extend (b ++ '/' :: '/' :: x)) = r.follow n d := by
  have hrequire : ∀ text, r.addRequired (text ++ (b ++ '/' :: '/' :: x)) n
      = r.addRequired text n := by
    intro text
    rw [addRequired, addRequired, requirement?_append hne hb]
  have hreplace : ∀ text, r.addReplacement (text ++ (b ++ '/' :: '/' :: x))
      = r.addReplacement text := by
    intro text
    rw [addReplacement, addReplacement, replacement?_append hne hb]
  cases d with
  | require text => exact hrequire text
  | replace text => exact hreplace text
  | entry text => rw [Directive.extend, follow, follow, hrequire, hreplace]
  | _ => rfl

end Reading

/-! ## Comments that do not count -/

/-- Keywords are printed. -/
theorem isPrinted_keyword {word : List Char} (h : word ∈ keywords) : word.all isPrinted = true := by
  have hall : keywords.all (·.all isPrinted) = true := by decide
  exact List.all_eq_true.1 hall word h

section
variable {t b x : List Char} (hne : b ≠ []) (hb : AllBlank b)
  (hbare : ∀ word ∈ keywords, t = word → ¬ word ++ [' '] <+: t ++ b)
include hne hb

omit hb in
/-- A line with a comment behind white space is no single word. -/
theorem append_beq_of_printed (hb : AllBlank b) {word : List Char}
    (hword : word.all isPrinted = true) :
    (t ++ (b ++ x) == word) = false := by
  refine beq_false_of_ne fun heq => ?_
  obtain ⟨c, b, rfl⟩ := List.exists_cons_of_ne_nil hne
  exact not_mem_of_isBlank hword (hb c List.mem_cons_self) (heq ▸ by simp)

include hbare in
/-- What stands behind a keyword has the comment at its end too. -/
theorem after?_keyword_append {word : List Char} (hword : word ∈ keywords) {s : List Char}
    (hs : s.all isPrinted = true) :
    after? (word ++ ' ' :: s) (t ++ (b ++ x)) = (after? (word ++ ' ' :: s) t).map (· ++ (b ++ x)) :=
  after?_append_of_spaced hne hb (isPrinted_keyword hword) hs (hbare word hword)

include hbare in
/-- A comment behind a line that it does not expose leaves its directive. -/
theorem directive_append (hfull : t ≠ []) (hname : ¬ "module ".toList <+: t) (hclose : t ≠ [')'])
    (htight : t ≠ "require(".toList ∧ t ≠ "replace(".toList) :
    directive (t ++ (b ++ x)) = (directive t).extend (b ++ x) := by
  -- each of the tests that `directive` makes says of the longer line what it says of `t`
  have hslashes : after? ['/', '/'] (t ++ (b ++ x)) = (after? ['/', '/'] t).map (· ++ (b ++ x)) :=
    after?_append_of_printed hne hb rfl
  have hmodule : after? "module ".toList t = none := by
    rw [Option.eq_none_iff_forall_ne_some]
    exact fun rest hrest => hname ⟨rest, (after?_eq_some_iff.1 hrest).symm⟩
  have hmodule' : after? "module ".toList (t ++ (b ++ x)) = none := by
    have happend := after?_keyword_append (x := x) (s := []) hne hb hbare
      (by decide : "module".toList ∈ keywords) rfl
    exact happend.trans (congrArg (Option.map _) hmodule)
  have hrequires : after? "require (".toList (t ++ (b ++ x))
      = (after? "require (".toList t).map (· ++ (b ++ x)) :=
    after?_keyword_append (s := ['(']) hne hb hbare
      (by decide : "require".toList ∈ keywords) (by decide)
  have hreplaces : after? "replace (".toList (t ++ (b ++ x))
      = (after? "replace (".toList t).map (· ++ (b ++ x)) :=
    after?_keyword_append (s := ['(']) hne hb hbare
      (by decide : "replace".toList ∈ keywords) (by decide)
  have hrequire : after? "require ".toList (t ++ (b ++ x))
      = (after? "require ".toList t).map (· ++ (b ++ x)) :=
    after?_keyword_append (s := []) hne hb hbare (by decide : "require".toList ∈ keywords) rfl
  have hreplace : after? "replace ".toList (t ++ (b ++ x))
      = (after? "replace ".toList t).map (· ++ (b ++ x)) :=
    after?_keyword_append (s := []) hne hb hbare (by decide : "replace".toList ∈ keywords) rfl
  have hempty : (t ++ (b ++ x)).isEmpty = false ∧ t.isEmpty = false := by
    obtain ⟨c, t, rfl⟩ := List.exists_cons_of_ne_nil hfull
    exact ⟨rfl, rfl⟩
  simp only [directive, startsWith, hslashes, hmodule, hmodule', hrequires, hreplaces, hrequire,
    hreplace, hempty.1, hempty.2, Option.isSome_map,
      append_beq_of_printed hne hb (by decide : "require(".toList.all isPrinted = true),
    append_beq_of_printed hne hb (by decide : "replace(".toList.all isPrinted = true),
    append_beq_of_printed hne hb (by decide : [')'].all isPrinted = true), beq_false_of_ne hclose,
    beq_false_of_ne htight.1, beq_false_of_ne htight.2, apply_ite (Directive.extend (b ++ x))]
  cases after? "require ".toList t with
  | some text => rfl
  | none => cases after? "replace ".toList t <;> rfl

end

namespace Reading

variable {r : Reading} {n : Nat} {line : List Char}

/-- A comment behind a line does not count unless the line is exposed. -/
theorem step_commented (h : ¬ Exposed line) (text : List Char) :
    r.step n (commented line text) = r.step n line := by
  rw [step_eq, step_eq]
  by_cases hblank : trim line = []
  · rw [trim_commented_of_blank hblank, hblank]
    rfl
  · obtain ⟨b, hne, hb, hstart, htrim⟩ := exists_trim_commented hblank text
    have hbare : ∀ word ∈ keywords, trim line = word → ¬ word ++ [' '] <+: trim line ++ b :=
      fun word hword hline hspace => h (.bare word hword hline (hstart ▸ hspace))
    have htight : trim line ≠ "require(".toList ∧ trim line ≠ "replace(".toList :=
      ⟨fun heq => h (.tight (.inl heq)), fun heq => h (.tight (.inr heq))⟩
    rw [htrim, directive_append hne hb hbare hblank (fun hname => h (.name hname))
      (fun hclose => h (.close hclose)) htight, follow_extend hne hb]

end Reading

/-! ## Comments that count -/

/-- A line with the word for modules gives the name behind it. -/
theorem directive_module (text : List Char) :
    directive ("module ".toList ++ text) = .name text := by
  have hafter : after? "module ".toList ("module ".toList ++ text) = some text :=
    after?_eq_some_iff.2 rfl
  rw [directive, hafter]
  rfl

/-- A keyword with a comment behind it requires or replaces nothing. -/
theorem directive_keyword_comment {b : List Char} (hb : AllBlank b) (x : List Char) :
    directive ("require ".toList ++ (b ++ '/' :: '/' :: x)) = .require (b ++ '/' :: '/' :: x)
      ∧ directive ("replace ".toList ++ (b ++ '/' :: '/' :: x))
        = .replace (b ++ '/' :: '/' :: x) := by
  have hparen : isBlank '(' = false := isBlank_of_printed (by decide) (by decide)
  cases b with
  | nil => exact ⟨rfl, rfl⟩
  | cons c b =>
      have hc : '(' ≠ c := fun h => by
        rw [← h] at hb
        exact absurd (hparen.symm.trans (hb '(' List.mem_cons_self)) (by decide)
      have hnone : after? ['('] (c :: (b ++ '/' :: '/' :: x)) = none := if_neg hc
      have hrequires : after? "require (".toList ("require ".toList ++ (c :: b ++ '/' :: '/' :: x))
          = none := hnone
      have hreplaces : after? "replace (".toList ("replace ".toList ++ (c :: b ++ '/' :: '/' :: x))
          = none := hnone
      rw [directive, directive, hrequires, hreplaces]
      exact ⟨rfl, rfl⟩

/-- A comment alone is neither a requirement nor a replacement. -/
theorem keyword_comment_eq_none {b : List Char} (hb : AllBlank b) (x : List Char) :
    requirement? (b ++ '/' :: '/' :: x) = none ∧ replacement? (b ++ '/' :: '/' :: x) = none := by
  have hcut : cut? ['/', '/'] (b ++ '/' :: '/' :: x) = some (b, x) :=
    cut?_of_not_mem (slash_not_mem_of_allBlank hb) ['/'] x
  rw [requirement?, replacement?, dropComment, hcut]
  dsimp only
  rw [trim_of_allBlank hb]
  exact ⟨rfl, rfl⟩

/-- A keyword in a block would be read as a requirement. -/
theorem requirement?_keyword {word : List Char} (h : word ∈ keywords) :
    requirement? word = some (String.ofList word, "") := by
  have hprinted := isPrinted_keyword h
  have hblank : ∀ c ∈ word, isBlank c = false :=
    fun c hc => isBlank_of_isPrinted (List.all_eq_true.1 hprinted c hc)
  have hfacts : keywords.all (fun w => (w ≠ []) && (cut? ['/', '/'] w == none)
      && w.head?.all isPrinted
      && w.getLast?.all isPrinted && w != ['(']) = true := by decide
  have hword := List.all_eq_true.1 hfacts word h
  simp only [Bool.and_eq_true, decide_eq_true_eq, beq_iff_eq, bne_iff_ne] at hword
  obtain ⟨⟨⟨⟨hne, hcut⟩, hhead⟩, hlast⟩, hparen⟩ := hword
  rw [requirement?, dropComment, hcut]
  dsimp only
  rw [trim_of_printed hhead hlast, words_of_not_blank hne hblank]
  exact if_neg (by simpa using hparen)

namespace Reading

variable {line : List Char}

/-- A requirement leaves the block that is open. -/
theorem inRequires_addRequired (r : Reading) (text : List Char) (n : Nat) :
    (r.addRequired text n).inRequires = r.inRequires := by
  rw [addRequired]
  split <;> rfl

/-- The name that a text gives to the module has the slashes of the text. -/
theorem count_name_follow (r : Reading) (n : Nat) (text : List Char) :
    (r.follow n (.name text)).module.name.toList.count '/' = text.count '/' := by
  simp only [follow, String.toList_ofList]
  exact (count_trimWhile (by decide) _).trans (count_trim isBlank_slash text)

/-- What a comment changes for a keyword alone: it becomes the name of the module, or an entry is
none. -/
theorem exists_follow_keyword_ne {word : List Char} (hword : word ∈ keywords) {b : List Char}
    (hb : AllBlank b) (x : List Char) : ∃ r, ∀ n,
    Reading.follow r n (directive (word ++ (' ' :: b ++ '/' :: '/' :: x)))
      ≠ Reading.follow r n (directive word) := by
  have hplain : ∀ n, Reading.follow { inRequires := true } n (.entry word)
      = { inRequires := true, module := { requires := [(String.ofList word, "", n)] } } := by
    intro n
    rw [follow, if_pos rfl, addRequired, requirement?_keyword hword]
    rfl
  simp only [keywords, List.mem_cons, List.not_mem_nil, or_false] at hword
  rcases hword with rfl | rfl | rfl
  · -- `module` is a directive with nothing behind it, and takes the comment for its name
    refine ⟨{}, fun n heq => ?_⟩
    have hname : Reading.follow {} n (directive "module".toList) = {} := rfl
    rw [hname, show "module".toList ++ (' ' :: b ++ '/' :: '/' :: x)
      = "module ".toList ++ (b ++ '/' :: '/' :: x) from rfl, directive_module] at heq
    have hcount := congrArg (fun r : Reading => r.module.name.toList.count '/') heq
    rw [count_name_follow] at hcount
    exact List.count_eq_zero.1 hcount (by simp)
  · -- a keyword alone is an entry of the open block, and with more behind it a directive
    refine ⟨{ inRequires := true }, fun n heq => ?_⟩
    rw [show directive "require".toList = .entry "require".toList from rfl, hplain,
      show "require".toList ++ (' ' :: b ++ '/' :: '/' :: x)
        = "require ".toList ++ (b ++ '/' :: '/' :: x) from rfl,
      (directive_keyword_comment hb x).1, follow, addRequired, (keyword_comment_eq_none hb x).1]
        at heq
    cases congrArg (fun r : Reading => r.module.requires.length) heq
  · refine ⟨{ inRequires := true }, fun n heq => ?_⟩
    rw [show directive "replace".toList = .entry "replace".toList from rfl, hplain,
      show "replace".toList ++ (' ' :: b ++ '/' :: '/' :: x)
        = "replace ".toList ++ (b ++ '/' :: '/' :: x) from rfl,
      (directive_keyword_comment hb x).2, follow, addReplacement, (keyword_comment_eq_none hb x).2]
        at heq
    cases congrArg (fun r : Reading => r.module.requires.length) heq

/-- What a comment changes for a line that it exposes, by a line and the white space behind it. -/
theorem exists_follow_ne (h : Exposed line) {b : List Char} (hne : b ≠ []) (hb : AllBlank b)
    (hstart : trimStart line ++ [' '] = trim line ++ b) (x : List Char) :
    ∃ r, ∀ n, Reading.follow r n (directive (trim line ++ (b ++ '/' :: '/' :: x)))
      ≠ Reading.follow r n (directive (trim line)) := by
  obtain ⟨c, b, rfl⟩ := List.exists_cons_of_ne_nil hne
  cases h with
  | name h =>
      -- the name has as many slashes as before and those of the comment
      obtain ⟨rest, hrest⟩ := h
      refine ⟨{}, fun n heq => ?_⟩
      rw [← hrest, List.append_assoc, directive_module, directive_module] at heq
      have hcount := congrArg (fun r : Reading => r.module.name.toList.count '/') heq
      rw [count_name_follow, count_name_follow, List.count_append] at hcount
      have hpos : 0 < (c :: b ++ '/' :: '/' :: x).count '/' := List.count_pos_iff.2 (by simp)
      omega
  | close h =>
      -- the line does not close the block any more
      refine ⟨{ inRequires := true }, fun n heq => ?_⟩
      have hopen := congrArg Reading.inRequires heq
      rw [h, show directive ([')'] ++ (c :: b ++ '/' :: '/' :: x)) = .entry _ from rfl,
        follow, if_pos rfl,
        inRequires_addRequired] at hopen
      cases hopen
  | tight h =>
      refine ⟨{}, fun n heq => ?_⟩
      rcases h with h | h
      · have hopen : false = true := (congrArg Reading.inRequires (h ▸ heq) :)
        cases hopen
      · have hopen : false = true := (congrArg Reading.inReplaces (h ▸ heq) :)
        cases hopen
  | bare word hword h hspace =>
      -- only a blank was missing, and the white space in front of the comment is one
      rw [hstart, h] at hspace
      obtain rfl : ' ' = c := by
        obtain ⟨back, hback⟩ := (List.prefix_append_right_inj word).1 hspace
        exact (List.cons.inj hback).1
      rw [h]
      exact exists_follow_keyword_ne hword (List.forall_mem_cons.1 hb).2 x

/-- A comment behind an exposed line counts for one of the readings. -/
theorem exists_step_ne (h : Exposed line) (text : List Char) :
    ∃ r, ∀ n, Reading.step r n (commented line text) ≠ Reading.step r n line := by
  have hfull : trim line ≠ [] := by
    rintro hnil
    cases h with
    | name h => exact absurd (hnil ▸ h) (by decide)
    | close h => cases hnil.symm.trans h
    | tight h => exact absurd (hnil ▸ h) (by decide)
    | bare word hword h => exact absurd ((h.symm.trans hnil) ▸ hword) (by decide)
  obtain ⟨b, hne, hb, hstart, htrim⟩ := exists_trim_commented hfull text
  obtain ⟨r, hr⟩ := exists_follow_ne h hne hb hstart (trimEnd text)
  refine ⟨r, fun n => ?_⟩
  rw [step_eq, step_eq, htrim]
  exact hr n

end Reading

/-! ## Files -/

/-- A line of a module file, and the comment that is put behind it. -/
structure Row where
  line : List Char
  comment? : Option (List Char)

/-- The line with its comment. -/
def Row.text (row : Row) : List Char :=
  match row.comment? with
  | some text => commented row.line text
  | none => row.line

/-- A line that starts and ends with printed characters is read as its directive. -/
theorem readLines_cons {r : Reading} {n : Nat} {line : List Char} {d : Directive}
    (hhead : line.head?.all isPrinted = true) (hlast : line.getLast?.all isPrinted = true)
    (hline : directive line = d) (rest : List (List Char)) :
    readLines r n (line :: rest) = readLines (r.follow n d) (n + 1) rest := by
  rw [readLines, Reading.step_eq, trim_of_printed hhead hlast, hline]

/-- Comments on lines that are not exposed change nothing in what is read. -/
theorem readLines_rows {rows : List Row}
    (h : ∀ row ∈ rows, row.comment? ≠ none → ¬ Exposed row.line) (r : Reading) (n : Nat) :
    readLines r n (rows.map Row.text) = readLines r n (rows.map Row.line) := by
  induction rows generalizing r n with
  | nil => rfl
  | cons row rows ih =>
      obtain ⟨hrow, hrows⟩ := List.forall_mem_cons.1 h
      have hstep : r.step n row.text = r.step n row.line := by
        rw [Row.text]
        cases hcomment : row.comment? with
        | none => rfl
        | some text =>
            exact Reading.step_commented
              (hrow (by rw [hcomment]; exact Option.some_ne_none text)) text
      rw [List.map_cons, List.map_cons, readLines, readLines, hstep]
      exact ih hrows _ _

/-- With comments behind some of its lines a module file is read as without them if none of these
lines is exposed. A comment behind a line counts, whatever it says, just if the line is: it names
the module, closes a block, or opens one without a space. -/
theorem parse?_commented (plain noted : List Char) (rows : List Row)
    (hplain : lines plain = rows.map Row.line) (hnoted : lines noted = rows.map Row.text) :
    ((∀ row ∈ rows, row.comment? ≠ none → ¬ Exposed row.line) →
      parse? noted = parse? plain
        ∧ ∀ file, ManifestKind.goMod.parse noted file = ManifestKind.goMod.parse plain file)
    ∧ ∀ line text, (∀ r n, Reading.step r n (commented line text) = Reading.step r n line)
      ↔ ¬ Exposed line := by
  constructor
  · intro hrows
    have hparse : parse? noted = parse? plain := by
      rw [parse?, parse?, hplain, hnoted, readLines_rows hrows]
    refine ⟨hparse, fun file => ?_⟩
    rw [ManifestKind.parse, ManifestKind.parse, hparse]
  · intro line text
    constructor
    · intro h hexposed
      obtain ⟨r, hr⟩ := Reading.exists_step_ne hexposed text
      exact hr 0 (h r 0)
    · intro h r n
      exact Reading.step_commented h text

/-- Comments behind the opening of a block, an entry and a requirement of its own. -/
theorem parse?_commented_block :
    let plain := "module a\nrequire (\nb v1\n)\nrequire c v2".toList
    let noted := "module a\nrequire ( // )\nb v1 // d v3\n)\nrequire c v2 //".toList
    parse? plain = some { name := "a", requires := [("b", "v1", 3), ("c", "v2", 5)] }
      ∧ parse? noted = parse? plain := by
  intro plain noted
  have hlines : lines plain
      = ["module a", "require (", "b v1", ")", "require c v2"].map String.toList := by decide
  constructor
  · -- the plain file, line by line
    have hname : trim ['a'] = ['a'] := trim_of_printed rfl rfl
    have hb : requirement? "b v1".toList = some ("b", "v1") :=
      requirement?_words "b".toList "v1".toList (by decide) (by decide) (by decide)
        (trim_of_printed rfl rfl)
    have hc : requirement? "c v2".toList = some ("c", "v2") :=
      requirement?_words "c".toList "v2".toList (by decide) (by decide) (by decide)
        (trim_of_printed rfl rfl)
    have hread : readLines {} 1 (lines plain)
        = { module := { name := "a", requires := [("b", "v1", 3), ("c", "v2", 5)] } } := by
      rw [hlines]
      simp only [List.map_cons, List.map_nil]
      rw [readLines_cons (d := .name ['a']) rfl rfl rfl,
        readLines_cons (d := .openRequires) rfl rfl rfl,
          readLines_cons (d := .entry "b v1".toList) rfl rfl rfl,
          readLines_cons (d := .close) rfl rfl rfl,
        readLines_cons (d := .require "c v2".toList) rfl rfl rfl]
      simp only [Reading.follow, Reading.addRequired, hname, hb, hc]
      rfl
    rw [parse?, hread]
    rfl
  · -- the noted file, by the general theorem: no comment stands where it is seen
    let rows : List Row := [⟨"module a".toList, none⟩, ⟨"require (".toList, some " )".toList⟩,
      ⟨"b v1".toList, some " d v3".toList⟩, ⟨[')'], none⟩, ⟨"require c v2".toList, some []⟩]
    refine ((parse?_commented plain noted rows hlines (by decide)).1 ?_).1
    intro row hrow hcomment
    simp only [rows, List.mem_cons, List.not_mem_nil, or_false] at hrow
    rcases hrow with rfl | rfl | rfl | rfl | rfl
    · exact absurd rfl hcomment
    · exact not_exposed rfl rfl (by decide) (by decide)
    · exact not_exposed rfl rfl (by decide) (by decide)
    · exact absurd rfl hcomment
    · exact not_exposed rfl rfl (by decide) (by decide)

/-- With a comment behind it the end of a block is an entry of the block. -/
theorem parse?_commented_close :
    parse? "module a\nrequire (\n)".toList = some { name := "a" }
      ∧ parse? "module a\nrequire (\n) // c".toList
        = some { name := "a", requires := [(")", "", 3)] } := by
  have hname : trim ['a'] = ['a'] := trim_of_printed rfl rfl
  have hclose : requirement? ") // c".toList = some (")", "") := by
    have hcut : cut? ['/', '/'] ") // c".toList = some (") ".toList, " c".toList) := by decide
    have hfront : trim ") ".toList = [')'] :=
      (trim_append_blank [')'] allBlank_space).trans (trim_of_printed rfl rfl)
    rw [requirement?, dropComment, hcut]
    dsimp only
    rw [hfront,
      words_of_not_blank (by decide) (List.forall_mem_singleton.2 (isBlank_of_isPrinted rfl))]
    rfl
  have hplain : readLines {} 1 (lines "module a\nrequire (\n)".toList)
      = { module := { name := "a" } } := by
    rw [show lines "module a\nrequire (\n)".toList
      = ["module a".toList, "require (".toList, [')']] by
        decide, readLines_cons (d := .name ['a']) rfl rfl rfl,
        readLines_cons (d := .openRequires) rfl rfl rfl,
      readLines_cons (d := .close) rfl rfl rfl]
    simp only [Reading.follow, hname]
    rfl
  have hnoted : readLines {} 1 (lines "module a\nrequire (\n) // c".toList)
      = { module := { name := "a", requires := [(")", "", 3)] }, inRequires := true } := by
    rw [show lines "module a\nrequire (\n) // c".toList
        = ["module a".toList, "require (".toList, ") // c".toList] by decide,
      readLines_cons (d := .name ['a']) rfl rfl rfl,
        readLines_cons (d := .openRequires) rfl rfl rfl,
      readLines_cons (d := .entry ") // c".toList) rfl rfl rfl]
    simp only [Reading.follow, Reading.addRequired, hname, hclose]
    rfl
  rw [parse?, parse?, hplain, hnoted]
  exact ⟨rfl, rfl⟩

end CodeAtlas.Manifest.GoModule
