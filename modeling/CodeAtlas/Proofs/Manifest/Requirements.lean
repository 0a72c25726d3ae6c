import CodeAtlas.Manifest.Requirements
import CodeAtlas.Proofs.Text.Trim
import Mathlib.Data.List.TakeWhile

/-!
# Reading requirements back

A requirement on a line is a name and behind it extras, a version, a marker and a comment, with
white space around each. The parts are cut off one after the other: first the comment, then the
name, the extras, the version. No cut is misled by what stands in another part, so a file of such
lines is read back as the names and versions on them, each with the number of its line.
-/

namespace CodeAtlas.Manifest

open Text
open Unicode (isBlank)

/-! ## Lines -/

/-- White space. -/
abbrev Blanks := { s : List Char // AllBlank s }

/-- What is in front of a comment behind something else. -/
abbrev commentMark : List Char := [' ', '#']

/-- The operators with which versions start. -/
def operators : List Char := ['=', '<', '>', '~', '!']

/-- The name of a package. -/
structure PackageName where
  first : Char
  rest : List Char
  first_alphanum : first.isAlphanum = true
  rest_chars : ∀ c ∈ rest, c.isAlphanum = true ∨ c ∈ ['.', '_', '-']

/-- Extras, without their brackets. -/
structure Extras where
  text : List Char
  not_bracket : ']' ∉ text
  not_hash : '#' ∉ text

/-- A version with its operator. -/
structure Version where
  operator : Char
  rest : List Char
  operator_mem : operator ∈ operators
  not_semicolon : ';' ∉ rest
  not_bracket : '[' ∉ rest
  not_hash : '#' ∉ rest

/-- A requirement, with the white space around its parts. -/
structure Requirement where
  indent : Blanks
  name : PackageName
  behindName : Blanks
  extras? : Option Extras
  behindExtras : Blanks
  version? : Option Version
  behindVersion : Blanks
  marker? : Option { m : List Char // ¬ commentMark <:+: m }
  behindMarker : Blanks
  comment? : Option (List Char)

/-- A line of a file of requirements. -/
inductive RequirementLine where
  | blank (s : Blanks)
  | comment (indent : Blanks) (text : List Char)
  | option (indent : Blanks) (text : List Char)
  | requirement (r : Requirement)

/-- The name of a package as it stands in a line. -/
def PackageName.text (n : PackageName) : List Char := n.first :: n.rest

/-- A version as it stands in a line. -/
def Version.text (v : Version) : List Char := v.operator :: v.rest

namespace Requirement

/-- The extras in their brackets. -/
def extrasText (r : Requirement) : List Char :=
  match r.extras? with
  | some e => '[' :: (e.text ++ [']'])
  | none => []

/-- The versions of a requirement as they stand in a line. -/
def versionText (r : Requirement) : List Char :=
  match r.version? with
  | some v => v.text
  | none => []

/-- The marker behind its semicolon. -/
def markerText (r : Requirement) : List Char :=
  match r.marker? with
  | some m => ';' :: m.1
  | none => []

/-- The comment behind its mark. -/
def commentText (r : Requirement) : List Char :=
  match r.comment? with
  | some t => commentMark ++ t
  | none => []

/-- The version, with the white space around it. -/
def versionPart (r : Requirement) : List Char :=
  r.behindExtras.1 ++ (r.versionText ++ r.behindVersion.1)

/-- What follows the name and the extras, without the comment. -/
def tail (r : Requirement) : List Char := r.versionPart ++ (r.markerText ++ r.behindMarker.1)

/-- What follows the name, without the comment. -/
def behind (r : Requirement) : List Char := r.behindName.1 ++ (r.extrasText ++ r.tail)

/-- The line without its comment. -/
def body (r : Requirement) : List Char := r.indent.1 ++ (r.name.text ++ r.behind)

/-- The line on which a requirement stands. -/
def text (r : Requirement) : List Char := r.body ++ r.commentText

/-- The dependency that a requirement names. -/
def dependency (r : Requirement) (file : String) (line : Nat) : Dependency where
  name := String.ofList r.name.text
  version := r.version?.map fun v => String.ofList (trim v.text)
  file
  line

end Requirement

namespace RequirementLine

/-- A line of a requirements file as it stands in the text. -/
def text : RequirementLine → List Char
  | blank s => s.1
  | comment indent text => indent.1 ++ '#' :: text
  | option indent text => indent.1 ++ '-' :: text
  | requirement r => r.text

/-- The dependency that a line declares, if it is a requirement. -/
def dependency? (file : String) (line : Nat) : RequirementLine → Option Dependency
  | requirement r => some (r.dependency file line)
  | _ => none

end RequirementLine

/-! ## Characters -/

theorem isBlank_hash : isBlank '#' = false := isBlank_of_printed (by decide) (by decide)

theorem isBlank_hyphen : isBlank '-' = false := isBlank_of_printed (by decide) (by decide)

theorem isBlank_semicolon : isBlank ';' = false := isBlank_of_printed (by decide) (by decide)

/-- In white space there is no other character. -/
theorem not_mem_blanks (s : Blanks) {c : Char} (hc : isBlank c = false) : c ∉ s.1 := by
  intro h
  rw [s.2 c h] at hc
  cases hc

/-- A letter or digit is not white space. -/
theorem isBlank_of_isAlphanum {c : Char} (h : c.isAlphanum = true) : isBlank c = false :=
  (Bool.or_eq_true_iff.1 h).elim isBlank_of_isAlpha isBlank_of_isDigit

/-- An operator is not white space. -/
theorem isBlank_operator {c : Char} (h : c ∈ operators) : isBlank c = false := by
  have hprinted : operators.all isPrinted = true := by decide
  exact isBlank_of_isPrinted (List.all_eq_true.1 hprinted c h)

/-- An operator ends a name. -/
theorem endsName_operator {c : Char} (h : c ∈ operators) : endsName c = true := by
  have hends : operators.all endsName = true := by decide
  exact List.all_eq_true.1 hends c h

/-- A letter or digit does not end a name. -/
theorem endsName_of_isAlphanum {c : Char} (h : c.isAlphanum = true) : endsName c = false := by
  have hends : ['=', '>', '<', '~', '!', '[', ';', ' ', '@'].all (fun d => !d.isAlphanum)
      = true := by decide
  refine Bool.eq_false_iff.2 fun hc => ?_
  have hnot := List.all_eq_true.1 hends c (List.contains_iff_mem.1 hc)
  rw [h] at hnot
  cases hnot

namespace PackageName

/-- No character of a name ends it. -/
theorem endsName_text (n : PackageName) : ∀ c ∈ n.text, endsName c = false := by
  refine List.forall_mem_cons.2 ⟨endsName_of_isAlphanum n.first_alphanum, fun c hc => ?_⟩
  have hmarks : ['.', '_', '-'].all (fun d => !endsName d) = true := by decide
  exact (n.rest_chars c hc).elim endsName_of_isAlphanum
    fun h => by simpa using List.all_eq_true.1 hmarks c h

/-- No character of a name is white space. -/
theorem not_isBlank_text (n : PackageName) : ∀ c ∈ n.text, isBlank c = false := by
  refine List.forall_mem_cons.2 ⟨isBlank_of_isAlphanum n.first_alphanum, fun c hc => ?_⟩
  have hmarks : ['.', '_', '-'].all isPrinted = true := by decide
  exact (n.rest_chars c hc).elim isBlank_of_isAlphanum
    fun h => isBlank_of_isPrinted (List.all_eq_true.1 hmarks c h)

/-- There is no hash in a name. -/
theorem not_hash (n : PackageName) : '#' ∉ n.text := by
  refine List.not_mem_cons_of_ne_of_not_mem ?_ fun h => ?_
  · intro h
    exact absurd (h ▸ n.first_alphanum) (by decide)
  · exact absurd (n.rest_chars _ h) (by decide)

/-- A name is solid. -/
theorem solid_text (n : PackageName) : Solid n.text :=
  fun c hc => n.not_isBlank_text c (List.mem_of_getLast? hc)

/-- A name is trimmed. -/
theorem trim_text (n : PackageName) : trim n.text = n.text := by
  have hstart : trimStart n.text = n.text :=
    trimStart_cons (isBlank_of_isAlphanum n.first_alphanum) n.rest
  rw [trim, hstart, trimEnd_of_solid n.solid_text]

end PackageName

/-! ## Comments -/

/-- A text in which no comment starts, also if it stands behind a space. -/
def Uncommented (s : List Char) : Prop := ¬ commentMark <:+: ' ' :: s

/-- A text without a hash in front keeps a text free of comments. -/
theorem Uncommented.append {a s : List Char} (ha : '#' ∉ a) (hs : Uncommented s) :
    Uncommented (a ++ s) := by
  induction a with
  | nil => exact hs
  | cons c a ih =>
      have hc : '#' ≠ c := List.ne_of_not_mem_cons ha
      have ha' : '#' ∉ a := List.not_mem_of_not_mem_cons ha
      intro hin
      rcases List.infix_cons_iff.1 hin with hfront | hin
      · exact hc (List.cons_prefix_cons.1 (List.cons_prefix_cons.1 hfront).2).1
      · rcases List.infix_cons_iff.1 hin with hfront | hin
        · -- the mark would start at `c`, as it may start at the space in front of the rest
          have hnext := (List.cons_prefix_cons.1 hfront).2
          exact ih ha' (List.cons_prefix_cons.2 ⟨rfl, hnext⟩).isInfix
        · exact ih ha' (List.infix_cons hin)

/-- White space is free of comments. -/
theorem uncommented_blanks (b : Blanks) : Uncommented b.1 := by
  intro hin
  have hmem : '#' ∈ ' ' :: b.1 := hin.subset (by decide)
  exact (List.mem_cons.1 hmem).elim (by decide) (not_mem_blanks b isBlank_hash)

/-- White space behind a marker starts no comment. -/
theorem not_infix_append_blanks {m : List Char} (hm : ¬ commentMark <:+: m) (b : Blanks) :
    ¬ commentMark <:+: m ++ b.1 := by
  intro hin
  rcases List.infix_append_iff.1 hin with hin | hin | ⟨l, l', hmark, hl, hl'⟩
  · exact hm hin
  · exact not_mem_blanks b isBlank_hash (hin.subset (by decide))
  · rcases List.eq_nil_or_concat l' with rfl | ⟨k, d, rfl⟩
    · rw [List.append_nil] at hmark
      exact hm (hmark ▸ hl.isInfix)
    · -- the last character of the mark would be among the white space
      have hd : '#' = d := by
        have := congrArg List.getLast? hmark
        rw [List.concat_eq_append, ← List.append_assoc, List.getLast?_concat] at this
        exact Option.some.inj this
      exact not_mem_blanks b isBlank_hash (hl'.subset (by simp [← hd]))

/-- What stands in front of the first comment is free of it. -/
theorem upTo_comment {s : List Char} (hs : ¬ commentMark <:+: s) (rest : List Char) :
    upTo commentMark (s ++ (commentMark ++ rest)) = s := by
  have hcut : cut? commentMark (s ++ (commentMark ++ rest)) = some (s, rest) := by
    refine cut?_eq_some_iff.2 ⟨rfl, ?_⟩
    rintro a b rfl hb hfront
    obtain ⟨c, b, rfl⟩ := List.exists_cons_of_ne_nil hb
    obtain ⟨rfl, hnext⟩ := List.cons_prefix_cons.1 hfront
    cases b with
    | nil => exact absurd (List.cons_prefix_cons.1 hnext).1 (by decide)
    | cons d b =>
        obtain ⟨rfl, -⟩ := List.cons_prefix_cons.1 hnext
        exact hs ⟨a, b, by simp⟩
  rw [upTo, upTo?, hcut]
  rfl

namespace Requirement

/-- The marker of a requirement is free of comments. -/
theorem uncommented_marker (r : Requirement) : Uncommented (r.markerText ++ r.behindMarker.1) := by
  rw [markerText]
  cases r.marker? with
  | none => exact uncommented_blanks r.behindMarker
  | some m =>
      intro hin
      rcases List.infix_cons_iff.1 hin with hfront | hin
      · exact absurd (List.cons_prefix_cons.1 (List.cons_prefix_cons.1 hfront).2).1 (by decide)
      · rcases List.infix_cons_iff.1 hin with hfront | hin
        · exact absurd (List.cons_prefix_cons.1 hfront).1 (by decide)
        · exact not_infix_append_blanks m.2 r.behindMarker hin

/-- There is no hash in the extras. -/
theorem hash_extras (r : Requirement) : '#' ∉ r.extrasText := by
  rw [extrasText]
  cases r.extras? with
  | none => exact List.not_mem_nil
  | some e => simp [e.not_hash]

/-- There is no hash in the versions. -/
theorem hash_version (r : Requirement) : '#' ∉ r.versionText := by
  rw [versionText]
  cases r.version? with
  | none => exact List.not_mem_nil
  | some v =>
      refine List.not_mem_cons_of_ne_of_not_mem ?_ v.not_hash
      intro h
      exact absurd (h ▸ v.operator_mem) (by decide)

/-- Only the comment is cut off first. -/
theorem upTo_text (r : Requirement) : upTo commentMark r.text = r.body := by
  have hbehind : Uncommented r.behind := by
    refine .append (not_mem_blanks _ isBlank_hash) (.append r.hash_extras ?_)
    rw [tail, versionPart, List.append_assoc, List.append_assoc]
    exact .append (not_mem_blanks _ isBlank_hash)
      (.append r.hash_version (.append (not_mem_blanks _ isBlank_hash) r.uncommented_marker))
  have hbody : Uncommented r.body :=
    .append (not_mem_blanks _ isBlank_hash) (.append r.name.not_hash hbehind)
  have hin : ¬ commentMark <:+: r.body := fun h => hbody (List.infix_cons h)
  rw [text, commentText]
  cases r.comment? with
  | none => rw [List.append_nil, upTo_of_not_infix hin]
  | some t => exact upTo_comment hin t

end Requirement

/-! ## Names -/

/-- White space is all there is in front of the end of a name. -/
def Closed (s : List Char) : Prop := AllBlank (s.takeWhile fun c => !endsName c)

/-- A text that starts with a character that ends names closes a name. -/
theorem closed_cons {c : Char} (hc : endsName c = true) (s : List Char) : Closed (c :: s) := by
  rw [Closed, List.takeWhile_cons_of_neg (by simp [hc])]
  exact nofun

/-- White space in front keeps a text that closes a name one. -/
theorem Closed.append {s : List Char} (b : Blanks) (hs : Closed s) : Closed (b.1 ++ s) := by
  rw [Closed, List.takeWhile_append]
  split
  · exact List.forall_mem_append.2 ⟨b.2, hs⟩
  · exact fun c hc => b.2 c ((List.takeWhile_sublist _).subset hc)

/-- Trimming the end keeps a text that closes a name one. -/
theorem Closed.trimEnd {s : List Char} (hs : Closed s) : Closed (trimEnd s) := by
  obtain ⟨b, hsplit, -⟩ := exists_trimEnd_append s
  intro c hc
  refine hs c ?_
  rw [hsplit, List.takeWhile_append]
  split
  · exact List.mem_append_left _ ((List.takeWhile_sublist _).subset hc)
  · exact hc

/-- The name is read up to the text that closes it. -/
theorem packageName_append (n : PackageName) {s : List Char} (hs : Closed s) :
    packageName (n.text ++ s) = n.text := by
  have hname : ∀ c ∈ n.text, (!endsName c) = true := fun c hc => by rw [n.endsName_text c hc]; rfl
  rw [packageName, List.takeWhile_append_of_pos hname, trim_append_blank _ hs, n.trim_text]

namespace Requirement

/-- The name ends where it is printed to end, whatever parts follow it. -/
theorem closed_behind (r : Requirement) : Closed r.behind := by
  refine .append r.behindName ?_
  rw [extrasText]
  cases r.extras? with
  | some e => exact closed_cons (by decide) _
  | none =>
      rw [List.nil_append, tail, versionPart, List.append_assoc, List.append_assoc]
      refine .append r.behindExtras ?_
      rw [versionText]
      cases r.version? with
      | some v => exact closed_cons (endsName_operator v.operator_mem) _
      | none =>
          refine .append r.behindVersion ?_
          rw [markerText]
          cases r.marker? with
          | some m => exact closed_cons (by decide) _
          | none =>
              exact List.append_nil r.behindMarker.1 ▸ Closed.append r.behindMarker (s := []) nofun

end Requirement

/-! ## Versions -/

/-- What is in front of a marker, without the white space around it. -/
theorem trim_takeWhile {w : List Char} (hw : ';' ∉ w) {s : List Char}
    (hs : AllBlank s ∨ ∃ t, s = ';' :: t) :
    trim ((trim (w ++ s)).takeWhile (· != ';')) = trim w := by
  rcases hs with hs | ⟨t, rfl⟩
  · have hfree : ∀ c ∈ trim w, (c != ';') = true := fun c hc =>
      bne_iff_ne.2 fun h => hw (h ▸ trim_subset w hc)
    rw [trim_append_blank w hs, List.takeWhile_eq_self_iff.2 hfree, trim_trim]
  · obtain ⟨b, hb, hsplit⟩ := exists_append_trimStart w
    have hfree : ∀ c ∈ trimStart w, (c != ';') = true := fun c hc =>
      bne_iff_ne.2 fun h => hw (h ▸ hsplit ▸ List.mem_append_right b hc)
    have hsolid : Solid (trimStart w ++ [';']) := solid_append_singleton _ isBlank_semicolon
    have htrim : trim (w ++ ';' :: t) = trimStart w ++ ';' :: trimEnd t := by
      rw [trim, trimStart_append_cons w isBlank_semicolon]
      simpa using trimEnd_append_of_solid hsolid t
    rw [htrim, List.takeWhile_append_of_pos hfree, List.takeWhile_cons_of_neg (by decide),
      List.append_nil]
    exact (trim_blank_append hb _).symm.trans (congrArg trim hsplit.symm)

/-- Where no bracket stands there are no extras to drop. -/
theorem dropExtras_cons {c : Char} (hc : c ≠ '[') (s : List Char) :
    dropExtras (c :: s) = c :: s := by
  rw [dropExtras]
  exact fun rest heq => hc (List.cons.inj heq).1

/-- Extras in brackets are dropped with their brackets. -/
theorem dropExtras_bracketed (e : Extras) (s : List Char) :
    dropExtras ('[' :: (e.text ++ ']' :: s)) = trim s := by
  rw [dropExtras, cut?_singleton e.not_bracket]

namespace Requirement

/-- What follows the extras does not open brackets in their place. -/
theorem dropExtras_tail (r : Requirement) : dropExtras (trim r.tail) = trim r.tail := by
  have hopened : ∀ {c : Char} (s : List Char), isBlank c = false → c ≠ '[' →
      dropExtras (trim (c :: s)) = trim (c :: s) := by
    intro c s hc hne
    rw [trim_cons hc, dropExtras_cons hne]
  rw [tail, versionPart, List.append_assoc, List.append_assoc, trim_blank_append r.behindExtras.2,
    versionText]
  cases r.version? with
  | some v =>
      have hne : v.operator ≠ '[' := fun h => absurd (h ▸ v.operator_mem) (by decide)
      exact hopened _ (isBlank_operator v.operator_mem) hne
  | none =>
      rw [List.nil_append, trim_blank_append r.behindVersion.2, markerText]
      cases r.marker? with
      | some m => exact hopened _ isBlank_semicolon (by decide)
      | none =>
          rw [List.nil_append, trim_of_allBlank r.behindMarker.2]
          rfl

/-- Behind the name, the extras are dropped. -/
theorem dropExtras_behind (r : Requirement) :
    dropExtras (trim (trimEnd r.behind)) = trim r.tail := by
  rw [trim_trimEnd, behind, trim_blank_append r.behindName.2, extrasText]
  cases r.extras? with
  | none => exact r.dropExtras_tail
  | some e =>
      have hsolid : Solid (e.text ++ [']']) :=
        solid_append_singleton _ (isBlank_of_printed (by decide) (by decide))
      rw [List.cons_append, trim_cons (isBlank_of_printed (by decide) (by decide)),
        trimEnd_append_of_solid hsolid, List.append_assoc, List.singleton_append,
          dropExtras_bracketed,
        trim_trimEnd]

/-- The version is what stands between the extras and the marker. -/
theorem version_tail (r : Requirement) :
    trim ((trim r.tail).takeWhile (· != ';')) = trim r.versionText := by
  have hfree : ';' ∉ r.versionPart := by
    have hversion : ';' ∉ r.versionText := by
      rw [versionText]
      cases r.version? with
      | none => exact List.not_mem_nil
      | some v =>
          refine List.not_mem_cons_of_ne_of_not_mem ?_ v.not_semicolon
          exact fun h => absurd (h ▸ v.operator_mem) (by decide)
    simp [versionPart, hversion, not_mem_blanks _ isBlank_semicolon]
  have hmarker : AllBlank (r.markerText ++ r.behindMarker.1) ∨
      ∃ t, r.markerText ++ r.behindMarker.1 = ';' :: t := by
    rw [markerText]
    cases r.marker? with
    | none => exact .inl r.behindMarker.2
    | some m => exact .inr ⟨_, rfl⟩
  rw [tail, trim_takeWhile hfree hmarker, versionPart, trim_blank_append r.behindExtras.2,
    trim_append_blank _ r.behindVersion.2]

/-- There is a version if one is printed. -/
theorem version_eq (r : Requirement) :
    (if (trim r.versionText).isEmpty then none else some (String.ofList (trim r.versionText))) =
      r.version?.map fun v => String.ofList (trim v.text) := by
  rw [versionText]
  cases r.version? with
  | none => rfl
  | some v =>
      have hne : ¬ (trim v.text).isEmpty = true := by
        rw [Version.text, trim_cons (isBlank_operator v.operator_mem)]
        exact Bool.false_ne_true
      exact if_neg hne

/-! ## Requirements -/

/-- The line without its comment starts with the name. -/
theorem trim_body (r : Requirement) : trim r.body = r.name.text ++ trimEnd r.behind := by
  have hstart : trimStart (r.name.text ++ r.behind) = r.name.text ++ r.behind :=
    trimStart_cons (isBlank_of_isAlphanum r.name.first_alphanum) _
  rw [body, trim_blank_append r.indent.2, trim, hstart, trimEnd_append_of_solid r.name.solid_text]

/-- A requirement is read back. -/
theorem requirement?_body (r : Requirement) (file : String) (line : Nat) :
    requirement? (trim r.body) file line = some (r.dependency file line) := by
  have hname : packageName (trim r.body) = r.name.text := by
    rw [r.trim_body, packageName_append r.name r.closed_behind.trimEnd]
  have hdrop : (trim r.body).drop r.name.text.length = trimEnd r.behind := by
    rw [r.trim_body, List.drop_left]
  simp only [requirement?, trim_trim, hname, hdrop, r.dropExtras_behind, r.version_tail,
    r.version_eq]
  rfl

/-- A requirement is read as its dependency. -/
theorem requirementLine?_text (r : Requirement) (file : String) (line : Nat) :
    requirementLine? r.text file line = some (r.dependency file line) := by
  have hread := r.requirement?_body file line
  have hbody : trim r.body = r.name.first :: (r.name.rest ++ trimEnd r.behind) := r.trim_body
  have hhash : r.name.first ≠ '#' := fun h => absurd (h ▸ r.name.first_alphanum) (by decide)
  have hhyphen : r.name.first ≠ '-' := fun h => absurd (h ▸ r.name.first_alphanum) (by decide)
  rw [hbody] at hread
  rw [requirementLine?, r.upTo_text, hbody]
  split
  · next heq => cases heq
  · next heq => exact absurd (List.cons.inj heq).1 hhash
  · next heq => exact absurd (List.cons.inj heq).1 hhyphen
  · exact hread

end Requirement

/-! ## Other lines -/

/-- A line whose first visible character marks it as a comment or an option names nothing, also if a
comment is cut off in front of this character. -/
theorem requirementLine?_mark {c : Char} (hc : c = '#' ∨ c = '-') (indent : Blanks)
    (rest : List Char) (file : String) (line : Nat) :
    requirementLine? (indent.1 ++ c :: rest) file line = none := by
  have hvisible : isBlank c = false := by
    rcases hc with rfl | rfl
    · exact isBlank_hash
    · exact isBlank_hyphen
  obtain ⟨back, hback⟩ := upTo_prefix commentMark (indent.1 ++ c :: rest)
  rw [requirementLine?]
  rcases List.append_eq_append_iff.1 hback with ⟨a, hindent, -⟩ | ⟨a, hcut, hrest⟩
  · have hblank : AllBlank (upTo commentMark (indent.1 ++ c :: rest)) := fun d hd =>
      indent.2 d (hindent ▸ List.mem_append_left a hd)
    rw [trim_of_allBlank hblank]
  · rw [hcut, trim_blank_append indent.2]
    cases a with
    | nil => rfl
    | cons d a =>
        obtain rfl := (List.cons.inj hrest).1
        rw [trim_cons hvisible]
        rcases hc with rfl | rfl <;> rfl

/-- A blank line is no dependency. -/
theorem requirementLine?_blank (s : Blanks) (file : String) (line : Nat) :
    requirementLine? s.1 file line = none := by
  have hin : ¬ commentMark <:+: s.1 := fun h => not_mem_blanks s isBlank_hash (h.subset (by decide))
  rw [requirementLine?, upTo_of_not_infix hin, trim_of_allBlank s.2]

/-! ## Files -/

/-- A line is read back. -/
theorem requirementLine?_eq (l : RequirementLine) (file : String) (line : Nat) :
    requirementLine? l.text file line = l.dependency? file line := by
  cases l with
  | blank s => exact requirementLine?_blank s file line
  | comment indent text => exact requirementLine?_mark (.inl rfl) indent text file line
  | option indent text => exact requirementLine?_mark (.inr rfl) indent text file line
  | requirement r => exact r.requirementLine?_text file line

/-- Lines are read back one after the other, each with its number. -/
theorem requirementLines_eq (ls : List RequirementLine) (file : String) (number : Nat) :
    requirementLines file number (ls.map RequirementLine.text) =
      (ls.zipIdx number).filterMap fun (l, n) => l.dependency? file n := by
  induction ls generalizing number with
  | nil => rfl
  | cons l ls ih =>
      rw [List.map_cons, requirementLines, requirementLine?_eq, ih, List.zipIdx_cons]
      cases hl : l.dependency? file number with
      | none => simp [hl]
      | some d => simp [hl]

/-- A file of blank lines, comments, options and requirements is read as the dependencies that its
requirements name, in order and with the numbers of their lines. -/
theorem requirements_of_lines {text : List Char} {ls : List RequirementLine}
    (hlines : lines text = ls.map RequirementLine.text) (file : String) :
    requirements text file = (ls.zipIdx 1).filterMap fun (l, n) => l.dependency? file n := by
  rw [requirements, hlines, requirementLines_eq]

/-- Comments, brackets and operators in a marker are no part of the version. -/
theorem requirements_of_lines_marked :
    requirements "# web\n x [a,b] >=2 ; m < '#[1]' # c #\n-r base\n\nboto3".toList "r.txt" =
      [{ name := "x", version := some ">=2", file := "r.txt", line := 2 },
        { name := "boto3", file := "r.txt", line := 5 }] := by
  let nothing : Blanks := ⟨[], nofun⟩
  let space : Blanks := ⟨[' '], allBlank_space⟩
  -- every part that a line can have, and none
  let marked : Requirement :=
    { indent := space
      name := ⟨'x', [], by decide, nofun⟩
      behindName := space
      extras? := some ⟨"a,b".toList, by decide, by decide⟩
      behindExtras := space
      version? := some ⟨'>', ['=', '2'], by decide, by decide, by decide, by decide⟩
      behindVersion := space
      marker? := some ⟨" m < '#[1]'".toList, by simp [List.infix_cons_iff]⟩
      behindMarker := nothing
      comment? := some " c #".toList }
  let plain : Requirement :=
    { indent := nothing
      name := ⟨'b', "oto3".toList, by decide, by simp⟩
      behindName := nothing
      extras? := none
      behindExtras := nothing
      version? := none
      behindVersion := nothing
      marker? := none
      behindMarker := nothing
      comment? := none }
  have hlines : lines "# web\n x [a,b] >=2 ; m < '#[1]' # c #\n-r base\n\nboto3".toList =
      ["# web", " x [a,b] >=2 ; m < '#[1]' # c #", "-r base", "", "boto3"].map String.toList := by
        decide
  have hversion : trim ['>', '=', '2'] = ['>', '=', '2'] := trim_of_printed rfl rfl
  have hread := @requirements_of_lines _ [.comment nothing " web".toList, .requirement marked,
    .option nothing "r base".toList, .blank nothing, .requirement plain] hlines "r.txt"
  simpa [RequirementLine.dependency?, Requirement.dependency, marked, plain, PackageName.text,
    Version.text, hversion] using hread

end CodeAtlas.Manifest
