import CodeAtlas.Text.Offset
import CodeAtlas.Unicode.Property

/-!
# Trimming, searching and cutting texts

Operations on lists of characters: white space at the ends, the first place of a word, pieces
between separators, lines. `Str` versions of a few of them work on strings.
-/

namespace CodeAtlas.Text

open Unicode (isBlank)

/-- The text without white space in front. -/
def trimStart (text : List Char) : List Char := text.dropWhile isBlank

/-- The text without the characters at its end that satisfy `p`. -/
def trimEndWhile (p : Char → Bool) (text : List Char) : List Char :=
  (text.reverse.dropWhile p).reverse

/-- The text without white space at its end. -/
def trimEnd (text : List Char) : List Char := trimEndWhile isBlank text

/-- The text without white space at its ends. -/
def trim (text : List Char) : List Char := trimEnd (trimStart text)

/-- The text without the characters at its ends that satisfy `p`. -/
def trimWhile (p : Char → Bool) (text : List Char) : List Char :=
  trimEndWhile p (text.dropWhile p)

/-- What follows `lead` in the text, if it starts so. -/
def after? : (lead text : List Char) → Option (List Char)
  | [], text => some text
  | _ :: _, [] => none
  | a :: lead, c :: text => if a = c then after? lead text else none

/-- What stands behind a lead. -/
theorem after?_eq_some_iff {lead text rest : List Char} :
    after? lead text = some rest ↔ text = lead ++ rest := by
  induction lead generalizing text with
  | nil => simp [after?, eq_comm]
  | cons a lead ih =>
      cases text with
      | nil => simp [after?]
      | cons c text =>
          by_cases h : a = c
          · simp [after?, h, ih]
          · simp [after?, h, Ne.symm h]

/-- Whether the text starts with `lead`. -/
def startsWith (text lead : List Char) : Bool := (after? lead text).isSome

/-- A text starts with its prefixes. -/
theorem startsWith_iff {text lead : List Char} : startsWith text lead = true ↔ lead <+: text := by
  rw [startsWith, Option.isSome_iff_exists]
  exact exists_congr fun rest => after?_eq_some_iff.trans eq_comm

/-- Whether the text ends with `tail`. -/
def endsWith (text tail : List Char) : Bool := startsWith text.reverse tail.reverse

/-- The text in front of `tail`, if the text ends with it. -/
def before? (tail text : List Char) : Option (List Char) :=
  (after? tail.reverse text.reverse).map List.reverse

/-- Cuts at the first place where `word` stands: the text in front of it and the text after it. -/
def cut? (word text : List Char) : Option (List Char × List Char) := go [] text
where
  /-- Looks for `word` in the text behind `seen`, which is in reverse. -/
  go (seen : List Char) : List Char → Option (List Char × List Char)
    | [] => if word.isEmpty then some (seen.reverse, []) else none
    | c :: text =>
        match after? word (c :: text) with
        | some rest => some (seen.reverse, rest)
        | none => go (c :: seen) text

/-- A text is cut at the first place of the word behind what has been seen. -/
private theorem cut?_go_eq_some_iff {word seen text front rest : List Char} :
    cut?.go word seen text = some (front, rest) ↔
      ∃ part, front = seen.reverse ++ part ∧ text = part ++ (word ++ rest)
        ∧ ∀ a b, part = a ++ b → b ≠ [] → ¬ word <+: b ++ (word ++ rest) := by
  induction text generalizing seen with
  | nil =>
      cases word with
      | nil =>
          constructor
          · intro h
            simp only [cut?.go, List.isEmpty_nil, ite_true, Option.some.injEq, Prod.mk.injEq] at h
            obtain ⟨rfl, rfl⟩ := h
            exact ⟨[], by simp, rfl, fun a b h hb => absurd (List.append_eq_nil_iff.1 h.symm).2 hb⟩
          · rintro ⟨part, rfl, htext, -⟩
            obtain ⟨rfl, hrest⟩ := List.append_eq_nil_iff.1 htext.symm
            rw [List.nil_append] at hrest
            subst hrest
            simp [cut?.go]
      | cons a word => simp [cut?.go]
  | cons c text ih =>
      rw [cut?.go]
      cases h : after? word (c :: text) with
      | some r =>
          have htext := after?_eq_some_iff.1 h
          constructor
          · rintro ⟨⟩
            exact ⟨[],
              by simp, htext, fun a b h hb => absurd (List.append_eq_nil_iff.1 h.symm).2 hb⟩
          · rintro ⟨part, rfl, hpart, hfirst⟩
            cases part with
            | nil =>
                have hrest : r = rest := List.append_cancel_left (htext.symm.trans hpart)
                simp [hrest]
            | cons d part =>
                exact absurd ⟨r, htext.symm.trans hpart⟩
                  (hfirst [] (d :: part) rfl (List.cons_ne_nil d part))
      | none =>
          have hnone : ¬ word <+: c :: text := fun ⟨r, hr⟩ => by
            rw [after?_eq_some_iff.2 hr.symm] at h
            cases h
          simp only [ih]
          constructor
          · rintro ⟨part, rfl, rfl, hfirst⟩
            refine ⟨c :: part, by simp, rfl, fun a b hsplit hb => ?_⟩
            cases a with
            | nil =>
                rw [List.nil_append] at hsplit
                exact hsplit ▸ hnone
            | cons d a => exact hfirst a b (List.cons.inj hsplit).2 hb
          · rintro ⟨part, rfl, hpart, hfirst⟩
            cases part with
            | nil => exact absurd ⟨rest, hpart.symm⟩ hnone
            | cons d part =>
                obtain ⟨rfl, rfl⟩ := List.cons.inj hpart
                exact ⟨part,
                  by simp, rfl, fun a b hsplit hb => hfirst (c :: a) b (by rw [hsplit]; rfl) hb⟩

/-- A text is cut at a word where the word stands and does not start earlier. -/
theorem cut?_eq_some_iff {word text front rest : List Char} :
    cut? word text = some (front, rest) ↔ text = front ++ (word ++ rest)
      ∧ ∀ a b, front = a ++ b → b ≠ [] → ¬ word <+: b ++ (word ++ rest) := by
  rw [cut?, cut?_go_eq_some_iff]
  simp

/-- The parts of a cut and the word make up the text. -/
theorem eq_append_of_cut? {word text front rest : List Char}
    (h : cut? word text = some (front, rest)) : text = front ++ word ++ rest := by
  rw [List.append_assoc]
  exact (cut?_eq_some_iff.1 h).1

/-- A text is cut at a word just if the word stands in it. -/
theorem isSome_cut?_iff {word text : List Char} :
    (cut? word text).isSome = true ↔ word <:+: text := by
  constructor
  · intro h
    obtain ⟨⟨front, rest⟩, hcut⟩ := Option.isSome_iff_exists.1 h
    exact ⟨front, rest, (eq_append_of_cut? hcut).symm⟩
  · have hgo : ∀ (text seen : List Char), word <:+: text →
        (cut?.go word seen text).isSome = true := by
      intro text
      induction text with
      | nil =>
          intro seen h
          rw [cut?.go, List.infix_nil.1 h]
          rfl
      | cons c text ih =>
          intro seen h
          rw [cut?.go]
          cases hafter : after? word (c :: text) with
          | some rest => rfl
          | none =>
              refine ih _ ((List.infix_cons_iff.1 h).resolve_left ?_)
              rintro ⟨rest, hrest⟩
              rw [after?_eq_some_iff.2 hrest.symm] at hafter
              cases hafter
    exact hgo text []

/-- A text is not cut at a word that stands nowhere in it. -/
theorem cut?_eq_none {word text : List Char} (h : ¬ word <:+: text) : cut? word text = none := by
  cases hcut : cut? word text with
  | none => rfl
  | some p => exact absurd (isSome_cut?_iff.1 (by rw [hcut]; rfl)) h

/-- A text is cut at a word in front of which the first character of the word does not stand. -/
theorem cut?_of_not_mem {c : Char} {front : List Char} (h : c ∉ front) (word rest : List Char) :
    cut? (c :: word) (front ++ (c :: word ++ rest)) = some (front, rest) := by
  refine cut?_eq_some_iff.2 ⟨rfl, ?_⟩
  rintro a b rfl hb ⟨back, hback⟩
  obtain ⟨d, b, rfl⟩ := List.exists_cons_of_ne_nil hb
  obtain rfl := (List.cons.inj hback).1
  exact h (List.mem_append_right a List.mem_cons_self)

/-- A text without the first character of a word is not cut at the word. -/
theorem cut?_eq_none_of_not_mem {c : Char} {text : List Char} (h : c ∉ text) (word : List Char) :
    cut? (c :: word) text = none :=
  cut?_eq_none fun hpart => h (hpart.subset List.mem_cons_self)

/-- A text is cut at the first place of a character. -/
theorem cut?_singleton {c : Char} {front : List Char} (h : c ∉ front) (rest : List Char) :
    cut? [c] (front ++ c :: rest) = some (front, rest) :=
  cut?_of_not_mem h [] rest

/-- The text, given in reverse, without the words `word`, in reverse, at its end; `n` is its
length. -/
def dropWords (word : List Char) : Nat → List Char → List Char
  | 0, back => back
  | n + 1, back =>
      match after? word back with
      | some rest => dropWords word n rest
      | none => back

/-- The text without any `word` at its end. -/
def trimEndWord (word text : List Char) : List Char :=
  (dropWords word.reverse text.length text.reverse).reverse

/-- The text without any `word` in front. -/
def trimStartWord (word text : List Char) : List Char := dropWords word text.length text

/-- Whether `word` stands somewhere in the text. -/
def containsWord (text word : List Char) : Bool := (cut? word text).isSome

/-- A text contains its parts. -/
theorem containsWord_iff {text word : List Char} : containsWord text word = true ↔ word <:+: text :=
  isSome_cut?_iff

/-- The byte offset of the first place where `word` stands. -/
def indexOf? (text word : List Char) : Option Nat := (cut? word text).map fun p => byteLength p.1

/-- Cuts at the last place where `word` stands. -/
def cutLast? (word text : List Char) : Option (List Char × List Char) :=
  (cut? word.reverse text.reverse).map fun (back, front) => (front.reverse, back.reverse)

/-- The text in front of the first `word`, if there is one. -/
def upTo? (word text : List Char) : Option (List Char) := (cut? word text).map (·.1)

/-- The text in front of the first `word`, or all of it. -/
def upTo (word text : List Char) : List Char := (upTo? word text).getD text

/-- The text up to a word is the beginning of the text. -/
theorem upTo_prefix (word text : List Char) : upTo word text <+: text := by
  rw [upTo, upTo?]
  cases hcut : cut? word text with
  | none => exact List.prefix_refl text
  | some p => exact ⟨word ++ p.2, (cut?_eq_some_iff.1 hcut).1.symm⟩

/-- A text is all that stands in front of a word that it does not contain. -/
theorem upTo_of_not_infix {word text : List Char} (h : ¬ word <:+: text) :
    upTo word text = text := by
  rw [upTo, upTo?, cut?_eq_none h]
  rfl

/-- The text behind the last `word`, or all of it. -/
def lastPiece (word text : List Char) : List Char := ((cutLast? word text).map (·.2)).getD text

/-- The pieces between the characters that satisfy `p`, in order. -/
def splitWhere (p : Char → Bool) (text : List Char) : List (List Char) := go [] [] text
where
  /-- Goes on with `pieces` found and `piece` begun, both in reverse. -/
  go (pieces : List (List Char)) (piece : List Char) : List Char → List (List Char)
    | [] => (piece.reverse :: pieces).reverse
    | c :: text => if p c then go (piece.reverse :: pieces) [] text else go pieces (c :: piece) text

/-- The pieces between the occurrences of `sep`, in order. -/
def splitChar (sep : Char) (text : List Char) : List (List Char) := splitWhere (· == sep) text

/-- The pieces between the places where `sep`, of at least one character, stands. -/
def splitWord (sep : List Char) (text : List Char) : List (List Char) :=
  if _h : sep = [] then [text]
  else match _hc : cut? sep text with
    | none => [text]
    | some (front, rest) => front :: splitWord sep rest
termination_by text.length
decreasing_by
  have := eq_append_of_cut? _hc
  have : 0 < sep.length := List.length_pos_iff.2 _h
  simp_all
  omega

/-- The words between white space. -/
def words (text : List Char) : List (List Char) := (splitWhere isBlank text).filter (!·.isEmpty)

/-- A line without the carriage return at its end. -/
def dropReturn (line : List Char) : List Char :=
  if line.getLast? = some '\r' then line.dropLast else line

/-- The lines of the text, without their ends. What follows the last newline is a line only if it
is not empty. -/
def lines (text : List Char) : List (List Char) :=
  let pieces := splitChar '\n' text
  match pieces.getLast? with
  | some [] => pieces.dropLast.map dropReturn
  | some last =>
      -- a return is part of the line end only in front of a newline
      pieces.dropLast.map dropReturn ++ [last]
  | none => []

/-- The text with every place where `old` stands replaced by `new`. -/
def replace (old new text : List Char) : List Char := new.intercalate (splitWord old text)

/-- The characters with capital ASCII letters made small. -/
def asciiLower (text : List Char) : List Char := text.map Char.toLower

/-- Writes a name in small letters with underscores for hyphens and spaces, and in front of a
capital letter behind a small one or a digit; `low` says whether such a character stands in
front. -/
def snakeFrom (low : Bool) : List Char → List Char
  | [] => []
  | c :: text =>
      if c.isUpper then
        if low then '_' :: c.toLower :: snakeFrom false text else c.toLower :: snakeFrom false text
      else
        (if c == '-' || c == ' ' then '_' else c) :: snakeFrom (c.isLower || c.isDigit) text

/-- The name in small letters with underscores between its words. -/
def snakeCase (text : List Char) : List Char := snakeFrom false text

/-- The text without the quotes around it, if there is one at each end. -/
def unquote (text : List Char) : List Char :=
  let text := trim text
  let quotes := ['"', '\'', Char.ofNat 96]
  match text with
  | first :: second :: rest =>
      if quotes.contains first && (second :: rest).getLast? == some first
        then (second :: rest).dropLast
      else text
  | _ => text

end CodeAtlas.Text

namespace CodeAtlas

/-- The string without white space at its ends. -/
def trimmed (s : String) : String := String.ofList (Text.trim s.toList)

/-- The string with capital ASCII letters made small. -/
def asciiLowered (s : String) : String := s.map Char.toLower

/-- The string with small ASCII letters made capital. -/
def asciiUppered (s : String) : String := s.map Char.toUpper

/-- The name in small letters with underscores between its words. -/
def snakeCased (s : String) : String := String.ofList (Text.snakeCase s.toList)

/-- The string without the quotes around it. -/
def unquoted (s : String) : String := String.ofList (Text.unquote s.toList)

/-- Whether `word` stands somewhere in `s`. -/
def hasWord (s word : String) : Bool := Text.containsWord s.toList word.toList

end CodeAtlas
