import CodeAtlas.Json.Reader
import CodeAtlas.Text.Basic

/-!
# Repairing JSON that was cut off

A model's reply may end before its JSON does. The repair closes what is open: an unfinished string
is closed, a trailing comma or a key without a value is dropped, a colon at the end gets a `null`,
an unfinished literal is completed, and the missing brackets are appended.
-/

namespace CodeAtlas.Reply

open Text Unicode

/-! ## What is open -/

/-- The state of reading JSON at some point: the brackets that are open, innermost first, whether
the point lies in a string, and whether a backslash comes before it there. -/
structure Openings where
  brackets : List Char := []
  inString : Bool := false
  escaped : Bool := false
  deriving DecidableEq, Repr

/-- The state after one more character. -/
def Openings.step (s : Openings) (c : Char) : Openings :=
  if s.inString then
    if s.escaped then { s with escaped := false }
    else if c == '\\' then { s with escaped := true }
    else if c == '"' then { s with inString := false }
    else s
  else if c == '"' then { s with inString := true }
  else if c == '[' || c == '\x7b' then { s with brackets := c :: s.brackets }
  else if c == ']' || c == '\x7d' then { s with brackets := s.brackets.tail }
  else s

/-- The state at the end of a text. -/
def openings (text : List Char) : Openings := text.foldl Openings.step {}

/-- Closes a string that the text leaves open; a lone backslash at its end is dropped. -/
def closeString (text : List Char) : List Char :=
  let s := openings text
  if s.inString then (if s.escaped then text.dropLast else text) ++ ['"'] else text

/-! ## Dropping what has no value -/

/-- Whether a text, behind a string's opening quote, holds the rest of the string and then only
blanks. -/
def endsString : List Char → Bool
  | [] => false
  | '\\' :: c :: rest => c != '\n' && endsString rest
  | c :: rest => if c == '"' then rest.all isBlank else c != '\\' && endsString rest

/-- Whether a text is one string with blanks around it. -/
def isLoneString (text : List Char) : Bool :=
  match trimStart text with
  | '"' :: rest => endsString rest
  | _ => false

/-- Drops a key without a colon at the end of the text: what follows an opening brace, or a comma
and what follows it. -/
def dropLoneKey? : List Char → Option (List Char)
  | [] => none
  | c :: rest =>
      if c == '\x7b' && isLoneString rest then some [c]
      else if c == ',' && isLoneString rest then some []
      else (dropLoneKey? rest).map (c :: ·)

/-- Dropping a key leaves a shorter text. -/
theorem length_lt_of_dropLoneKey? {text kept : List Char} (h : dropLoneKey? text = some kept) :
    kept.length < text.length := by
  induction text generalizing kept with
  | nil => simp [dropLoneKey?] at h
  | cons c rest ih =>
      unfold dropLoneKey? at h
      split at h
      · next hc =>
        cases h
        cases rest with
        | nil => simp [isLoneString, trimStart] at hc
        | cons => simp
      · split at h
        · cases h; simp
        · obtain ⟨k, hk, rfl⟩ := Option.map_eq_some_iff.1 h
          simpa using ih hk

/-- The text without one trailing comma or key, if it has any. -/
def dropDangling? (text : List Char) : Option (List Char) :=
  if text.getLast? == some ',' then some text.dropLast
  else if (openings text).brackets.head? == some '\x7b' then dropLoneKey? text
  else none

/-- A step that drops something leaves a shorter text. -/
theorem length_lt_of_dropDangling? {text kept : List Char} (h : dropDangling? text = some kept) :
    kept.length < text.length := by
  unfold dropDangling? at h
  split at h
  · next hc =>
    cases h
    cases text with
    | nil => simp at hc
    | cons => simp
  · split at h
    · exact length_lt_of_dropLoneKey? h
    · cases h

/-- Trimming the end never lengthens a text. -/
theorem length_trimEnd_le (text : List Char) : (trimEnd text).length ≤ text.length := by
  have h := (List.dropWhile_suffix isBlank (l := text.reverse)).length_le
  simpa [trimEnd, trimEndWhile] using h

/-- The text without its trailing blanks, commas and keys that have no value. -/
def dropAllDangling (text : List Char) : List Char :=
  match _h : dropDangling? (trimEnd text) with
  | some kept => dropAllDangling kept
  | none => trimEnd text
termination_by text.length
decreasing_by
  exact Nat.lt_of_lt_of_le (length_lt_of_dropDangling? _h) (length_trimEnd_le text)

/-! ## Completing values -/

/-- The literals of JSON. -/
def literals : List (List Char) := ["true".toList, "false".toList, "null".toList]

/-- The literal of which a text is an unfinished part. -/
def unfinished? (text : List Char) : Option (List Char) :=
  if text.isEmpty then none
  else literals.find? fun literal => startsWith literal text && text.length < literal.length

/-- Whether a value may follow a character. -/
def opensValue (c : Char) : Bool := c == '[' || c == ':' || c == ','

/-- Completes a literal that the text leaves unfinished behind a bracket, a colon or a comma. -/
def completeLiteral : List Char → List Char
  | [] => []
  | c :: rest =>
      match if opensValue c then unfinished? (trimStart rest) else none with
      | some literal => c :: (rest.takeWhile isBlank ++ literal)
      | none => c :: completeLiteral rest

/-- Gives a colon at the end of the text a value. -/
def completeMember (text : List Char) : List Char :=
  if text.getLast? == some ':' then text ++ " null".toList else text

/-- The closing bracket of an open one. -/
def closing (opener : Char) : Char := if opener == '\x7b' then '\x7d' else ']'

/-- Appends the closing brackets that the text lacks. -/
def closeBrackets (text : List Char) : List Char := text ++ (openings text).brackets.map closing

/-- The text with everything closed that it leaves open. -/
def repair (text : List Char) : List Char :=
  closeBrackets (completeLiteral (completeMember (dropAllDangling (closeString (trimEnd text)))))

/-- The document that a text holds, after a repair if it holds none as it stands. -/
def parse? (text : List Char) : Option Json :=
  match Json.parseChars? text with
  | some j => some j
  | none => Json.parseChars? (repair text)

end CodeAtlas.Reply
