import CodeAtlas.Json.Reader

/-!
# Strings in configuration documents

A string stands in one or three quotes of one of two kinds: in double quotes it may hold escapes,
in single quotes every character stands for itself. Loops take `fuel`, more than the characters of
the text.
-/

namespace CodeAtlas.Toml

/-- Whether a character is a blank inside a line. -/
def isSpace (c : Char) : Bool := c == ' ' || c == '\t'

/-- The text without blanks in front. -/
def skipSpace (text : List Char) : List Char := text.dropWhile isSpace

/-- Whether a character may stand in a comment or a literal string. -/
def isPlain (c : Char) : Bool := c == '\t' || (32 ≤ c.toNat && c.toNat != 127)

/-- The character of a code point written in `width` hexadecimal digits. -/
def codePoint? (width : Nat) (text : List Char) : Option (Char × List Char) := do
  let digits := text.take width
  if digits.length < width then none
  let n ← digits.foldlM (fun n c => (Json.hexDigitValue? c).map (16 * n + ·)) 0
  if h : n.isValidChar then some (Char.ofNatAux n h, text.drop width) else none

/-- Reads what follows a backslash in a string. -/
def escape? (text : List Char) : Option (Char × List Char) :=
  match text with
  | 'b' :: rest => some ('\x08', rest)
  | 't' :: rest => some ('\t', rest)
  | 'n' :: rest => some ('\n', rest)
  | 'f' :: rest => some ('\x0c', rest)
  | 'r' :: rest => some ('\r', rest)
  | '"' :: rest => some ('"', rest)
  | '\\' :: rest => some ('\\', rest)
  | 'u' :: rest => codePoint? 4 rest
  | 'U' :: rest => codePoint? 8 rest
  | _ => none

/-- Reads a string behind its quote, onto the characters `read`, in reverse. -/
def basicString? : (fuel : Nat) → (read : List Char) → List Char → Option (String × List Char)
  | 0, _, _ => none
  | fuel + 1, read, text =>
      match text with
      | '"' :: rest => some (String.ofList read.reverse, rest)
      | '\\' :: rest => do
        let (c, rest) ← escape? rest
        basicString? fuel (c :: read) rest
      | c :: rest => if isPlain c then basicString? fuel (c :: read) rest else none
      | [] => none

/-- Reads a string without escapes behind its quote. -/
def literalString? (text : List Char) : Option (String × List Char) :=
  let (body, rest) := text.span fun c => c != '\'' && isPlain c
  match rest with
  | '\'' :: rest => some (String.ofList body, rest)
  | _ => none

/-- The text without blanks and line ends in front. -/
def skipBlankLines : List Char → List Char
  | '\r' :: '\n' :: rest => skipBlankLines rest
  | c :: rest => if isSpace c || c == '\n' then skipBlankLines rest else c :: rest
  | [] => []

/-- The text behind a backslash at the end of a line: all blanks and line ends are passed over. -/
def foldedLine? (text : List Char) : Option (List Char) :=
  match skipSpace text with
  | '\n' :: rest => some (skipBlankLines rest)
  | '\r' :: '\n' :: rest => some (skipBlankLines rest)
  | _ => none

/-- The number of quotes in front of a text, at most five. -/
def quoteCount (quote : Char) (text : List Char) : Nat :=
  ((text.take 5).takeWhile (· == quote)).length

/-- Reads a string over several lines, behind its quotes, onto the characters `read`, in reverse.
Quotes in front of the three at its end belong to it. -/
def longString? (quote : Char) :
    (fuel : Nat) → (read : List Char) → List Char → Option (String × List Char)
  | 0, _, _ => none
  | fuel + 1, read, text =>
      match text with
      | [] => none
      | '\r' :: '\n' :: rest => longString? quote fuel ('\n' :: read) rest
      | '\n' :: rest => longString? quote fuel ('\n' :: read) rest
      | c :: rest =>
          if c == quote then
            let count := quoteCount quote text
            if 3 ≤ count then
              some (String.ofList (List.replicate (count - 3) quote ++ read).reverse,
                text.drop count)
            else longString? quote fuel (quote :: read) rest
          else if c == '\\' && quote == '"' then
            match foldedLine? rest with
            | some rest => longString? quote fuel read rest
            | none => do
              let (c, rest) ← escape? rest
              longString? quote fuel (c :: read) rest
          else if isPlain c then longString? quote fuel (c :: read) rest
          else none

/-- The text without a line end in front. -/
def dropLineEnd : List Char → List Char
  | '\n' :: rest => rest
  | '\r' :: '\n' :: rest => rest
  | text => text

/-- Reads a string behind its first quote. -/
def string? (quote : Char) (fuel : Nat) (text : List Char) : Option (String × List Char) :=
  if text.take 2 == [quote, quote] then longString? quote fuel [] (dropLineEnd (text.drop 2))
  else if quote == '"' then basicString? fuel [] text
  else literalString? text

end CodeAtlas.Toml
