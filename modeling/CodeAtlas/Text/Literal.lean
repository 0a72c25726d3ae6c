import CodeAtlas.Text.Basic
import CodeAtlas.Unicode.Property

/-!
# Literals in texts

Decimal numerals, and texts as they stand in messages.
-/

namespace CodeAtlas.Text

/-! ## Decimal numerals -/

/-- The bound of a machine word. -/
def wordBound : Nat := Nat.pow 2 64

/-- The number that a text of ASCII digits writes. -/
def digitsValue (digits : List Char) : Nat :=
  digits.foldl (fun n c => 10 * n + (c.toNat - 48)) 0

/-- The machine word that a text writes in decimal digits, with an optional plus sign. -/
def word? (text : List Char) : Option Nat :=
  let digits := match text with
    | '+' :: rest => rest
    | rest => rest
  let n := digitsValue digits
  if !digits.isEmpty && digits.all Char.isDigit && n < wordBound then some n else none

/-- The text without a sign in front. -/
def dropSign : List Char → List Char
  | '+' :: rest => rest
  | '-' :: rest => rest
  | rest => rest

/-- Whether a text writes an exponent, or nothing. -/
def isExponent : List Char → Bool
  | [] => true
  | c :: rest =>
      let digits := dropSign rest
      (c == 'e' || c == 'E') && !digits.isEmpty && digits.all Char.isDigit

/-- The words that stand for numbers without digits. -/
def numberWords : List (List Char) := ["inf", "infinity", "nan"].map String.toList

/-- Whether a text writes a decimal number: an optional sign, digits with an optional point, of
which there is at least one, and an optional exponent; or a word for infinity or for no number. -/
def isDecimal (text : List Char) : Bool :=
  let unsigned := dropSign text
  let whole := unsigned.takeWhile Char.isDigit
  let rest := unsigned.drop whole.length
  let (fraction, rest) := match rest with
    | '.' :: more =>
        let fraction := more.takeWhile Char.isDigit
        (fraction, more.drop fraction.length)
    | rest => ([], rest)
  numberWords.contains (asciiLower unsigned) ||
    (!(whole.isEmpty && fraction.isEmpty) && isExponent rest)

/-!
## Quoted texts

In a message a text stands in double quotes. Quotes, backslashes and characters that cannot be seen
are escaped.
-/

/-- Whether a character can be seen, and does not join the one in front of it. -/
def isVisible (c : Char) : Bool :=
  c == ' ' || !(Unicode.currentExtending.contains c || Unicode.currentHidden.contains c ||
    Unicode.currentFillers.contains c)

/-- A character in a quoted text. -/
def quoteChar (c : Char) : List Char :=
  match c with
  | '"' => ['\\', '"']
  | '\\' => ['\\', '\\']
  | '\n' => ['\\', 'n']
  | '\r' => ['\\', 'r']
  | '\t' => ['\\', 't']
  | '\x00' => ['\\', '0']
  | c =>
      if isVisible c then [c] else '\\' :: 'u' :: '\x7b' :: Nat.toDigits 16 c.toNat ++ ['\x7d']

/-- The text in quotes. -/
def quote (text : List Char) : List Char := '"' :: text.flatMap quoteChar ++ ['"']

end CodeAtlas.Text

namespace CodeAtlas

/-- The text in quotes. -/
def quotedText (s : String) : String := String.ofList (Text.quote s.toList)

end CodeAtlas
