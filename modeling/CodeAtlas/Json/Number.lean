import CodeAtlas.Decimal.Shortest

/-!
# Numbers in documents

A number without point and exponent that fits into 64 bits is an integer. Every other number is a
binary floating point number: its digits, as many as fit into 64 bits, are read as an integer,
which is then multiplied or divided by a power of ten.
-/

namespace CodeAtlas.Json

/-- A number of a document. Floating point numbers are given by their bits. -/
inductive Number where
  | int (n : Int)
  | float (bits : UInt64)
  deriving DecidableEq, Repr

/-- The value of a decimal digit. -/
def digitValue (c : Char) : Nat := c.toNat - 48

/-- Adds digits to `sum` while it fits into 64 bits: the sum, how many digits were added, and the
text behind them. -/
def addDigits (sum count : Nat) : List Char → Nat × Nat × List Char
  | [] => (sum, count, [])
  | c :: text =>
      if c.isDigit && 10 * sum + digitValue c < Nat.pow 2 64 then
        addDigits (10 * sum + digitValue c) (count + 1) text
      else (sum, count, c :: text)

/-- The number of digits in front of the text, added to `count`, and the text behind them. -/
def skipDigits (count : Nat) : List Char → Nat × List Char
  | [] => (count, [])
  | c :: text => if c.isDigit then skipDigits (count + 1) text else (count, c :: text)

/-- The power of ten as a floating point number. -/
def power10 (n : Nat) : Float := Float.ofScientific 1 false n

/-- The number `significand * 10 ^ exponent`, or `none` if it is too large. -/
def scaled? (significand : Nat) (exponent : Int) : Option Float :=
  let f := significand.toUInt64.toFloat
  if significand = 0 then some 0
  else if 308 < exponent then none
  else if 0 ≤ exponent then
    let f := f * power10 exponent.toNat
    if f.isInf then none else some f
  else if -308 ≤ exponent then some (f / power10 (-exponent).toNat)
  else if -616 ≤ exponent then some (f / power10 308 / power10 (-exponent - 308).toNat)
  else some 0

/-- The floating point number with a sign. -/
def floatNumber? (negative : Bool) (significand : Nat) (exponent : Int) : Option Number :=
  (scaled? significand exponent).map fun f => .float (if negative then -f else f).toBits

/-- Reads the digits of an exponent: its value and the text behind it. -/
def readPower? (negative : Bool) (text : List Char) : Option (Int × List Char) :=
  let digits := text.takeWhile Char.isDigit
  if digits.isEmpty then none
  else
    let n := digits.foldl (fun n c => 10 * n + digitValue c) 0
    some (if negative then -(n : Int) else n, text.drop digits.length)

/-- Reads an exponent behind its letter. -/
def readExponent? : List Char → Option (Int × List Char)
  | '+' :: text => readPower? false text
  | '-' :: text => readPower? true text
  | text => readPower? false text

/-- Reads an exponent, if there is one, and gives the number. -/
def readScaled? (negative : Bool) (significand : Nat) (exponent : Int) (text : List Char) :
    Option (Number × List Char) :=
  let finish (exponent : Int) (rest : List Char) :=
    (floatNumber? negative significand exponent).map (·, rest)
  match text with
  | 'e' :: text | 'E' :: text => do
    let (e, rest) ← readExponent? text
    finish (exponent + e) rest
  | _ => finish exponent text

/-- Reads the digits behind a point and an exponent. Digits that no longer fit are passed over. -/
def readFraction? (negative : Bool) (significand : Nat) (exponent : Int) (text : List Char) :
    Option (Number × List Char) :=
  let (significand, count, rest) := addDigits significand 0 text
  let (more, rest) := skipDigits 0 rest
  if count + more = 0 then none
  else readScaled? negative significand (exponent - count) rest

/-- The integer with a sign. Minus zero and what does not fit are floating point numbers. -/
def intNumber? (negative : Bool) (n : Nat) : Option Number :=
  if !negative then some (.int n)
  else if n = 0 || Nat.pow 2 63 < n then floatNumber? true n 0
  else some (.int (-(n : Int)))

/-- Reads what follows the digits of a number, `dropped` of which did not fit. -/
def readTail? (negative : Bool) (significand dropped : Nat) (text : List Char) :
    Option (Number × List Char) :=
  match text with
  | '.' :: text => readFraction? negative significand dropped text
  | 'e' :: _ | 'E' :: _ => readScaled? negative significand dropped text
  | _ =>
      if dropped = 0 then (intNumber? negative significand).map (·, text)
      else (floatNumber? negative significand dropped).map (·, text)

/-- Reads a number without its sign. -/
def readUnsigned? (negative : Bool) (text : List Char) : Option (Number × List Char) :=
  match text with
  | '0' :: rest =>
      if (rest.head?.map Char.isDigit).getD false then none else readTail? negative 0 0 rest
  | c :: _ =>
      if c.isDigit then
        let (significand, _, rest) := addDigits 0 0 text
        let (dropped, rest) := skipDigits 0 rest
        readTail? negative significand dropped rest
      else none
  | [] => none

/-- Reads a number in front of the text, and returns the text behind it. -/
def readNumber? : List Char → Option (Number × List Char)
  | '-' :: text => readUnsigned? true text
  | text => readUnsigned? false text

/-- The digits of a natural number. -/
def natChars (n : Nat) : List Char := Nat.toDigits 10 n

/-- The text of an integer. -/
def intChars (n : Int) : List Char :=
  if n < 0 then '-' :: natChars n.natAbs else natChars n.natAbs

/-- The text of a decimal. From `10 ^ -5` up to `10 ^ 16` it has a point and no exponent. -/
def decimalChars (d : Decimal.Scaled) : List Char :=
  let digits := natChars d.digits
  let point := digits.length + d.exponent
  if 0 ≤ d.exponent && point ≤ 16 then
    digits ++ List.replicate d.exponent.toNat '0' ++ ['.', '0']
  else if 0 < point && point ≤ 16 then
    digits.take point.toNat ++ '.' :: digits.drop point.toNat
  else if -5 < point && point ≤ 0 then
    '0' :: '.' :: List.replicate (-point).toNat '0' ++ digits
  else
    let exponent := 'e' :: intChars (point - 1)
    match digits with
    | [d] => d :: exponent
    | d :: more => d :: '.' :: more ++ exponent
    | [] => []

/-- The text of a number. -/
def Number.chars : Number → List Char
  | .int n => intChars n
  | .float bits =>
      let size := bits.toNat % Nat.pow 2 63
      let body := if size = 0 then ['0', '.', '0'] else decimalChars (Decimal.shortest bits)
      if Nat.pow 2 63 ≤ bits.toNat then '-' :: body else body

end CodeAtlas.Json
