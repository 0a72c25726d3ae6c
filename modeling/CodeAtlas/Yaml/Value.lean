import CodeAtlas.Text.Literal
import CodeAtlas.Decimal.Shortest
import CodeAtlas.Json.Reader

/-!
# Plain values

A plain scalar may stand for nothing, for a truth value or for a number.
-/

namespace CodeAtlas.Yaml

open Text

/-- Whether a text stands for nothing. -/
def isNull (s : String) : Bool := ["null", "Null", "NULL", "~"].contains s

/-- The truth value that a text stands for. -/
def truth? (s : String) : Option Bool :=
  if ["true", "True", "TRUE"].contains s then some true
  else if ["false", "False", "FALSE"].contains s then some false
  else none

/-- The number that digits of a base write. -/
def digitsOf? (base : Nat) (digits : List Char) : Option Nat :=
  if digits.isEmpty then none
  else digits.foldlM (fun n c => do
    let d ← Json.hexDigitValue? c
    if d < base then some (n * base + d) else none) 0

/-- Marks in front of the digits of other bases. -/
def baseMarks : List (String × Nat) := [("0x", 16), ("0o", 8), ("0b", 2)]

/-- Whether digits start with a zero that has no place in a number. -/
def hasLeadingZero (digits : List Char) : Bool :=
  1 < digits.length && digits.head? == some '0' && digits.all Char.isDigit

/-- The number of a text without its sign. -/
def magnitude? (text : List Char) : Option Nat :=
  let marked := baseMarks.findSome? fun (mark, base) => (after? mark.toList text) >>= digitsOf? base
  marked.or (if hasLeadingZero text then none else digitsOf? 10 text)

/-- The integer that a text writes. -/
def integer? (s : String) : Option Int :=
  match s.toList with
  | '+' :: text => (magnitude? text).map Int.ofNat
  | '-' :: text => (magnitude? text).map fun n => -(n : Int)
  | text => (magnitude? text).map Int.ofNat

/-- The natural number below a bound that a text writes, without a minus sign. -/
def natural? (bound : Nat) (s : String) : Option Nat :=
  match s.toList, integer? s with
  | '-' :: _, _ => none
  | _, some (.ofNat n) => if n < bound then some n else none
  | _, _ => none

/-- Words for infinity. -/
def infinities : List String := [".inf", ".Inf", ".INF"]

/-- The floating point number with decimal digits that a text writes. -/
def decimal? (text : List Char) : Option Float :=
  let unsigned := dropSign text
  let whole := unsigned.takeWhile Char.isDigit
  let rest := unsigned.drop whole.length
  let fraction := match rest with
    | '.' :: more => more.takeWhile Char.isDigit
    | _ => []
  let scale := (unsigned.dropWhile fun c => c.isDigit || c == '.').drop 1
  let exponent : Int := (match scale with
    | '-' :: digits => -(digitsValue digits : Int)
    | '+' :: digits => digitsValue digits
    | digits => digitsValue digits) - fraction.length
  let digits := digitsValue (whole ++ fraction)
  if !isDecimal text || (whole.isEmpty && fraction.isEmpty) then none
  else if digits = 0 then some (if text.head? == some '-' then -0.0 else 0.0)
  else
    let bounded := max (-100000) (min 100000 exponent)
    let size := Float.ofScientific digits (bounded < 0) bounded.natAbs
    if size.isInf then none else some (if text.head? == some '-' then -size else size)

/-- The floating point number that a text writes. -/
def float? (s : String) : Option Float :=
  let text := s.toList
  let unsigned := if text.head? == some '+' then text.drop 1 else text
  let isSigned := unsigned.head?.any fun c => c == '+' || c == '-'
  if text.head? == some '+' && isSigned then none
  else if infinities.contains (String.ofList unsigned) then some (1.0 / 0.0)
  else if (infinities.map ("-" ++ ·)).contains s then some (-1.0 / 0.0)
  else if [".nan", ".NaN", ".NAN"].contains s then some (0.0 / 0.0)
  else decimal? unsigned

/-- What an integer is called in a message. A large one has the name of its type behind. -/
def integerName (n : Int) : Option String :=
  let name := "integer `" ++ toString n ++ "`"
  let wide (type : String) := "integer `" ++ toString n ++ "` as " ++ type
  if -(Nat.pow 2 63 : Nat) ≤ n && n < Nat.pow 2 64 then some name
  else if 0 ≤ n && n < Nat.pow 2 128 then some (wide "u128")
  else if n < 0 && -(Nat.pow 2 127 : Nat) ≤ n then some (wide "i128")
  else none

/-- What a plain scalar is called in a message, by what it stands for. -/
def plainName (s : String) : String :=
  if s.isEmpty || isNull s then "unit value"
  else match truth? s, integer? s >>= integerName with
    | some b, _ => "boolean `" ++ toString b ++ "`"
    | none, some name => name
    | none, none =>
        let text := s.toList
        let float := if hasLeadingZero (dropSign text) then none else float? s
        match float with
        | some f => "floating point `" ++ Decimal.pointed f ++ "`"
        | none => "string " ++ quotedText s

end CodeAtlas.Yaml
