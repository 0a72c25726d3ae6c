/-!
# The shortest decimal that reads back

A binary floating point number is `m * 2 ^ q`, and every real number between the middles to its
two neighbours rounds to it; the ends count if `m` is even. `shortest` gives the decimal with the
fewest digits in this interval, and of those the nearest to the number.
-/

namespace CodeAtlas.Decimal

/-- A decimal: `digits * 10 ^ exponent`. -/
structure Scaled where
  digits : Nat
  exponent : Int
  deriving DecidableEq, Repr

/-- A positive number with the interval that rounds to it, as fractions with denominator `den`. -/
structure Span where
  low : Nat
  mid : Nat
  high : Nat
  den : Nat
  closed : Bool

/-- The span of `m * 2 ^ q`. Below a power of two the neighbour is half as far. -/
def Span.ofBinary (m : Nat) (q : Int) (halved : Bool) : Span :=
  let low := 4 * m - if halved then 1 else 2
  let up := (q - 2).toNat
  { low := low <<< up, mid := (4 * m) <<< up, high := (4 * m + 2) <<< up
    den := 1 <<< (2 - q).toNat, closed := m % 2 == 0 }

/-- The number of decimal digits of `n`. -/
def digitCount (n : Nat) : Nat := (Nat.toDigits 10 n).length

/-- The largest `e` with `10 ^ e` at most the number. -/
def Span.magnitude (s : Span) : Int :=
  if s.den ≤ s.mid then (digitCount (s.mid / s.den) : Int) - 1
  else
    -- the quotient of denominator and number has one digit less than the first power above it
    let n := digitCount (s.den / s.mid)
    if s.mid * Nat.pow 10 (n - 1) == s.den then 1 - (n : Int) else -(n : Int)

/-- Whether `c * 10 ^ e` lies in the span. -/
def Span.contains (s : Span) (c : Nat) (e : Int) : Bool :=
  let x := c * s.den * Nat.pow 10 e.toNat
  let f := Nat.pow 10 (-e).toNat
  if s.closed then s.low * f ≤ x && x ≤ s.high * f else s.low * f < x && x < s.high * f

/-- The decimal of `n` digits in the span that is nearest to the number, the even one of two. -/
def Span.nearest? (s : Span) (n : Nat) : Option Scaled :=
  let e := s.magnitude - n + 1
  let num := s.mid * Nat.pow 10 (-e).toNat
  let den := s.den * Nat.pow 10 e.toNat
  let c := num / den
  let twice := 2 * (num % den)
  let below := s.contains c e
  let above := s.contains (c + 1) e
  if below && above then
    some ⟨if twice < den || (twice == den && c % 2 == 0) then c else c + 1, e⟩
  else if below then some ⟨c, e⟩
  else if above then some ⟨c + 1, e⟩
  else none

/-- The decimal with its trailing zeros moved into the exponent, at most `n` of them. -/
def Scaled.strip : Nat → Scaled → Scaled
  | 0, d => d
  | n + 1, d =>
      if d.digits != 0 && d.digits % 10 == 0 then strip n ⟨d.digits / 10, d.exponent + 1⟩ else d

/-- The shortest decimal that rounds to a positive number with the given bits. -/
def shortest (bits : UInt64) : Scaled :=
  let bits : Nat := bits.toNat % Nat.pow 2 63
  let fraction : Nat := bits % Nat.pow 2 52
  let field : Nat := bits / Nat.pow 2 52
  let m := if field == 0 then fraction else fraction + Nat.pow 2 52
  let q : Int := (if field == 0 then 1 else (field : Int)) - 1075
  let span := Span.ofBinary m q (fraction == 0 && 1 < field)
  ((List.range 17).findSome? fun n => span.nearest? (n + 1)).elim ⟨m, 0⟩ (·.strip 20)

/-! ## Decimals with a point

A decimal is written with all its digits and a point, whatever its size.
-/

/-- The text of a decimal, with at least one digit on each side of its point. -/
def Scaled.positional (d : Scaled) : String :=
  let digits := Nat.toDigits 10 d.digits
  let places := (-d.exponent).toNat
  let padded := List.replicate (places + 1 - digits.length) '0' ++ digits ++
    List.replicate d.exponent.toNat '0'
  let whole := padded.take (padded.length - places)
  let fraction := padded.drop (padded.length - places)
  String.ofList (whole ++ '.' :: if fraction.isEmpty then ['0'] else fraction)

/-- The text of a floating point number, with a point in it if it is finite. -/
def pointed (f : Float) : String :=
  if f.isNaN then "NaN"
  else
    let size := if f.isInf then "inf"
      else if f == 0 then "0.0"
      else (shortest f.toBits).positional
    if f.toBits.toNat < Nat.pow 2 63 then size else "-" ++ size

end CodeAtlas.Decimal
