import CodeAtlas.Text.Basic

/-!
# Instants

An instant is a number of seconds since the start of 1970 and a number of nanoseconds, which goes
above a second only in a leap second. It is written as date and time in the zero zone; reading
takes any zone and is lenient about white space and leading zeros. The calendar goes from
`firstYear` to `lastYear`.
-/

namespace CodeAtlas

/-- A point in time. -/
structure Instant where
  seconds : Int
  nanos : Nat
  deriving DecidableEq, Repr

namespace Instant

/-- Whether the first instant is earlier. -/
def before (a b : Instant) : Bool :=
  a.seconds < b.seconds || (a.seconds == b.seconds && a.nanos < b.nanos)

/-! ## The calendar -/

/-- The number of days from the start of 1970 to a date. -/
def daysOfDate (year : Int) (month day : Nat) : Int :=
  -- years start in March, so that the leap day is the last
  let y := if month ≤ 2 then year - 1 else year
  let era := y.fdiv 400
  let yearOfEra := y - era * 400
  let monthOfYear : Int := ((month : Int) + 9) % 12
  let dayOfYear := (153 * monthOfYear + 2) / 5 + day - 1
  era * 146097 + (yearOfEra * 365 + yearOfEra / 4 - yearOfEra / 100 + dayOfYear) - 719468

/-- The date that is a number of days behind the start of 1970: year, month and day. -/
def dateOfDays (days : Int) : Int × Nat × Nat :=
  let z := days + 719468
  let era := z.fdiv 146097
  let dayOfEra := z - era * 146097
  let yearOfEra := (dayOfEra - dayOfEra / 1460 + dayOfEra / 36524 - dayOfEra / 146096) / 365
  let dayOfYear := dayOfEra - (365 * yearOfEra + yearOfEra / 4 - yearOfEra / 100)
  let monthOfYear := (5 * dayOfYear + 2) / 153
  let day := dayOfYear - (153 * monthOfYear + 2) / 5 + 1
  let month := if monthOfYear < 10 then monthOfYear + 3 else monthOfYear - 9
  let year := yearOfEra + era * 400 + if month ≤ 2 then 1 else 0
  (year, month.toNat, day.toNat)

/-- Whether a year has a leap day. -/
def isLeapYear (year : Int) : Bool := year % 4 == 0 && (year % 100 != 0 || year % 400 == 0)

/-- The number of days of a month. -/
def daysOfMonth (year : Int) (month : Nat) : Nat :=
  match month with
  | 2 => if isLeapYear year then 29 else 28
  | 4 | 6 | 9 | 11 => 30
  | _ => 31

/-! ## Writing -/

/-- A number with zeros in front, so that it has at least `width` digits. -/
def padded (width n : Nat) : String :=
  let digits := toString n
  String.ofList (List.replicate (width - digits.length) '0') ++ digits

/-- The year, with a sign unless it has four digits. -/
def yearText (year : Int) : String :=
  if 0 ≤ year && year ≤ 9999 then padded 4 year.toNat
  else (if year < 0 then "-" else "+") ++ padded 4 year.natAbs

/-- The nanoseconds in as many groups of three digits as are needed. -/
def fractionText (nanos : Nat) : String :=
  if nanos == 0 then ""
  else if nanos % 1000000 == 0 then "." ++ padded 3 (nanos / 1000000)
  else if nanos % 1000 == 0 then "." ++ padded 6 (nanos / 1000)
  else "." ++ padded 9 nanos

/-- The date and the time of an instant. -/
def text (t : Instant) : String :=
  let days := t.seconds.fdiv 86400
  let rest := (t.seconds - days * 86400).toNat
  let (year, month, day) := dateOfDays days
  let leap := t.nanos / 1000000000
  yearText year ++ "-" ++ padded 2 month ++ "-" ++ padded 2 day ++ "T" ++
    padded 2 (rest / 3600) ++ ":" ++ padded 2 (rest / 60 % 60) ++ ":"
      ++ padded 2 (rest % 60 + leap) ++
    fractionText (t.nanos % 1000000000) ++ "Z"

/-! ## Reading -/

/-- The text without white space in front. -/
def skipBlank (s : List Char) : List Char := Text.trimStart s

/-- The number that digits write. -/
def digitsValue (digits : List Char) : Nat :=
  digits.foldl (fun n c => 10 * n + (c.toNat - 48)) 0

/-- Reads a number of at least one digit and at most `most`. -/
def readNumber? (most : Nat) (s : List Char) : Option (Nat × List Char) :=
  let digits := (s.take most).takeWhile Char.isDigit
  if digits.isEmpty then none else some (digitsValue digits, s.drop digits.length)

/-- Reads a year of at most four digits, or of any number of them behind a sign. -/
def readYear? (s : List Char) : Option (Int × List Char) :=
  match skipBlank s with
  | '-' :: s => (readNumber? s.length s).map fun (n, s) => (-(n : Int), s)
  | '+' :: s => (readNumber? s.length s).map fun (n, s) => ((n : Int), s)
  | s => (readNumber? 4 s).map fun (n, s) => ((n : Int), s)

/-- Reads a mark with white space in front of it and behind it. -/
def readMark? (mark : Char) (s : List Char) : Option (List Char) :=
  Text.after? [mark] (skipBlank s)

/-- Reads a number of two digits. -/
def readTwo? (s : List Char) : Option (Nat × List Char) := readNumber? 2 (skipBlank s)

/-- Reads the decimals of a second behind a point; digits behind the ninth do not count. -/
def readNanos? (s : List Char) : Option (Nat × List Char) :=
  match s with
  | '.' :: s =>
      let digits := s.takeWhile Char.isDigit
      if digits.isEmpty then none
      else
        let kept := digits.take 9
        some (digitsValue kept * Nat.pow 10 (9 - kept.length), s.drop digits.length)
  | _ => some (0, s)

/-- Reads a zone behind its sign: how many seconds it is away from the zero zone. -/
def readShift? (s : List Char) : Option (Int × List Char) := do
  match s with
  | h₁ :: h₂ :: s =>
      if !h₁.isDigit || !h₂.isDigit then none
      let hours := digitsValue [h₁, h₂]
      match s.dropWhile fun c => c == ':' || Unicode.isBlank c with
      | m₁ :: m₂ :: s =>
          if !m₁.isDigit || !m₂.isDigit || '5' < m₁ || 24 ≤ hours then none
          some (((hours * 3600 + digitsValue [m₁, m₂] * 60 : Nat) : Int), s)
      | _ => none
  | _ => none

/-- Reads a zone. -/
def readZone? (s : List Char) : Option (Int × List Char) :=
  match skipBlank s with
  | 'Z' :: s | 'z' :: s => some (0, s)
  | '+' :: s => readShift? s
  | c :: s =>
      if c == '-' || c.toNat == 0x2212 then (readShift? s).map fun (n, s) => (-n, s)
      else if Text.asciiLower ((c :: s).take 3) == ['u', 't', 'c'] then some (0, s.drop 2)
      else none
  | [] => none

/-- Reads the mark between date and time: a letter or a space. -/
def readSeparator? (s : List Char) : Option (List Char) :=
  match s with
  | 'T' :: s | 't' :: s | ' ' :: s => some s
  | _ => none

/-- The first and the last year of the calendar. -/
def firstYear : Int := -262143

@[inherit_doc firstYear] def lastYear : Int := 262142

/-- Whether a year is one of the calendar. -/
def isYear (year : Int) : Bool := firstYear ≤ year && year ≤ lastYear

/-- The instant that a text writes. -/
def ofText? (s : String) : Option Instant := do
  let (year, s) ← readYear? s.toList
  let (month, s) ← readTwo? (← readMark? '-' s)
  let (day, s) ← readTwo? (← readMark? '-' s)
  let (hour, s) ← readTwo? (← readSeparator? s)
  let (minute, s) ← readTwo? (← readMark? ':' s)
  let (second, s) ← readTwo? (← readMark? ':' s)
  let (nanos, s) ← readNanos? s
  let (shift, s) ← readZone? s
  if !(skipBlank s).isEmpty then none
  if month < 1 || 12 < month || day < 1 || daysOfMonth year month < day then none
  if 24 ≤ hour || 60 ≤ minute || 61 ≤ second then none
  let (second, nanos) := if second == 60 then (59, nanos + 1000000000) else (second, nanos)
  let time : Int := (hour * 3600 + minute * 60 + second : Nat)
  let seconds := daysOfDate year month day * 86400 + time - shift
  -- the date lies in the calendar in its own zone and in the zero zone
  if isYear year && isYear (dateOfDays (seconds.fdiv 86400)).1 then some ⟨seconds, nanos⟩ else none

end Instant

end CodeAtlas
