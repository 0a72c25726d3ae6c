import CodeAtlas.Json.Reader
import CodeAtlas.Text.Basic
import CodeAtlas.Time.Instant
import CodeAtlas.Toml.Basic

/-!
# Numbers and dates in configuration documents

Numbers are integers of 64 bits and floating point numbers. Dates, times and both together are one
kind of value.
-/

namespace CodeAtlas.Toml

/-! ## Numbers -/

/-- Whether digits of a base stand in the text, single underscores between them allowed. -/
def isDigits (isDigit : Char → Bool) (text : List Char) : Bool :=
  let pieces := Text.splitChar '_' text
  pieces.all fun p => !p.isEmpty && p.all isDigit

/-- The text without a sign in front. -/
def dropSign (text : List Char) : List Char :=
  match text with
  | '+' :: rest | '-' :: rest => rest
  | _ => text

/-- Whether the text is a decimal number without sign and without zeros in front. -/
def isDecimal (text : List Char) : Bool :=
  isDigits Char.isDigit text && (text.length == 1 || text.head? != some '0')

/-- The value of digits of a base. -/
def valueOf (base : Nat) (text : List Char) : Nat :=
  (text.filter (· != '_')).foldl (fun n c => base * n + (Json.hexDigitValue? c).getD 0) 0

/-- Whether the text is an integer of 64 bits. -/
def isInteger (text : List Char) : Bool :=
  match text with
  | '0' :: 'x' :: rest =>
      isDigits (fun c => (Json.hexDigitValue? c).isSome) rest && valueOf 16 rest < Nat.pow 2 63
  | '0' :: 'o' :: rest =>
      isDigits (fun c => '0' ≤ c && c ≤ '7') rest && valueOf 8 rest < Nat.pow 2 63
  | '0' :: 'b' :: rest =>
      isDigits (fun c => c == '0' || c == '1') rest && valueOf 2 rest < Nat.pow 2 63
  | _ =>
      let digits := dropSign text
      let most := if text.head? == some '-' then Nat.pow 2 63 else Nat.pow 2 63 - 1
      isDecimal digits && valueOf 10 digits ≤ most

/-- Whether `digits * 10 ^ exponent` is too large for a floating point number: at least half a step
above the largest one. -/
def isHuge (digits : List Char) (exponent : Int) : Bool :=
  let digits := digits.dropWhile (· == '0')
  let size := digits.length + exponent
  let bound := (Nat.pow 2 54 - 1) * Nat.pow 2 970
  if digits.isEmpty || size ≤ 308 then false
  else if 310 ≤ size then true
  else bound * Nat.pow 10 (-exponent).toNat ≤ valueOf 10 digits * Nat.pow 10 exponent.toNat

/-- Whether the text is a number with a point or an exponent, or a name of one that is none. A
number above all floating point numbers is refused, one below them is not. -/
def isFloat (text : List Char) : Bool :=
  let body := dropSign text
  if body == ['i', 'n', 'f'] || body == ['n', 'a', 'n'] then true
  else
    let mantissa := body.takeWhile fun c => c != 'e' && c != 'E'
    let exponent := body.drop mantissa.length
    let whole := mantissa.takeWhile (· != '.')
    let fraction := mantissa.drop whole.length
    let exponentOk := exponent.isEmpty || isDigits Char.isDigit (dropSign exponent.tail)
    let fractionOk := fraction.isEmpty || isDigits Char.isDigit fraction.tail
    let decimals := fraction.tail.filter (· != '_')
    let scale : Int := valueOf 10 (dropSign exponent.tail)
    let scale := if exponent.tail.head? == some '-' then -scale else scale
    isDecimal whole && exponentOk && fractionOk && !(exponent.isEmpty && fraction.isEmpty) &&
      (text.head? == some '-' ||
        !isHuge (whole.filter (· != '_') ++ decimals) (scale - decimals.length))

/-! ## Dates -/

/-- The numbers of `widths` digits between the marks. -/
def fixedNumbers? : (widths : List Nat) → (mark : Char) → List Char → Option (List Nat × List Char)
  | [], _, text => some ([], text)
  | w :: widths, mark, text =>
      let digits := text.take w
      if digits.length < w || !digits.all Char.isDigit then none
      else
        let rest := text.drop w
        let rest? := if widths.isEmpty then some rest else Text.after? [mark] rest
        match rest? with
        | none => none
        | some rest =>
            (fixedNumbers? widths mark rest).map fun (ns, rest) => (valueOf 10 digits :: ns, rest)

/-- How far hours and zones may go. -/
structure DateLimits where
  lastHour : Nat
  isZone : (hours minutes : Nat) → Bool

/-- The limits of dates in a document. -/
def DateLimits.written : DateLimits where
  lastHour := 23
  isZone hours minutes := hours ≤ 23 && minutes ≤ 59

/-- The limits of dates in a string: midnight may be the end of a day, and a zone up to a day
away. -/
def DateLimits.quoted : DateLimits where
  lastHour := 24
  isZone hours minutes := hours * 60 + minutes ≤ 24 * 60

namespace DateLimits

/-- The text behind a time of day. -/
def time? (limits : DateLimits) (text : List Char) : Option (List Char) := do
  match ← fixedNumbers? [2, 2, 2] ':' text with
  | ([h, m, s], rest) =>
      if limits.lastHour < h || 60 ≤ m || 61 ≤ s then none
      match rest with
      | '.' :: rest =>
          let digits := rest.takeWhile Char.isDigit
          if digits.isEmpty then none else some (rest.drop digits.length)
      | _ => some rest
  | _ => none

/-- Whether the text is a zone. -/
def zoneHolds (limits : DateLimits) (text : List Char) : Bool :=
  match text with
  | [] | ['Z'] | ['z'] => true
  | '+' :: rest | '-' :: rest =>
      match fixedNumbers? [2, 2] ':' rest with
      | some ([h, m], []) => limits.isZone h m
      | _ => false
  | _ => false

/-- Whether the text is a date, a time or both. -/
def isDate (limits : DateLimits) (text : List Char) : Bool :=
  match fixedNumbers? [4, 2, 2] '-' text with
  | some ([y, m, d], rest) =>
      (1 ≤ m && m ≤ 12 && 1 ≤ d && d ≤ Instant.daysOfMonth y m) &&
      match rest with
      | [] => true
      | c :: rest =>
          (c == 'T' || c == 't' || c == ' ') &&
          match limits.time? rest with
          | some rest => limits.zoneHolds rest
          | none => false
  | _ => limits.time? text == some []

end DateLimits

/-! ## Reading -/

/-- Whether a character may stand in a number or a date. -/
def isScalarChar (c : Char) : Bool :=
  c.isAlphanum || c == '_' || c == '+' || c == '-' || c == '.' || c == ':'

/-- Reads a number, a date or a truth value. -/
def scalar? (text : List Char) : Option (Toml × List Char) :=
  let word := text.takeWhile isScalarChar
  let rest := text.drop word.length
  let isDate := DateLimits.written.isDate
  -- a blank may stand between date and time
  let (word, rest) := match rest with
    | ' ' :: more =>
        if word.length == 10 && (more.head?.map Char.isDigit).getD false && isDate word then
          let time := more.takeWhile isScalarChar
          (word ++ ' ' :: time, more.drop time.length)
        else (word, rest)
    | _ => (word, rest)
  let s := String.ofList word
  if s == "true" then some (.bool true, rest)
  else if s == "false" then some (.bool false, rest)
  else if isInteger word || isFloat word then some (.number s, rest)
  else if isDate word then some (.date s, rest)
  else none

/-! ## Dates in strings -/

/-- The key by which a table stands for a date. -/
def dateKey : String := "$__toml_private_datetime"

mutual

/-- The value with dates for the tables that stand for one. -/
def dated? : Toml → Option Toml
  | .arr items => (datedItems? items).map .arr
  | .table origin members => datedTable? origin members
  | .tables back => (datedTables? back).map fun items => .arr items.reverse
  | other => some other

/-- The table with its dates, or the date for which it stands: its first key says so, and the rest
of it does not count. -/
def datedTable? (origin : Origin) : List (String × Toml) → Option Toml
  | [] => some (.table origin [])
  | (key, value) :: rest =>
      if key == dateKey then
        match value with
        | .str s => if DateLimits.quoted.isDate s.toList then some (.date s) else none
        | _ => none
      else do
        let value ← dated? value
        let rest ← datedMembers? rest
        some (.table origin ((key, value) :: rest))

/-- The members with their dates. -/
def datedMembers? : List (String × Toml) → Option (List (String × Toml))
  | [] => some []
  | (key, value) :: rest => do
    let value ← dated? value
    let rest ← datedMembers? rest
    some ((key, value) :: rest)

/-- The items with their dates. -/
def datedItems? : List Toml → Option (List Toml)
  | [] => some []
  | item :: items => do
    let item ← dated? item
    let items ← datedItems? items
    some (item :: items)

/-- The tables with their dates. -/
def datedTables? : List (List (String × Toml)) → Option (List Toml)
  | [] => some []
  | members :: back => do
    let table ← datedTable? .header members
    let tables ← datedTables? back
    some (table :: tables)

end

end CodeAtlas.Toml
