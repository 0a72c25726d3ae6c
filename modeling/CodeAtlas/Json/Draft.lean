import CodeAtlas.Json.Reader
import CodeAtlas.Text.Utf8

/-!
# Drafts of documents

A draft is a document whose brackets, keys and values are told apart, but whose strings and numbers
are not looked at closely: a string may hold broken characters and single surrogates, a number may
be of any size, and nesting has no limit. `Draft.read?` reads characters, or `none` where bytes are
broken. `Draft.close?` looks closely: it gives the document that a draft stands for.

A shape says which parts of a document count for a reader: the members of a record that have other
names than its fields are passed over without being looked at closely. `Shape.read?` reads a text
by a shape and leaves such members out.
-/

namespace CodeAtlas.Json

/-- A document as it is written. -/
inductive Draft where
  /-- Null or a truth value. -/
  | word (j : Json)
  | number (text : List Char)
  /-- A string, by what stands between its quotes. -/
  | str (body : List (Option Char))
  | arr (items : List Draft)
  | obj (members : List (List (Option Char) × Draft))
  deriving Inhabited

namespace Draft

/-! ## Reading -/

/-- The text without white space in front. -/
def skipSpace (text : List (Option Char)) : List (Option Char) :=
  text.dropWhile fun c? => c?.any isSpace

/-- Reads a string behind its first quote, onto `read`, which is in reverse. -/
def body? (read : List (Option Char)) :
    List (Option Char) → Option (List (Option Char) × List (Option Char))
  | [] => none
  | some '"' :: text => some (read.reverse, text)
  | some '\\' :: some 'u' :: a :: b :: c :: d :: text =>
      if [a, b, c, d].all fun c? => (c? >>= hexDigitValue?).isSome then
        body? (d :: c :: b :: a :: some 'u' :: some '\\' :: read) text
      else none
  | some '\\' :: c? :: text =>
      if (c? >>= escapeOf?).isSome then body? (c? :: some '\\' :: read) text else none
  | c? :: text =>
      if c?.any fun c => c.toNat < 32 || c == '\\' then none else body? (c? :: read) text

/-- Reads a key with its colon. -/
def key? (text : List (Option Char)) : Option (List (Option Char) × List (Option Char)) :=
  match skipSpace text with
  | some '"' :: text =>
      match body? [] text with
      | some (key, text) =>
          match skipSpace text with
          | some ':' :: text => some (key, text)
          | _ => none
      | none => none
  | _ => none

/-- The digits in front of a text, and the text behind them. -/
def digits (text : List (Option Char)) : List Char × List (Option Char) :=
  let (digits, rest) := text.span fun c? => c?.any Char.isDigit
  (digits.filterMap id, rest)

/-- Reads an exponent, if there is one. -/
def exponent? (text : List (Option Char)) : Option (List Char × List (Option Char)) :=
  let read (letter : List Char) (text : List (Option Char)) :=
    let (ds, rest) := digits text
    if ds.isEmpty then none else some (letter ++ ds, rest)
  match text with
  | some 'e' :: some '+' :: text | some 'E' :: some '+' :: text => read ['e', '+'] text
  | some 'e' :: some '-' :: text | some 'E' :: some '-' :: text => read ['e', '-'] text
  | some 'e' :: text | some 'E' :: text => read ['e'] text
  | _ => some ([], text)

/-- Reads decimals behind a point, if there is one. -/
def fraction? (text : List (Option Char)) : Option (List Char × List (Option Char)) :=
  match text with
  | some '.' :: text =>
      let (ds, rest) := digits text
      if ds.isEmpty then none else some ('.' :: ds, rest)
  | _ => some ([], text)

/-- Reads a number. -/
def number? (text : List (Option Char)) : Option (List Char × List (Option Char)) := do
  let (sign, text) := match text with
    | some '-' :: text => (['-'], text)
    | _ => ([], text)
  let (whole, text) := digits text
  if whole.isEmpty || (whole.head? == some '0' && whole.length != 1) then none
  let (fraction, text) ← fraction? text
  let (exponent, text) ← exponent? text
  some (sign ++ whole ++ fraction ++ exponent, text)

/-- An array or object that is open, with what is read of it, in reverse; in an object the key of
the next value is read. -/
inductive Container where
  | items (read : List Draft)
  | members (read : List (List (Option Char) × Draft)) (key : List (Option Char))

/-- Reads a draft inside of open containers, the innermost first. The last value is `value?` if it
is read already. -/
def readInside? : (fuel : Nat) → (value? : Option Draft) → (around : List Container) →
    List (Option Char) → Option (Draft × List (Option Char))
  | 0, _, _, _ => none
  | _ + 1, some d, [], text => some (d, text)
  | fuel + 1, some d, .items read :: around, text =>
      match skipSpace text with
      | some ',' :: text => readInside? fuel none (.items (d :: read) :: around) text
      | some ']' :: text => readInside? fuel (some (.arr (d :: read).reverse)) around text
      | _ => none
  | fuel + 1, some d, .members read key :: around, text =>
      match skipSpace text with
      | some ',' :: text =>
          match key? text with
          | some (next, text) =>
              readInside? fuel none (.members ((key, d) :: read) next :: around) text
          | none => none
      | some '\x7d' :: text => readInside? fuel (some (.obj ((key, d) :: read).reverse)) around text
      | _ => none
  | fuel + 1, none, around, text =>
      match skipSpace text with
      | some '[' :: text =>
          match skipSpace text with
          | some ']' :: text => readInside? fuel (some (.arr [])) around text
          | text => readInside? fuel none (.items [] :: around) text
      | some '\x7b' :: text =>
          match skipSpace text with
          | some '\x7d' :: text => readInside? fuel (some (.obj [])) around text
          | text =>
              match key? text with
              | some (key, text) => readInside? fuel none (.members [] key :: around) text
              | none => none
      | some '"' :: text =>
          match body? [] text with
          | some (body, text) => readInside? fuel (some (.str body)) around text
          | none => none
      | some 'n' :: some 'u' :: some 'l' :: some 'l' :: text =>
          readInside? fuel (some (.word .null)) around text
      | some 't' :: some 'r' :: some 'u' :: some 'e' :: text =>
          readInside? fuel (some (.word (.bool true))) around text
      | some 'f' :: some 'a' :: some 'l' :: some 's' :: some 'e' :: text =>
          readInside? fuel (some (.word (.bool false))) around text
      | text =>
          match number? text with
          | some (n, text) => readInside? fuel (some (.number n)) around text
          | none => none

/-- The draft that a text holds. -/
def read? (text : List (Option Char)) : Option Draft :=
  match readInside? (text.length + 2) none [] text with
  | some (d, rest) => if (skipSpace rest).isEmpty then some d else none
  | none => none

/-! ## Looking closely -/

/-- The string between quotes. -/
def string? (body : List (Option Char)) : Option String := do
  let text ← body.mapM id
  let (s, _) ← readString? [] (text ++ ['"'])
  some s

mutual

/-- The document that a draft stands for, in which `room` levels of nesting are left. -/
def close? (room : Nat) : Draft → Option Json
  | .word j => some j
  | .number text => (readNumber? text).map fun (n, _) => .num n
  | .str body => (string? body).map .str
  | .arr items => if room = 0 then none else (closeItems? (room - 1) items).map .arr
  | .obj members => if room = 0 then none else (closeMembers? (room - 1) members).map .obj

/-- The items of an array, each looked at closely. -/
def closeItems? (room : Nat) : List Draft → Option (List Json)
  | [] => some []
  | d :: items => do
    let j ← close? room d
    let items ← closeItems? room items
    some (j :: items)

/-- The members of an object, each looked at closely. -/
def closeMembers? (room : Nat) :
    List (List (Option Char) × Draft) → Option (List (String × Json))
  | [] => some []
  | (key, d) :: members => do
    let key ← string? key
    let j ← close? room d
    let members ← closeMembers? room members
    some ((key, j) :: members)

end

end Draft

end CodeAtlas.Json

/-! ## What counts in a document -/

namespace CodeAtlas.Json

/-- Which parts of a document count. -/
inductive Shape where
  /-- All of it counts. -/
  | whole
  /-- An object in which members with these names count, or an array of them in order. -/
  | record (fields : List (String × Shape))
  /-- An array of items of one shape. -/
  | list (item : Shape)
  /-- An object whose values have one shape. -/
  | map (value : Shape)
  deriving Inhabited

namespace Shape

/-- A record with fields that count as a whole. -/
def recordOf (names : List String) : Shape := .record (names.map (·, .whole))

mutual

/-- The parts of a draft that count, in which `room` levels of nesting are left. -/
def close? (shape : Shape) (room : Nat) : Draft → Option Json
  | .arr items =>
      if room = 0 then none
      else
        match shape with
        | .list item => (closeItems? item (room - 1) items).map .arr
        | .record fields => (closeFields? (fields.map (·.2)) (room - 1) items).map .arr
        | shape => if shape matches .whole then Draft.close? room (.arr items) else none
  | .obj members =>
      if room = 0 then none
      else
        match shape with
        | .record fields => (closeMembers? (fields.lookup ·) (room - 1) members).map .obj
        | .map value => (closeMembers? (fun _ => some value) (room - 1) members).map .obj
        | shape => if shape matches .whole then Draft.close? room (.obj members) else none
  | d => d.close? room

/-- The items of one shape. -/
def closeItems? (shape : Shape) (room : Nat) : List Draft → Option (List Json)
  | [] => some []
  | d :: items => do
    let j ← close? shape room d
    let items ← closeItems? shape room items
    some (j :: items)

/-- The items of as many shapes, at most. -/
def closeFields? (shapes : List Shape) (room : Nat) : List Draft → Option (List Json)
  | [] => some []
  | d :: items => do
    let shape ← shapes.head?
    let j ← close? shape room d
    let items ← closeFields? shapes.tail room items
    some (j :: items)

/-- The members whose keys have a shape. -/
def closeMembers? (shapeOf? : String → Option Shape) (room : Nat) :
    List (List (Option Char) × Draft) → Option (List (String × Json))
  | [] => some []
  | (key, d) :: members => do
    let key ← Draft.string? key
    match shapeOf? key with
    | none => closeMembers? shapeOf? room members
    | some shape => do
      let j ← close? shape room d
      let members ← closeMembers? shapeOf? room members
      some ((key, j) :: members)

end

/-- The parts that count of the document that a text holds. A text that can be read as a whole is;
in any other, what does not count may stand in the way of that. -/
def read? (shape : Shape) (text : List (Option Char)) : Option Json :=
  (text.mapM id >>= readChars?).or (Draft.read? text >>= shape.close? maxNesting)

end Shape

end CodeAtlas.Json
