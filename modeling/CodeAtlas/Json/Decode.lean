import CodeAtlas.Json.Basic

/-!
# Reading values out of documents

A record is written as an object, whose members may come in any order and among others, or as an
array of its fields in order. A missing optional field counts as null; a label may be written as
the only key of an object, with null as its value.
-/

namespace CodeAtlas.Json

/-- Whether none of the names is the key of more than one member. -/
def unrepeated (names : List String) (members : List (String × Json)) : Bool :=
  names.all fun name => (members.filter fun m => m.1 == name).length ≤ 1

/-- The fields of a record with the given names, the last `optional` of which an array may lack. No
field is given twice. -/
def record? (names : List String) (optional : Nat) : Json → Option (List (String × Json))
  | .obj members => if unrepeated names members then some members else none
  | .arr items =>
      if items.length ≤ names.length && names.length ≤ items.length + optional then
        some (names.zip items)
      else none
  | _ => none

/-- A field that has to be there. -/
def field? {α : Type} (read? : Json → Option α) (fields : List (String × Json)) (name : String) :
    Option α :=
  fields.lookup name >>= read?

/-- What `read?` finds in a document unless it is null. -/
def optional? {α : Type} (read? : Json → Option α) : Json → Option (Option α)
  | .null => some none
  | j => (read? j).map some

/-- A field that may be missing or null. -/
def optionalField? {α : Type} (read? : Json → Option α) (fields : List (String × Json))
    (name : String) : Option (Option α) :=
  optional? read? ((fields.lookup name).getD .null)

/-- A field that has a default value when it is missing. -/
def defaultField? {α : Type} (read? : Json → Option α) (value : α) (fields : List (String × Json))
    (name : String) : Option α :=
  match fields.lookup name with
  | some j => read? j
  | none => some value

/-- The values in an array. -/
def list? {α : Type} (read? : Json → Option α) : Json → Option (List α)
  | .arr items => items.mapM read?
  | _ => none

/-- The strings in an array. -/
def strings? : Json → Option (List String) := list? str?

/-- The values in an object, sorted by key; the last value of a repeated key wins. -/
def members? {α : Type} (read? : Json → Option α) : Json → Option (List (String × α))
  | .obj members => (members.mapM fun m => (read? m.2).map (m.1, ·)).map sortMembers
  | _ => none

/-- The label that a document is. -/
def label? : Json → Option String
  | .str s => some s
  | .obj [(key, .null)] => some key
  | _ => none

/-- The label that a document is; an object without members may stand for null. -/
def looseLabel? : Json → Option String
  | .obj [(key, .obj [])] => some key
  | j => j.label?

/-- A natural number of 64 bits. -/
def word? (j : Json) : Option Nat := do
  let n ← j.nat?
  if n < Nat.pow 2 64 then some n else none

end CodeAtlas.Json
