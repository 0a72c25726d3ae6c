import CodeAtlas.Json.Number

/-!
# Documents

A document is null, a truth value, a number, a string, an array or an object. The members of an
object are a list of keys with values. `Json.ofMembers` sorts them by key, the last value of a
repeated key winning; a document that was read, and every free-form value, is sorted so.
-/

namespace CodeAtlas

/-- A document. -/
inductive Json where
  | null
  | bool (b : Bool)
  | num (n : Json.Number)
  | str (s : String)
  | arr (items : List Json)
  | obj (members : List (String × Json))
  deriving Repr, BEq, Inhabited

namespace Json

instance : Coe String Json := ⟨.str⟩

instance : Coe Bool Json := ⟨.bool⟩

/-- The document of a natural number. -/
def nat (n : Nat) : Json := .num (.int n)

/-- The document of an optional value, null if there is none. -/
def ofOption {α : Type} (f : α → Json) : Option α → Json
  | some a => f a
  | none => .null

/-- The document of an optional string. -/
def ofString? (s? : Option String) : Json := ofOption .str s?

/-- The array of strings. -/
def strings (l : List String) : Json := .arr (l.map .str)

/-- Puts a member in its place among sorted members, instead of one with the same key. -/
def insertMember {α : Type} (key : String) (value : α) : List (String × α) → List (String × α)
  | [] => [(key, value)]
  | (k, v) :: members =>
      if key < k then (key, value) :: (k, v) :: members
      else if key = k then (key, value) :: members
      else (k, v) :: insertMember key value members

/-- Members sorted by key; the last value of a repeated key wins. -/
def sortMembers {α : Type} (members : List (String × α)) : List (String × α) :=
  members.foldl (fun sorted (k, v) => insertMember k v sorted) []

/-- The object with the given members, sorted. -/
def ofMembers (members : List (String × Json)) : Json := .obj (sortMembers members)

mutual

/-- The document with the members of every object sorted. -/
def sorted : Json → Json
  | .arr items => .arr (sortedItems items)
  | .obj members => ofMembers (sortedMembers members)
  | other => other

/-- The documents, each sorted. -/
def sortedItems : List Json → List Json
  | [] => []
  | item :: items => item.sorted :: sortedItems items

/-- The members with their values sorted. -/
def sortedMembers : List (String × Json) → List (String × Json)
  | [] => []
  | (key, value) :: members => (key, value.sorted) :: sortedMembers members

end

/-- The member of an object with a key. -/
def get? (j : Json) (key : String) : Option Json :=
  match j with
  | .obj members => members.lookup key
  | _ => none

/-- The string that a document is. -/
def str? : Json → Option String
  | .str s => some s
  | _ => none

/-- The truth value that a document is. -/
def bool? : Json → Option Bool
  | .bool b => some b
  | _ => none

/-- The array that a document is. -/
def arr? : Json → Option (List Json)
  | .arr items => some items
  | _ => none

/-- The members of the object that a document is. -/
def obj? : Json → Option (List (String × Json))
  | .obj members => some members
  | _ => none

/-- The natural number that a document is. -/
def nat? : Json → Option Nat
  | .num (.int n) => if 0 ≤ n then some n.toNat else none
  | _ => none

/-- Whether a document is null. -/
def isNull : Json → Bool
  | .null => true
  | _ => false

end Json

end CodeAtlas
