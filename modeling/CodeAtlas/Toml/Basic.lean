import CodeAtlas.Json.Basic

/-!
# Configuration documents

A document in TOML is a table of values. While it is read, a table remembers how it came to be:
this decides whether it may still be extended.
-/

namespace CodeAtlas

/-- How a table came to be. -/
inductive Toml.Origin where
  /-- It has a header of its own. -/
  | header
  /-- It only stands on the way to another header. -/
  | onTheWay
  /-- It stands on the way in a key with points. -/
  | dotted
  /-- It is written in braces. -/
  | inline
  deriving DecidableEq, Repr

/-- A value. Numbers and dates keep their text. -/
inductive Toml where
  | str (s : String)
  | bool (b : Bool)
  | number (text : String)
  | date (text : String)
  | arr (items : List Toml)
  | table (origin : Toml.Origin) (members : List (String × Toml))
  /-- Tables with one header in double brackets, the last one first. -/
  | tables (back : List (List (String × Toml)))
  deriving Inhabited

namespace Toml

/-- The members of a table. -/
abbrev Members := List (String × Toml)

/-- The member of a table with a key. -/
def get? (t : Toml) (key : String) : Option Toml :=
  match t with
  | .table _ members => members.lookup key
  | _ => none

/-- The members of a table, sorted by key. -/
def table? : Toml → Option Members
  | .table _ members => some (Json.sortMembers members)
  | _ => none

/-- The string that a value is. -/
def str? : Toml → Option String
  | .str s => some s
  | _ => none

/-- The truth value that a value is. -/
def bool? : Toml → Option Bool
  | .bool b => some b
  | _ => none

/-- The array that a value is. -/
def arr? : Toml → Option (List Toml)
  | .arr items => some items
  | .tables back => some (back.reverse.map (.table .header))
  | _ => none

end Toml

end CodeAtlas
