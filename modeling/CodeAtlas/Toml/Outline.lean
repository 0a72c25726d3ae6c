import CodeAtlas.Toml.Basic

/-!
# The outline of a configuration document

Lines add values to the table of the last header. That table is kept apart from the others and
joins them when the next header comes. A header follows its path through the other tables and makes
those that are missing; a key with points does the same in the table of the last header, but may
only pass through tables that have no header of their own.
-/

namespace CodeAtlas.Toml

/-- Puts a value in the place of the member with its key, or behind all others. -/
def setMember (key : String) (value : Toml) : Members → Members
  | [] => [(key, value)]
  | (k, v) :: rest => if k == key then (key, value) :: rest else (k, v) :: setMember key value rest

/-- The members without the one with a key. -/
def dropMember (key : String) (members : Members) : Members := members.filter (·.1 != key)

/-- Follows a path, making the tables that are missing with the origin `made`, and changes the table
at its end, whose origin is the one of the last name or `origin`. Of tables with one header the last
is followed. -/
def descend {α : Type} (made : Origin) (change : Origin → Members → Option (α × Members)) :
    (path : List String) → (origin : Origin) → Members → Option (α × Members)
  | [], origin, members => change origin members
  | key :: path, _, members =>
      let into (origin : Origin) (inner : Members) (wrap : Members → Toml) :=
        (descend made change path origin inner).map fun (a, inner) =>
          (a, setMember key (wrap inner) members)
      match members.lookup key with
      | none => into made [] (.table made)
      | some (.tables (last :: back)) => into .header last fun last => .tables (last :: back)
      | some (.table origin inner) =>
          if origin == .inline || (made == .dotted && origin == .header) then none
          else into origin inner (.table origin)
      | some _ => none

/-- Adds the value of a key. A key with points ends in a table that came to be by such a key. -/
def addValue (path : List String) (value : Toml) (origin : Origin) (members : Members) :
    Option Members := do
  let key ← path.getLast?
  let add (origin : Origin) (members : Members) : Option (Unit × Members) :=
    if (origin == .dotted) != (1 < path.length) || (members.lookup key).isSome then none
    else some ((), members ++ [(key, value)])
  (descend .dotted add path.dropLast origin members).map (·.2)

/-- How far a document is read: all tables but the one that lines add to, that one, and the path of
its header, if there was one, with whether it is one of several. -/
structure Outline where
  others : Members
  current : Members
  place : Option (List String × Bool)

namespace Outline

/-- The outline of an empty document. -/
def start : Outline := { others := [], current := [], place := none }

/-- Adds the value of a key to the table of the last header. -/
def add? (o : Outline) (path : List String) (value : Toml) : Option Outline :=
  (addValue path value .header o.current).map fun current => { o with current }

/-- All tables, with the one that lines were added to among them. -/
def joined? (o : Outline) : Option Members :=
  match o.place with
  | none => some o.current
  | some (path, several) => do
    let key ← path.getLast?
    let put (_ : Origin) (members : Members) : Option (Unit × Members) :=
      match members.lookup key, several with
      | none, false => some ((), members ++ [(key, .table .header o.current)])
      | none, true => some ((), members ++ [(key, .tables [o.current])])
      | some (.tables back), true =>
          some ((), setMember key (.tables (o.current :: back)) members)
      | _, _ => none
    (descend .onTheWay put path.dropLast .header o.others).map (·.2)

/-- Begins the table of a header. One that only stood on the way to other headers is taken out and
goes on. -/
def table? (o : Outline) (path : List String) : Option Outline := do
  let members ← o.joined?
  let key ← path.getLast?
  let take (_ : Origin) (members : Members) : Option (Members × Members) :=
    match members.lookup key with
    | none => some ([], members)
    | some (.table .onTheWay inner) => some (inner, dropMember key members)
    | some _ => none
  let (current, others) ← descend .onTheWay take path.dropLast .header members
  some { others, current, place := some (path, false) }

/-- Begins one more table of a header in double brackets. -/
def next? (o : Outline) (path : List String) : Option Outline := do
  let members ← o.joined?
  let key ← path.getLast?
  let check (_ : Origin) (members : Members) : Option (Unit × Members) :=
    match members.lookup key with
    | none => some ((), members ++ [(key, .tables [])])
    | some (.tables _) => some ((), members)
    | some _ => none
  let (_, others) ← descend .onTheWay check path.dropLast .header members
  some { others, current := [], place := some (path, true) }

end Outline

end CodeAtlas.Toml
