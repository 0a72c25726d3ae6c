import CodeAtlas.Unicode.CharSet

/-!
# The meaning of patterns

What a pattern means is a tree of texts, character sets, conditions on the place, rows, ordered
choices, repetitions and groups. The functions that build it keep it simple: texts that meet become
one text, a choice between characters becomes a set, and the parts with which all branches of a
choice start are taken out of it. The last rule counts: the branches share the way in which the
common parts are matched, so that of two branches the one may win that a repetition in front of it
leaves room for.
-/

namespace CodeAtlas.Pattern

open Unicode (CharSet)

/-- A condition on a place in the text. -/
inductive Look where
  | textStart
  | textEnd
  | lineStart
  | lineEnd
  | lineStartReturn
  | lineEndReturn
  | wordBoundary (ascii : Bool)
  | noWordBoundary (ascii : Bool)
  | wordStart (ascii : Bool)
  | wordEnd (ascii : Bool)
  | wordStartHalf (ascii : Bool)
  | wordEndHalf (ascii : Bool)
  deriving DecidableEq, Repr

/-- The meaning of a pattern. -/
inductive Node where
  | empty
  | text (chars : List Char)
  /-- One character of a set; `bytes` says that it is a set of bytes. -/
  | one (set : CharSet) (bytes : Bool)
  | look (place : Look)
  /-- At least `least` and at most `most?` times; as often as possible if `greedy`, else as
  seldom. -/
  | repeated (least : Nat) (most? : Option Nat) (greedy : Bool) (body : Node)
  | group (index : Nat) (name? : Option String) (body : Node)
  | row (items : List Node)
  /-- Any of several patterns; a match of an earlier one is preferred. -/
  | choice (branches : List Node)

namespace Node

mutual

/-- Whether two patterns are built in the same way. -/
def same : Node → Node → Bool
  | empty, empty => true
  | text a, text b => a == b
  | one s b, one t c => s == t && b == c
  | look p, look q => p == q
  | repeated l m g a, repeated l' m' g' b => l == l' && m == m' && g == g' && same a b
  | group i n a, group j m b => i == j && n == m && same a b
  | row as, row bs => sameAll as bs
  | choice as, choice bs => sameAll as bs
  | _, _ => false

/-- Whether the patterns of two lists are built in the same way. -/
def sameAll : List Node → List Node → Bool
  | [], [] => true
  | a :: as, b :: bs => same a b && sameAll as bs
  | _, _ => false

end

mutual

/-- Whether the pattern matches nothing but the empty text. -/
def onlyEmpty : Node → Bool
  | empty | look _ => true
  | text cs => cs.isEmpty
  | one .. => false
  | repeated _ most? _ a => most?.isSome && a.onlyEmpty
  | group _ _ a => a.onlyEmpty
  | row as => allOnlyEmpty as
  | choice as => allOnlyEmpty as

/-- Whether all patterns match nothing but the empty text. -/
def allOnlyEmpty : List Node → Bool
  | [] => true
  | a :: as => a.onlyEmpty && allOnlyEmpty as

end

mutual

/-- Whether the pattern can match the empty text. -/
def nullable : Node → Bool
  | empty | look _ => true
  | text cs => cs.isEmpty
  | one .. => false
  | repeated least _ _ a => least == 0 || a.nullable
  | group _ _ a => a.nullable
  | row as => allNullable as
  | choice as => anyNullable as

/-- Whether all patterns can match the empty text. -/
def allNullable : List Node → Bool
  | [] => true
  | a :: as => a.nullable && allNullable as

/-- Whether one of the patterns can match the empty text. -/
def anyNullable : List Node → Bool
  | [] => false
  | a :: as => a.nullable || anyNullable as

end

mutual

/-- The characters with which a match that is not empty can begin. -/
def firsts : Node → CharSet
  | empty | look _ => .empty
  | text [] => .empty
  | text (c :: _) => .single c
  | one set _ => set
  | repeated _ _ _ a => a.firsts
  | group _ _ a => a.firsts
  | row as => rowFirsts .empty as
  | choice as => choiceFirsts .empty as

/-- The characters with which a match of patterns in a row can begin, and those of `found`. -/
def rowFirsts (found : CharSet) : List Node → CharSet
  | [] => found
  | a :: as => if a.nullable then rowFirsts (found.union a.firsts) as else found.union a.firsts

/-- The characters with which a match of one of the patterns can begin, and those of `found`. -/
def choiceFirsts (found : CharSet) : List Node → CharSet
  | [] => found
  | a :: as => choiceFirsts (found.union a.firsts) as

end

mutual

/-- The groups of the pattern by number, with their names, in front of `found`. -/
def groupsFrom (found : List (Nat × Option String)) : Node → List (Nat × Option String)
  | empty | text _ | one .. | look _ => found
  | repeated _ _ _ a => a.groupsFrom found
  | group i name? a => a.groupsFrom ((i, name?) :: found)
  | row as => groupsOfAll found as
  | choice as => groupsOfAll found as

/-- The groups of several patterns, in front of `found`. -/
def groupsOfAll (found : List (Nat × Option String)) : List Node → List (Nat × Option String)
  | [] => found
  | a :: as => groupsOfAll (a.groupsFrom found) as

end

/-- The groups of the pattern by number, with their names. -/
def groups (a : Node) : List (Nat × Option String) := a.groupsFrom []

/-! ## Building -/

/-- The pattern that never matches. -/
def fail : Node := .one .empty true

/-- One character of a set. -/
def ofSet (s : CharSet) (bytes : Bool) : Node :=
  if s.isEmpty then fail
  else match s.single? with
    | some n => .text [Char.ofNat n]
    | none => .one s bytes

/-- A repetition. One of the empty text is made once at most. -/
def ofRepeat (least : Nat) (most? : Option Nat) (greedy : Bool) (body : Node) : Node :=
  let (least, most?) :=
    if body.onlyEmpty then (min least 1, some ((most?.map (min · 1)).getD 1)) else (least, most?)
  if least == 0 && most? == some 0 then .empty
  else if least == 1 && most? == some 1 then body
  else .repeated least most? greedy body

/-- The items of a row in reverse, where the last text is still open, in reverse too. -/
structure OpenRow where
  items : List Node := []
  last : List Char := []

namespace OpenRow

/-- Ends the open text. -/
def close (r : OpenRow) : List Node :=
  if r.last.isEmpty then r.items else .text r.last.reverse :: r.items

/-- Adds an item that is no row itself. -/
def add (r : OpenRow) : Node → OpenRow
  | .text cs => { r with last := cs.reverse ++ r.last }
  | .empty => r
  | item => { items := item :: r.close }

/-- Adds an item; the items of a row one by one. -/
def push (r : OpenRow) : Node → OpenRow
  | .row items => items.foldl add r
  | item => r.add item

end OpenRow

/-- Patterns in a row. -/
def ofRow (items : List Node) : Node :=
  match (items.foldl OpenRow.push {}).close.reverse with
  | [] => .empty
  | [a] => a
  | items => .row items

/-- The sets of branches each of which is one character of a set. -/
def sets? (branches : List Node) : Option (List CharSet) :=
  branches.mapM fun
    | .one s _ => some s
    | _ => none

/-- The characters of branches each of which is one character. -/
def singles? (branches : List Node) : Option (List CharSet) :=
  branches.mapM fun
    | .text [c] => some (.single c)
    | _ => none

/-- The items that are at the start of both rows. -/
def commonItems : List Node → List Node → List Node
  | a :: as, b :: bs => if same a b then a :: commonItems as bs else []
  | _, _ => []

/-- The items of a row that is no single item. -/
def rowItems? : Node → Option (List Node)
  | .row items => some items
  | _ => none

/-- The items with which all branches start, if all branches are rows. -/
def commonStart (branches : List Node) : List Node :=
  match branches.mapM rowItems? with
  | none | some [] => []
  | some (first :: others) => others.foldl commonItems first

/-- The branches of a choice, those of choices within it among them. -/
def flatBranches (branches : List Node) : List Node :=
  branches.flatMap fun
    | .choice inner => inner
    | a => [a]

/-- An ordered choice, in which branches may still start alike. -/
def ofBranches (branches : List Node) : Node :=
  match flatBranches branches with
  | [] => fail
  | [a] => a
  | branches =>
      match (singles? branches).or (sets? branches) with
      | some sets => ofSet (.unions sets) false
      | none => .choice branches

/-- An ordered choice. What is left of the branches once the common items have been taken out has no
common start any more, and so this is done once. -/
def ofChoice (branches : List Node) : Node :=
  match ofBranches branches with
  | .choice branches =>
      match commonStart branches with
      | [] => .choice branches
      | start =>
          let rest := branches.map fun b => ofRow (((rowItems? b).getD []).drop start.length)
          ofRow (start ++ [ofBranches rest])
  | a => a

end Node

end CodeAtlas.Pattern
