import CodeAtlas.Pattern.Matcher
import CodeAtlas.Pattern.Meaning
import CodeAtlas.Pattern.Reader
import CodeAtlas.Pattern.Size
import CodeAtlas.Text.Basic

/-!
# Patterns

A `Pattern` is read from its text once and then applied to texts. A text that writes no pattern
gives the pattern that never matches.
-/

namespace CodeAtlas

/-- A part of a text that a group of a pattern matched: byte offsets and the text itself. -/
structure Group where
  start : Nat
  stop : Nat
  text : String

/-- A match: its groups by index, the whole match first, and the names of groups. -/
structure Match where
  groups : Array (Option Group)
  names : List (String × Nat)
  /-- Where the whole match starts. -/
  start : Nat
  /-- Where the whole match stops. -/
  stop : Nat

namespace Match

/-- The group with an index. -/
def group? (m : Match) (i : Nat) : Option Group := m.groups.getD i none

/-- The group with a name. -/
def named? (m : Match) (name : String) : Option Group := m.names.lookup name >>= m.group?

/-- The text of the group with an index, empty if the group is not part of the match. -/
def text (m : Match) (i : Nat) : String := ((m.group? i).map (·.text)).getD ""

/-- The text of the group with an index, if it is part of the match. -/
def text? (m : Match) (i : Nat) : Option String := (m.group? i).map (·.text)

/-- The text of the group with a name, empty if the group is not part of the match. -/
def textOf (m : Match) (name : String) : String := ((m.named? name).map (·.text)).getD ""

/-- The text of a named group without white space around it, unless nothing is left. -/
def capture? (m : Match) (name : String) : Option String := do
  let s := trimmed (← m.named? name).text
  if s.isEmpty then none else some s

end Match

/-- A pattern that has been read. -/
structure Pattern where
  program : Pattern.Program
  groupCount : Nat
  names : List (String × Nat)

namespace Pattern

/-- The pattern with a meaning. Groups that the meaning has lost are still counted if later ones are
left, but they have no names any more. -/
def ofNode (a : Node) : Pattern where
  program := a.program
  groupCount := a.groups.foldl (fun n g => max n g.1) 0
  names := a.groups.filterMap fun (i, name?) => name?.map (·, i)

/-- The pattern that a text writes, unless it is too large. -/
def ofString? (s : String) : Option Pattern := do
  let (node, _) ← (← read? s.toList).meaning? {}
  if node.isTooLarge then none else return ofNode node

/-- The pattern that never matches. -/
def never : Pattern := ofNode .fail

/-- The pattern that a text writes, or the one that never matches. -/
def ofString (s : String) : Pattern := (ofString? s).getD never

/-- A match with its groups, from what the search found. -/
def toMatch (p : Pattern) (f : Found) : Match :=
  let part (i : Nat) : Option Group := do
    let start ← f.saves.lookup (2 * i)
    let stop ← f.saves.lookup (2 * i + 1)
    let text := Text.slice f.start.rest (start - f.start.offset) (stop - f.start.offset)
    return ⟨start, stop, String.ofList text⟩
  { groups := ((List.range (p.groupCount + 1)).map part).toArray
    names := p.names, start := f.start.offset, stop := f.stop.offset }

/-- All matches that do not overlap, in order. -/
def findAll (p : Pattern) (text : List Char) : List Match :=
  (p.program.findAll text).map p.toMatch

/-- The first match. -/
def find? (p : Pattern) (text : List Char) : Option Match :=
  (p.program.search (stepBound p.program.code text.length) (.start text)).map p.toMatch

/-- Whether there is a match. -/
def test (p : Pattern) (text : List Char) : Bool :=
  (p.program.search (stepBound p.program.code text.length) (.start text)).isSome

/-- Whether `c` may stand in the name of a group that a replacement mentions. -/
def isReferenceChar (c : Char) : Bool := c.isAlphanum || c == '_'

/-- The index that a mention of a group writes, with or without a plus sign. -/
def referenceIndex? (name : List Char) : Option Nat :=
  let digits := match name with
    | '+' :: digits => digits
    | digits => digits
  if digits.isEmpty || !digits.all Char.isDigit then none
  else some (digits.foldl (fun n c => 10 * n + (c.toNat - 48)) 0)

/-- The text of the group that a replacement mentions, by index or name. -/
def reference (m : Match) (name : List Char) : List Char :=
  let group := match referenceIndex? name with
    | some i => m.group? i
    | none => m.named? (String.ofList name)
  ((group.map (·.text)).getD "").toList

/-- A replacement with its mentions of groups filled in; `fuel` is its length. -/
def expand (m : Match) : (fuel : Nat) → List Char → List Char
  | 0, _ => []
  | _, [] => []
  | fuel + 1, '$' :: '$' :: rest => '$' :: expand m fuel rest
  | fuel + 1, '$' :: '\x7b' :: rest =>
      let name := rest.takeWhile (· != '\x7d')
      match rest.drop name.length with
      | '\x7d' :: after => reference m name ++ expand m fuel after
      | _ => '$' :: expand m fuel ('\x7b' :: rest)
  | fuel + 1, '$' :: rest =>
      let name := rest.takeWhile isReferenceChar
      if name.isEmpty then '$' :: expand m fuel rest
      else reference m name ++ expand m fuel (rest.drop name.length)
  | fuel + 1, c :: rest => c :: expand m fuel rest

/-- The text with every match replaced. -/
def replaceAll (p : Pattern) (text replacement : List Char) : List Char :=
  let step := fun (acc : List (List Char) × Nat × List Char) (m : Match) =>
    let (pieces, at_, rest) := acc
    let front := Text.takeBytes (m.start - at_) rest
    let after := (Text.dropBytes? (m.stop - at_) rest).getD []
    (expand m (replacement.length + 1) replacement :: front :: pieces, m.stop, after)
  let (pieces, _, rest) := (p.findAll text).foldl step ([], 0, text)
  (rest :: pieces).reverse.flatten

end Pattern

end CodeAtlas
