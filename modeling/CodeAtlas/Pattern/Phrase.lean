import CodeAtlas.Unicode.CharSet

/-!
# Patterns as they are written

A `Phrase` is the structure of a pattern's text: characters, sets, anchors, repetitions, groups, and
the switches that stand between them. What a part means depends on the switches in front of it, and
so a phrase has a meaning only from its start on (`Pattern.Meaning`).
-/

namespace CodeAtlas.Pattern

open Unicode (CharSet)

/-! ## Switches

A pattern turns switches on and off for the rest of a group, as in `(?i-s)`, or for a group of its
own, as in `(?i-s:…)`.
-/

/-- A switch that changes what a part of a pattern means. -/
inductive Switch where
  /-- Letters match in either case. -/
  | caseless
  /-- `^` and `$` match at the ends of lines. -/
  | multiLine
  /-- The dot matches the newline too. -/
  | dotAll
  /-- Repetitions are lazy unless a question mark follows. -/
  | swapGreed
  /-- Sets range over all characters, not over bytes. -/
  | unicode
  /-- A carriage return ends a line too. -/
  | returns
  /-- White space and comments in the pattern are skipped. -/
  | verbose
  deriving DecidableEq, Repr

/-- The switch with a letter. -/
def Switch.ofChar? : Char → Option Switch
  | 'i' => some .caseless
  | 'm' => some .multiLine
  | 's' => some .dotAll
  | 'U' => some .swapGreed
  | 'u' => some .unicode
  | 'R' => some .returns
  | 'x' => some .verbose
  | _ => none

/-- Switches that are turned on, and switches that are turned off. -/
structure Switches where
  on : List Switch := []
  off : List Switch := []

namespace Switches

/-- How a switch is turned, if it is mentioned. -/
def turned? (s : Switches) (w : Switch) : Option Bool :=
  if s.on.contains w then some true else if s.off.contains w then some false else none

/-- Whether a switch is mentioned. -/
def mentions (s : Switches) (w : Switch) : Bool := s.on.contains w || s.off.contains w

/-- Adds a switch that is not mentioned yet. -/
def add? (s : Switches) (on : Bool) (w : Switch) : Option Switches :=
  if s.mentions w then none
  else if on then some { s with on := w :: s.on } else some { s with off := w :: s.off }

end Switches

/-- The switches that are on at a place of a pattern, the one for comments apart. -/
structure Flags where
  caseless : Bool := false
  multiLine : Bool := false
  dotAll : Bool := false
  swapGreed : Bool := false
  unicode : Bool := true
  returns : Bool := false

/-- The flags behind switches. -/
def Flags.turn (f : Flags) (s : Switches) : Flags where
  caseless := (s.turned? .caseless).getD f.caseless
  multiLine := (s.turned? .multiLine).getD f.multiLine
  dotAll := (s.turned? .dotAll).getD f.dotAll
  swapGreed := (s.turned? .swapGreed).getD f.swapGreed
  unicode := (s.turned? .unicode).getD f.unicode
  returns := (s.turned? .returns).getD f.returns

/-! ## Phrases -/

/-- A character of a pattern. -/
structure Glyph where
  char : Char
  /-- Whether it is written as a byte, by two hexadecimal digits. -/
  isByte : Bool := false

/-- A condition on a place, as it is written. -/
inductive Anchor where
  | lineStart
  | lineEnd
  | textStart
  | textEnd
  | wordBoundary
  | noWordBoundary
  | wordStart
  | wordEnd
  | wordStartHalf
  | wordEndHalf
  deriving DecidableEq, Repr

/-- A set with a letter of its own. -/
inductive Shorthand where
  | digit
  | blank
  | word
  deriving DecidableEq, Repr

/-- The name of a property of characters: a name alone, or a name and a value. -/
inductive PropertyName where
  | plain (name : List Char)
  | valued (name value : List Char)

/-- An operator inside brackets. -/
inductive SetOp where
  | inter
  | diff
  | symmetric
  deriving DecidableEq, Repr

/-- What stands inside brackets, or a part of it. -/
inductive SetPhrase where
  | empty
  | char (c : Glyph)
  | range (first last : Glyph)
  /-- A named class of ASCII characters. -/
  | ascii (members : CharSet) (negated : Bool)
  | shorthand (kind : Shorthand) (negated : Bool)
  | property (name : PropertyName) (negated : Bool)
  | bracketed (negated : Bool) (body : SetPhrase)
  | union (items : List SetPhrase)
  | operation (op : SetOp) (left right : SetPhrase)

/-- A pattern, or a part of it. -/
inductive Phrase where
  | empty
  | switches (s : Switches)
  | char (c : Glyph)
  | dot
  | anchor (a : Anchor)
  | shorthand (kind : Shorthand) (negated : Bool)
  | property (name : PropertyName) (negated : Bool)
  | bracketed (negated : Bool) (body : SetPhrase)
  | repeated (least : Nat) (most? : Option Nat) (lazily : Bool) (body : Phrase)
  | capture (index : Nat) (name? : Option String) (body : Phrase)
  /-- A group without a number, for which switches are turned. -/
  | scoped (s : Switches) (body : Phrase)
  | row (items : List Phrase)
  | choice (branches : List Phrase)

/-- How deep the brackets, groups and operators of a pattern may nest. -/
def maxDepth : Nat := 250

/-- A part of a pattern with its depth: how many parts that hold others stand around its innermost
one. -/
structure Nested (α : Type) where
  value : α
  depth : Nat := 0

/-- A part that holds others as deep as `depth`, unless it nests too deep. -/
def Nested.around? {α : Type} (depth : Nat) (value : α) : Option (Nested α) :=
  if depth < maxDepth then some ⟨value, depth + 1⟩ else none

/-- The depth of the deepest of several parts. -/
def deepest {α : Type} (parts : List (Nested α)) : Nat := parts.foldl (fun d p => max d p.depth) 0

/-- Several parts in a row, given in reverse: none, one, or a part that holds them. -/
def Nested.gather? {α : Type} (empty : α) (hold : List α → α) :
    List (Nested α) → Option (Nested α)
  | [] => some ⟨empty, 0⟩
  | [p] => some p
  | parts => Nested.around? (deepest parts) (hold (parts.foldl (fun done p => p.value :: done) []))

end CodeAtlas.Pattern
