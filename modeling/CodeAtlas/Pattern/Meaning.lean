import CodeAtlas.Pattern.Node
import CodeAtlas.Pattern.Property
import CodeAtlas.Unicode.CaseRun

/-!
# What a written pattern means

Takes a `Phrase` to its `Node`, with the flags that are on at each place. A pattern is matched
against text, and so with the Unicode switch off it may only name sets of ASCII characters.
-/

namespace CodeAtlas.Pattern

open Unicode (CharSet)

/-! ## Sets -/

/-- The ASCII digits. -/
def asciiDigits : CharSet := .ofText "30-39"

/-- The ASCII white space characters. -/
def asciiBlanks : CharSet := .ofText "9-D 20"

/-- The ASCII word characters. -/
def asciiWordChars : CharSet := .ofText "30-39 41-5A 5F 61-7A"

namespace Flags

/-- The set closed under the case rule that is on. -/
def close (f : Flags) (s : CharSet) : CharSet :=
  if !f.caseless then s else if f.unicode then s.closeCase else s.closeAsciiCase

/-- The set, or its complement. Without the Unicode switch the complement holds bytes that are no
characters. -/
def negate? (f : Flags) (negated : Bool) (s : CharSet) : Option CharSet :=
  if !negated then some s else if f.unicode then some s.complement else none

/-- The set closed under the case rule, or the complement of that. -/
def set? (f : Flags) (negated : Bool) (s : CharSet) : Option CharSet :=
  f.negate? negated (f.close s)

/-- The set of a shorthand. The sets hold a letter in either case or in none. -/
def shorthand? (f : Flags) (kind : Shorthand) (negated : Bool) : Option CharSet :=
  f.negate? negated (match kind, f.unicode with
    | .digit, true => Unicode.digits
    | .digit, false => asciiDigits
    | .blank, true => Unicode.blanks
    | .blank, false => asciiBlanks
    | .word, true => Unicode.wordChars
    | .word, false => asciiWordChars)

/-- The set of a property. -/
def property? (f : Flags) (name : PropertyName) (negated : Bool) : Option CharSet :=
  if f.unicode then do f.set? negated (← name.members?) else none

/-- A character that stands for itself. Without the Unicode switch one that is written as a byte has
to be ASCII. -/
def glyph? (f : Flags) (c : Glyph) : Option Char :=
  if !f.unicode && c.isByte && 128 ≤ c.char.toNat then none else some c.char

/-- A character inside brackets. -/
def setGlyph? (f : Flags) (c : Glyph) : Option Nat :=
  if !f.unicode && 128 ≤ c.char.toNat then none else some c.char.toNat

end Flags

mutual

/-- The set that stands inside brackets, before the case rule and the negation of the brackets. -/
def SetPhrase.members? (f : Flags) : SetPhrase → Option CharSet
  | .empty => some .empty
  | .char c => (f.setGlyph? c).map fun n => .ofSorted [(n, n)]
  | .range first last => do
    return .ofSorted [(← f.setGlyph? first, ← f.setGlyph? last)]
  | .ascii s negated => f.set? negated s
  | .shorthand kind negated => f.shorthand? kind negated
  | .property name negated => f.property? name negated
  | .bracketed negated body => do f.set? negated (← body.members? f)
  | .union items => (membersOfAll? f [] items).map .unions
  | .operation op left right => do
    let s ← left.members? f
    let t ← right.members? f
    let s := f.close s
    let t := f.close t
    return match op with
      | .inter => s.inter t
      | .diff => s.diff t
      | .symmetric => (s.diff t).union (t.diff s)

/-- The sets of several items, in front of `found`. -/
def membersOfAll? (f : Flags) (found : List CharSet) : List SetPhrase → Option (List CharSet)
  | [] => some found
  | p :: ps =>
      match p.members? f with
      | some s => membersOfAll? f (s :: found) ps
      | none => none

end

/-! ## Patterns -/

/-- The meaning of a character. -/
def Flags.char? (f : Flags) (c : Glyph) : Option Node := do
  let c ← f.glyph? c
  if !f.caseless || (!f.unicode && !c.isAlpha) then return .text [c]
  else if f.unicode then return .ofSet (.caseVariants c) false
  else return .ofSet (CharSet.single c).closeAsciiCase true

/-- The meaning of the dot. -/
def Flags.dot? (f : Flags) : Option Node :=
  if !f.unicode then none
  else some (.one (if f.dotAll then .all
    else if f.returns then (CharSet.ofText "A D").complement
    else (CharSet.ofText "A").complement) false)

/-- The condition that an anchor stands for. -/
def Flags.look (f : Flags) : Anchor → Look
  | .lineStart =>
      if !f.multiLine then .textStart else if f.returns then .lineStartReturn else .lineStart
  | .lineEnd => if !f.multiLine then .textEnd else if f.returns then .lineEndReturn else .lineEnd
  | .textStart => .textStart
  | .textEnd => .textEnd
  | .wordBoundary => .wordBoundary !f.unicode
  | .noWordBoundary => .noWordBoundary !f.unicode
  | .wordStart => .wordStart !f.unicode
  | .wordEnd => .wordEnd !f.unicode
  | .wordStartHalf => .wordStartHalf !f.unicode
  | .wordEndHalf => .wordEndHalf !f.unicode

mutual

/-- The meaning of a phrase under the flags in front of it, with the flags behind it. -/
def Phrase.meaning? (f : Flags) : Phrase → Option (Node × Flags)
  | .empty => some (.empty, f)
  | .switches s => some (.empty, f.turn s)
  | .char c => (f.char? c).map (·, f)
  | .dot => f.dot?.map (·, f)
  | .anchor a => some (.look (f.look a), f)
  | .shorthand kind negated => (f.shorthand? kind negated).map fun s => (.ofSet s !f.unicode, f)
  | .property name negated => (f.property? name negated).map fun s => (.ofSet s false, f)
  | .bracketed negated body => do
    let s ← f.set? negated (← body.members? f)
    return (.ofSet s !f.unicode, f)
  | .repeated least most? lazily body => do
    let (a, f) ← body.meaning? f
    return (.ofRepeat least most? (lazily == f.swapGreed) a, f)
  | .capture index name? body => do
    let (a, _) ← body.meaning? f
    return (.group index name? a, f)
  | .scoped s body => do
    let (a, _) ← body.meaning? (f.turn s)
    return (a, f)
  | .row items => (meaningOfAll? f [] items).map fun (as, f) => (.ofRow as, f)
  | .choice branches => (meaningOfAll? f [] branches).map fun (as, f) => (.ofChoice as, f)

/-- The meanings of phrases in a row behind those in `done`, which is in reverse. -/
def meaningOfAll? (f : Flags) (done : List Node) : List Phrase → Option (List Node × Flags)
  | [] => some (done.reverse, f)
  | p :: ps =>
      match p.meaning? f with
      | some (a, f) => meaningOfAll? f (a :: done) ps
      | none => none

end

end CodeAtlas.Pattern
