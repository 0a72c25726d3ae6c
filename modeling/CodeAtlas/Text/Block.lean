import CodeAtlas.Text.Lexis

/-!
# Balanced blocks

A declaration is found by its head, and its body by the bracket that closes the one behind the
head. The search goes token by token, so that brackets in comments and literals do not count.
-/

namespace CodeAtlas.Text

/-- The offset of the token at which every open bracket is closed. `depth` brackets are open in
front of the text, which starts at byte `offset`. -/
def closerFrom? (lexis : Lexis) (opener closer : Char) (depth offset : Nat) (text : List Char) :
    Option Nat :=
  match _h : token? lexis text with
  | none => none
  | some (t, rest) =>
      let later (depth : Nat) := closerFrom? lexis opener closer depth (offset + t.size) rest
      if t = .char opener then later (depth + 1)
      else if t = .char closer then if depth ≤ 1 then some offset else later (depth - 1)
      else later depth
termination_by text.length
decreasing_by all_goals exact length_lt_of_token? _h

/-- The offset of the bracket that closes the one at byte `start`. There is none if `opener` does
not stand there or is never closed. -/
def findBalanced (lexis : Lexis) (opener closer : Char) (text : List Char) (start : Nat) :
    Option Nat := do
  let rest ← dropBytes? start text
  if rest.head? = some opener then closerFrom? lexis opener closer 0 start rest else none

/-- The offset behind the string literal whose first quote is at byte `start`. -/
def skipLiteral? (quote : Char) (text : List Char) (start : Nat) : Option Nat := do
  let inside ← dropBytes? (start + quote.utf8Size) text
  let (stop, _) ← literalEnd? quote (start + quote.utf8Size) inside
  return stop

/-- The offsets between which the body of the first block in braces at or behind `start` stands. -/
def braceRange? (lexis : Lexis) (text : List Char) (start : Nat) : Option (Nat × Nat) := do
  let rest ← dropBytes? start text
  let ahead ← indexOf? rest ['\x7b']
  let stop ← findBalanced lexis '\x7b' '\x7d' text (start + ahead)
  return (start + ahead + 1, stop)

/-- The body of the first block in braces at or behind `start`. -/
def braceBody? (lexis : Lexis) (text : List Char) (start : Nat) : Option (List Char) :=
  (braceRange? lexis text start).map fun (a, b) => slice text a b

/-- The bracket that closes `opener`. -/
def closerOf? (opener : Char) : Option Char :=
  match opener with
  | '(' => some ')'
  | '[' => some ']'
  | '\x7b' => some '\x7d'
  | '<' => some '>'
  | _ => none

/-- What stands between the bracket at byte `start` and the one that closes it. -/
def delimitedBody? (lexis : Lexis) (text : List Char) (start : Nat) : Option (List Char) := do
  let opener ← (← dropBytes? start text).head?
  let closer ← closerOf? opener
  let stop ← findBalanced lexis opener closer text start
  return slice text (start + 1) stop

end CodeAtlas.Text
