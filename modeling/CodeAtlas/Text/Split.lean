import CodeAtlas.Text.Lexis

/-!
# Splitting at the top level

A list of arguments is split at the separators that stand in no bracket and no literal. A line is
weighed by the brackets that it opens and closes.
-/

namespace CodeAtlas.Text

/-- Puts a piece, whose characters are in reverse, in front of `pieces` unless it is blank. -/
def addPiece (pieces : List (List Char)) (piece : List Char) : List (List Char) :=
  let trimmed := trim piece.reverse
  if trimmed.isEmpty then pieces else trimmed :: pieces

/-- How much deeper the text is nested behind `c`. Angle brackets count if `angle`, unless the
character `last?` in front makes an arrow of them. -/
def nesting (angle : Bool) (last? : Option Char) (c : Char) : Int :=
  match c with
  | '(' | '[' | '\x7b' => 1
  | ')' | ']' | '\x7d' => -1
  | '<' => if angle then 1 else 0
  | '>' => if angle && last? != some '-' && last? != some '=' then -1 else 0
  | _ => 0

/-- Splits the text behind the pieces found and the piece begun, all in reverse. -/
def splitFrom (lexis : Lexis) (angle : Bool) (sep : Char) (pieces : List (List Char))
    (piece : List Char) (depth : Int) : List Char → List (List Char)
  | [] => (addPiece pieces piece).reverse
  | c :: text =>
      if lexis.quotes.contains c then
        match _h : literalEnd? c 0 text with
        | none =>
            -- a literal that is never closed takes the rest of the text
            (addPiece pieces (text.reverse ++ c :: piece)).reverse
        | some (n, rest) =>
            splitFrom lexis angle sep pieces ((takeBytes n text).reverse ++ c :: piece) depth rest
      else
        let depth := depth + nesting angle piece.head? c
        if c = sep ∧ depth = 0 then splitFrom lexis angle sep (addPiece pieces piece) [] depth text
        else splitFrom lexis angle sep pieces (c :: piece) depth text
termination_by text => text.length
decreasing_by
  · have := length_le_of_literalEnd? _h
    simp
    omega
  all_goals simp

/-- The trimmed pieces between the separators outside brackets, without those that are blank. -/
def splitTopLevel (lexis : Lexis) (sep : Char) (text : List Char) : List (List Char) :=
  splitFrom lexis false sep [] [] 0 text

/-- Splits as `splitTopLevel` does, but angle brackets are brackets too. -/
def splitGeneric (lexis : Lexis) (sep : Char) (text : List Char) : List (List Char) :=
  splitFrom lexis true sep [] [] 0 text

/-- The brackets that the text opens less those that it closes, added to `delta`, up to a line
comment, or to a literal or comment without an end. -/
def depthDeltaFrom (lexis : Lexis) (delta : Int) (text : List Char) : Int :=
  match _h : token? lexis text with
  | none => delta
  | some (.lineComment _, _) => delta
  | some (.char c, rest) => depthDeltaFrom lexis (delta + nesting false none c) rest
  | some (_, rest) => depthDeltaFrom lexis delta rest
termination_by text.length
decreasing_by all_goals exact length_lt_of_token? _h

/-- The brackets that a line opens less those that it closes. -/
def lineDepthDelta (lexis : Lexis) (line : List Char) : Int := depthDeltaFrom lexis 0 line

/-! ## Lines and their depth

In the body of a declaration the members stand at the top level, and what is nested in them deeper.
-/

/-- The lines with the depth of brackets at which each begins. Brackets that close nothing do not
count. -/
def depthsFrom (lexis : Lexis) (depth : Nat) : List (List Char) → List (Nat × List Char)
  | [] => []
  | line :: lines =>
      (depth, line) :: depthsFrom lexis (depth + lineDepthDelta lexis line).toNat lines

/-- The lines that begin at the top level. -/
def topLines (lexis : Lexis) (lines : List (List Char)) : List (List Char) :=
  (depthsFrom lexis 0 lines).filterMap fun (depth, line) => if depth = 0 then some line else none

/-- The lines of a text with their line breaks. -/
def brokenLines (text : List Char) : List (List Char) := go [] text
where
  /-- Goes on behind the characters of a line, which are in reverse. -/
  go (line : List Char) : List Char → List (List Char)
    | [] => if line.isEmpty then [] else [line.reverse]
    | c :: rest => if c = '\n' then (c :: line).reverse :: go [] rest else go (c :: line) rest

end CodeAtlas.Text
