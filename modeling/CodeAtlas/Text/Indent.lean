import CodeAtlas.Text.Basic

/-!
# Blocks of lines

A block can also be the lines that are indented deeper than the line in front of them, and a
comment the lines above a declaration that start with a marker.
-/

namespace CodeAtlas.Text

/-- The columns of white space in front of a line; a tab takes four. -/
def indentation (line : List Char) : Nat :=
  (line.takeWhile Unicode.isBlank).foldl (fun n c => n + if c = '\t' then 4 else 1) 0

/-- Whether a line holds only white space. -/
def isBlankLine (line : List Char) : Bool := line.all Unicode.isBlank

/-- The end of the block in `lines`, the first of which has number `n`: behind the last of the
lines that are indented deeper than `base`, up to the first that is not. Blank lines belong to the
block only if a line of it follows. -/
def indentedEnd (base n stop : Nat) : List (List Char) → Nat
  | [] => stop
  | line :: lines =>
      if isBlankLine line then indentedEnd base (n + 1) stop lines
      else if indentation line ≤ base then stop
      else indentedEnd base (n + 1) (n + 1) lines

/-- The numbers, counted from 0, of the first line of the block behind line `header` and of the
line behind the last one. -/
def indentedBlock (lines : List (List Char)) (header : Nat) : Nat × Nat :=
  match lines.drop header with
  | [] => (header + 1, header + 1)
  | first :: rest => (header + 1, indentedEnd (indentation first) (header + 1) (header + 1) rest)

/-- The text of a comment line behind its marker, the first one of `markers` that fits. -/
def commentText? (markers : List (List Char)) (line : List Char) : Option (List Char) :=
  markers.findSome? fun marker => after? marker (trim line)

/-- The comment in the lines right above line `line`, counted from 1: the texts of its lines that
are not blank, without markers, joined by spaces. -/
def docComment? (lines : List (List Char)) (line : Nat) (markers : List (List Char)) :
    Option (List Char) :=
  if line = 0 || lines.length + 1 < line then none
  else
    let texts := ((lines.take (line - 1)).reverse.map (commentText? markers)).takeWhile
      Option.isSome
    let kept := (texts.filterMap id).filterMap fun text =>
      let text := trim (trimEndWord ['*', '/'] (trim text))
      if text.isEmpty then none else some text
    if kept.isEmpty then none else some ([' '].intercalate kept.reverse)

end CodeAtlas.Text
