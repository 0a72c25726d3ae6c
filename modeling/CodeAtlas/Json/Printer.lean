import CodeAtlas.Json.Basic

/-!
# The text of documents

A document is written on one line without spaces, or over several lines with its nested values
indented by two spaces.
-/

namespace CodeAtlas.Json

/-- A hexadecimal digit. -/
def hexDigit (n : Nat) : Char := if n < 10 then Char.ofNat (48 + n) else Char.ofNat (87 + n)

/-- A character inside a string: quotes, backslashes and control characters are escaped. -/
def escapeChar (c : Char) : List Char :=
  match c with
  | '"' => ['\\', '"']
  | '\\' => ['\\', '\\']
  | '\n' => ['\\', 'n']
  | '\r' => ['\\', 'r']
  | '\t' => ['\\', 't']
  | '\x08' => ['\\', 'b']
  | '\x0c' => ['\\', 'f']
  | c =>
      if c.toNat < 32 then ['\\', 'u', '0', '0', hexDigit (c.toNat / 16), hexDigit (c.toNat % 16)]
      else [c]

/-- The text of a string, with quotes. -/
def quoted (s : String) : List Char := '"' :: (s.toList.flatMap escapeChar ++ ['"'])

mutual

/-- The text of a document on one line. -/
def write : Json → List Char
  | .null => ['n', 'u', 'l', 'l']
  | .bool true => ['t', 'r', 'u', 'e']
  | .bool false => ['f', 'a', 'l', 's', 'e']
  | .num n => n.chars
  | .str s => quoted s
  | .arr items => '[' :: (writeItems items ++ [']'])
  | .obj members => '\x7b' :: (writeMembers members ++ ['\x7d'])

/-- The text of the items of an array. -/
def writeItems : List Json → List Char
  | [] => []
  | [item] => write item
  | item :: items => write item ++ ',' :: writeItems items

/-- The text of the members of an object. -/
def writeMembers : List (String × Json) → List Char
  | [] => []
  | [(key, value)] => quoted key ++ ':' :: write value
  | (key, value) :: members => quoted key ++ ':' :: (write value ++ ',' :: writeMembers members)

end

/-- The document on one line. -/
def render (j : Json) : String := String.ofList (write j)

/-- A new line of text indented by `depth` steps. -/
def newLine (depth : Nat) : List Char := '\n' :: List.replicate (2 * depth) ' '

mutual

/-- The text of a document over several lines, whose first line is indented by `depth` steps. -/
def writePretty (depth : Nat) : Json → List Char
  | .arr [] => ['[', ']']
  | .arr items =>
      '[' :: (newLine (depth + 1) ++ writePrettyItems (depth + 1) items ++ newLine depth ++ [']'])
  | .obj [] => ['\x7b', '\x7d']
  | .obj members =>
      '\x7b' :: (newLine (depth + 1) ++ writePrettyMembers (depth + 1) members ++ newLine depth
        ++ ['\x7d'])
  | .null => ['n', 'u', 'l', 'l']
  | .bool b => write (.bool b)
  | .num n => n.chars
  | .str s => quoted s

/-- The text of the items of an array, each on a line of its own. -/
def writePrettyItems (depth : Nat) : List Json → List Char
  | [] => []
  | [item] => writePretty depth item
  | item :: items =>
      writePretty depth item ++ ',' :: (newLine depth ++ writePrettyItems depth items)

/-- The text of the members of an object, each on a line of its own. -/
def writePrettyMembers (depth : Nat) : List (String × Json) → List Char
  | [] => []
  | [(key, value)] => quoted key ++ ':' :: ' ' :: writePretty depth value
  | (key, value) :: members =>
      quoted key ++ ':' :: ' ' ::
        (writePretty depth value ++ ',' :: (newLine depth ++ writePrettyMembers depth members))

end

/-- The document over several lines. -/
def renderPretty (j : Json) : String := String.ofList (writePretty 0 j)

end CodeAtlas.Json
