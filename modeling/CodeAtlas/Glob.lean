import CodeAtlas.Pattern.Matcher
import CodeAtlas.Text.Utf8

/-!
# Path patterns

A path pattern is text with `*` for any bytes, `?` for one byte, `**` between slashes for any
folders, classes in brackets and alternatives in braces. It is matched against the bytes of a whole
path; a slash is a byte like any other.
-/

namespace CodeAtlas

namespace Glob

/-- A part of a path pattern. -/
inductive Token where
  | literal (c : Char)
  | any
  | zeroOrMore
  /-- Any folders in front of the rest. -/
  | foldersFirst
  /-- Anything below. -/
  | anythingBelow
  /-- A slash, or any folders between slashes. -/
  | foldersBetween
  | choice (negated : Bool) (ranges : List (Char × Char))
  | alternatives (branches : List (List Token))

/-- A pattern while it is read: the branches that are open, the innermost last one first, each with
its tokens in reverse, and for every open brace the number of branches in front of it. -/
structure Reading where
  branches : List (List Token)
  braces : List Nat
  last? : Option Char

/-- Adds a token to the innermost branch. -/
def Reading.push (r : Reading) (t : Token) : Reading :=
  match r.branches with
  | [] => { r with branches := [[t]] }
  | b :: rest => { r with branches := (t :: b) :: rest }

/-- The tokens of the innermost branch, in reverse. -/
def Reading.current (r : Reading) : List Token := r.branches.headD []

/-- Reads a class behind its bracket. `ranges` are in reverse; `inRange` says that a hyphen waits
for the end of the last range. -/
def readClass? (first inRange : Bool) (ranges : List (Char × Char)) :
    List Char → Option (List (Char × Char) × List Char)
  | [] => none
  | c :: text =>
      let closeRange (c : Char) : Option (List (Char × Char)) :=
        match ranges with
        | (a, _) :: ranges => if c < a then none else some ((a, c) :: ranges)
        | [] => none
      if c == ']' && !first then
        some ((if inRange then ('-', '-') :: ranges else ranges).reverse, text)
      else if c == '-' && !first && !inRange then readClass? false true ranges text
      else if inRange && c != ']' then
        match closeRange c with
        | some ranges => readClass? false false ranges text
        | none => none
      else readClass? false false ((c, c) :: ranges) text

/-- What two stars stand for, with what stands in front of them and behind them. -/
def readFolders (r : Reading) (before? : Option Char) (text : List Char) : Reading × List Char :=
  let plain := ((r.push .zeroOrMore).push .zeroOrMore, text)
  let nested := !r.braces.isEmpty
  if r.current.isEmpty then
    match text with
    | [] => (r.push .foldersFirst, [])
    | '/' :: rest => ({ r with last? := some '/' }.push .foldersFirst, rest)
    | _ => plain
  else if before? != some '/' && (!nested || (before? != some ',' && before? != some '\x7b'))
    then plain
  else
    let ending : Option (Bool × List Char) :=
      match text with
      | [] => some (true, [])
      | '/' :: rest => some (false, rest)
      | c :: _ => if nested && (c == ',' || c == '\x7d') then some (true, text) else none
    match ending, r.branches with
    | some (last, rest), (t :: tokens) :: outer =>
        let t := match t with
          | .foldersFirst => .foldersFirst
          | .anythingBelow => .anythingBelow
          | _ => if last then .anythingBelow else .foldersBetween
        ({ r with branches := (t :: tokens) :: outer, last? := if last then r.last? else some '/' },
          rest)
    | _, _ => plain

/-- Reads the whole pattern; `fuel` is its length. -/
def readTokens? : Nat → Reading → List Char → Option (List Token)
  | _, r, [] => if r.braces.isEmpty then some r.current.reverse else none
  | 0, _, _ => none
  | fuel + 1, r, c :: text =>
      let before? := r.last?
      let r := { r with last? := some c }
      match c with
      | '?' => readTokens? fuel (r.push .any) text
      | '*' =>
          match text with
          | '*' :: text =>
              let (r, text) := readFolders { r with last? := some '*' } before? text
              readTokens? fuel r text
          | _ => readTokens? fuel (r.push .zeroOrMore) text
      | '[' =>
          let (negated, text) := match text with
            | '!' :: text | '^' :: text => (true, text)
            | _ => (false, text)
          match readClass? true false [] text with
          | some (ranges, rest) =>
              readTokens? fuel ({ r with last? := some ']' }.push (.choice negated ranges)) rest
          | none => none
      | '\x7b' =>
          readTokens? fuel { r with
            branches := [] :: r.branches, braces := r.branches.length :: r.braces } text
      | '\x7d' =>
          match r.braces with
          | [] => none
          | n :: braces =>
              let count := r.branches.length - n
              let inner := (r.branches.take count).reverse.map List.reverse
              readTokens? fuel
                ({ r with branches := r.branches.drop count, braces }.push (.alternatives inner))
                  text
      | ',' =>
          if r.braces.isEmpty then readTokens? fuel (r.push (.literal ',')) text
          else readTokens? fuel { r with branches := [] :: r.branches } text
      | '\\' =>
          match text with
          | [] => none
          | c :: text => readTokens? fuel ({ r with last? := some c }.push (.literal c)) text
      | c => readTokens? fuel (r.push (.literal c)) text

/-- The tokens of a path pattern. -/
def tokens? (text : List Char) : Option (List Token) :=
  readTokens? (text.length + 1) ⟨[[]], [], none⟩ text

open Pattern (Node)
open Unicode (CharSet)

/-- Any byte. -/
def anyByte : CharSet := .ofSorted [(0, 255)]

/-- The bytes of a text in a row. -/
def literalNode (cs : List Char) : Node :=
  .text ((Text.encode cs).map fun b => Char.ofNat b.toNat)

/-- The bytes in a class. A range goes from the last byte of its first character to the first byte
of its last one, and the other bytes of the two stand for themselves. -/
def classSet (negated : Bool) (ranges : List (Char × Char)) : CharSet :=
  let single (b : UInt8) := (b.toNat, b.toNat)
  let parts := ranges.flatMap fun (a, b) =>
    let first := Text.encodeChar a
    let last := Text.encodeChar b
    if a == b then first.map single
    else first.dropLast.map single ++ [((first.getLastD 0).toNat, (last.headD 0).toNat)] ++
      last.tail.map single
  let s := CharSet.ofRanges parts
  if negated then s.complement.inter anyByte else s

/-- Any bytes. -/
def anyBytes : Node := .repeated 0 none true (.one anyByte true)

/-- A slash. -/
def slash : Node := literalNode ['/']

mutual

/-- The byte pattern of a token. Alternatives that all stand for nothing have none. -/
def Token.node? : Token → Option Node
  | .literal c => some (literalNode [c])
  | .any => some (.one anyByte true)
  | .zeroOrMore => some anyBytes
  | .foldersFirst => some (.choice [.repeated 0 (some 1) true slash, .row [anyBytes, slash]])
  | .anythingBelow => some (.row [slash, anyBytes])
  | .foldersBetween => some (.choice [slash, .row [slash, anyBytes, slash]])
  | .choice negated ranges => some (.one (classSet negated ranges) true)
  | .alternatives branches =>
      match branchNodes branches with
      | [] => none
      | branches => some (.choice branches)

/-- The byte patterns of tokens. -/
def tokenNodes : List Token → List Node
  | [] => []
  | t :: tokens => t.node?.toList ++ tokenNodes tokens

/-- The byte patterns of the branches that do not stand for nothing. -/
def branchNodes : List (List Token) → List Node
  | [] => []
  | tokens :: branches =>
      match tokenNodes tokens with
      | [] => branchNodes branches
      | nodes => .row nodes :: branchNodes branches

end

end Glob

/-- A path pattern that has been read. -/
structure Glob where
  program : Pattern.Program

namespace Glob

/-- The path pattern that a text writes. -/
def ofString? (s : String) : Option Glob :=
  (tokens? s.toList).map fun tokens =>
    let body := match tokens with
      | [.foldersFirst] => anyBytes
      | _ => .row (tokenNodes tokens)
    ⟨(Pattern.Node.row [.look .textStart, body, .look .textEnd]).program⟩

/-- Whether a path as a whole fits. -/
def test (g : Glob) (path : String) : Bool :=
  let bytes := (Text.encode path.toList).map fun b => Char.ofNat b.toNat
  (g.program.search (Pattern.stepBound g.program.code bytes.length) (.start bytes)).isSome

end Glob

end CodeAtlas
