import CodeAtlas.Pattern.Phrase
import CodeAtlas.Unicode.Property

/-!
# The text form of patterns

Reads the text of a pattern into a `Phrase`. The reader goes through the text once, with the groups
that are still open on a stack; each step takes at least one character. There are no references
back to groups, and no conditions on what follows or precedes beyond those of `Anchor`.
-/

namespace CodeAtlas.Pattern

open Unicode (CharSet isBlank)

/-! ## White space -/

/-- The text behind white space and comments. -/
def skipFrom : (inComment : Bool) → List Char → List Char
  | _, [] => []
  | true, c :: rest => skipFrom (c != '\n') rest
  | false, c :: rest =>
      if isBlank c || c == '#' then skipFrom (c == '#') rest else c :: rest

theorem length_skipFrom_le (inComment : Bool) (text : List Char) :
    (skipFrom inComment text).length ≤ text.length := by
  induction text generalizing inComment with
  | nil => simp [skipFrom]
  | cons c rest ih =>
      cases inComment with
      | true => exact Nat.le_succ_of_le (ih _)
      | false =>
          rw [skipFrom]
          split
          · exact Nat.le_succ_of_le (ih _)
          · exact Nat.le_refl _

/-- The text behind white space and comments, which only verbose patterns skip. -/
def skip (verbose : Bool) (text : List Char) : List Char :=
  if verbose then skipFrom false text else text

theorem length_skip_lt (verbose : Bool) (c : Char) (rest : List Char) :
    (skip verbose rest).length < (c :: rest).length := by
  have := length_skipFrom_le false rest
  rw [skip, List.length_cons]
  split <;> omega

/-- The character behind the one at hand, of which `rest` is what follows. A verbose pattern looks
past white space, and from the start of a comment to what stands first in it. -/
def peek (verbose : Bool) (rest : List Char) : Option Char :=
  if verbose then
    match rest.dropWhile isBlank with
    | '#' :: comment => (comment.dropWhile isBlank).head?
    | c :: _ => some c
    | [] => rest.head?
  else rest.head?

/-! ## Escapes -/

/-- What stands for one character, a set or a place. -/
inductive Primitive where
  | char (c : Glyph)
  | anchor (a : Anchor)
  | shorthand (kind : Shorthand) (negated : Bool)
  | property (name : PropertyName) (negated : Bool)

/-- The value of a hexadecimal digit. -/
def hexValue? (c : Char) : Option Nat :=
  if c.isDigit then some (c.toNat - 48)
  else if 'a' ≤ c && c ≤ 'f' then some (c.toNat - 87)
  else if 'A' ≤ c && c ≤ 'F' then some (c.toNat - 55)
  else none

/-- The character of a code point that is one. -/
def charOf? (n : Nat) : Option Char :=
  if h : n.isValidChar then some (Char.ofNatAux n h) else none

/-- A number of `width` hexadecimal digits in front of the text. -/
def fixedHex? (verbose : Bool) : (width : Nat) → (value : Nat) → List Char →
    Option (Nat × List Char)
  | 0, value, text => some (value, text)
  | _ + 1, _, [] => none
  | width + 1, value, c :: rest => do
    let d ← hexValue? c
    fixedHex? verbose width (16 * value + d) (skip verbose rest)

/-- A number of hexadecimal digits up to a closing brace, of which there is at least one. -/
def bracedHex? (verbose : Bool) (value? : Option Nat) : List Char → Option (Nat × List Char)
  | [] => none
  | c :: rest =>
      if c == '\x7d' then value?.map fun n => (n, rest)
      else
        match hexValue? c with
        | some d => bracedHex? verbose (some (16 * value?.getD 0 + d)) (skip verbose rest)
        | none => none
termination_by text => text.length
decreasing_by exact length_skip_lt verbose c rest

/-- A code point of `width` hexadecimal digits, or of any number of them in braces. -/
def hexEscape? (verbose : Bool) (width : Nat) (text : List Char) : Option (Primitive × List Char) :=
  match skip verbose text with
  | '\x7b' :: rest => do
    let (n, rest) ← bracedHex? verbose none (skip verbose rest)
    return (.char { char := ← charOf? n }, rest)
  | text => do
    let (n, rest) ← fixedHex? verbose width 0 text
    return (.char { char := ← charOf? n, isByte := width == 2 }, rest)

/-- The characters up to a closing brace, behind those in `name`, which is in reverse. -/
def bracedName? (verbose : Bool) (name : List Char) : List Char → Option (List Char × List Char)
  | [] => none
  | c :: rest =>
      if c == '\x7d' then some (name.reverse, rest)
      else bracedName? verbose (c :: name) (skip verbose rest)
termination_by text => text.length
decreasing_by exact length_skip_lt verbose c rest

/-- What stands in front of an operator that is a single character, and what stands behind it. -/
def splitAt? (op : Char) (name : List Char) : Option (List Char × List Char) :=
  match name.dropWhile (· != op) with
  | [] => none
  | _ :: value => some (name.takeWhile (· != op), value)

/-- What stands in front of the first `!=`, and what stands behind it. -/
def splitUnequal? : (front : List Char) → List Char → Option (List Char × List Char)
  | _, [] => none
  | front, '!' :: '=' :: value => some (front.reverse, value)
  | front, c :: rest => splitUnequal? (c :: front) rest

/-- A property with or without a value. The sign in front of the value makes no difference. -/
def PropertyName.ofChars (name : List Char) : PropertyName :=
  match (splitUnequal? [] name).or ((splitAt? ':' name).or (splitAt? '=' name)) with
  | some (name, value) => .valued name value
  | none => .plain name

/-- Reads the name of a property, of one letter or in braces. -/
def propertyEscape? (verbose negated : Bool) (text : List Char) : Option (Primitive × List Char) :=
  match skip verbose text with
  | [] | '\\' :: _ => none
  | '\x7b' :: rest => do
    let (name, rest) ← bracedName? verbose [] (skip verbose rest)
    return (.property (.ofChars name) negated, rest)
  | c :: rest => some (.property (.plain [c]) negated, rest)

/-- Whether `c` may stand in the name of a kind of word boundary. -/
def isBoundaryChar (c : Char) : Bool := c.isAlpha || c == '-'

/-- The longest run of characters for the name of a word boundary, behind those in `name`, which is
in reverse. -/
def boundaryName (verbose : Bool) (name : List Char) : List Char → List Char × List Char
  | [] => (name.reverse, [])
  | c :: rest =>
      if isBoundaryChar c then boundaryName verbose (c :: name) (skip verbose rest)
      else (name.reverse, c :: rest)
termination_by text => text.length
decreasing_by exact length_skip_lt verbose c rest

/-- Reads what follows `\b`: the kind of word boundary in braces, unless the braces hold the bounds
of a repetition. -/
def boundary? (verbose : Bool) (text : List Char) : Option (Primitive × List Char) :=
  match text with
  | '\x7b' :: rest =>
      match skip verbose rest with
      | [] => none
      | c :: rest =>
          if isBoundaryChar c then do
            let (name, rest) := boundaryName verbose [] (c :: rest)
            let kind ← match String.ofList name with
              | "start" => some Anchor.wordStart
              | "end" => some Anchor.wordEnd
              | "start-half" => some Anchor.wordStartHalf
              | "end-half" => some Anchor.wordEndHalf
              | _ => none
            match rest with
            | '\x7d' :: rest => return (.anchor kind, rest)
            | _ => none
          else some (.anchor .wordBoundary, text)
  | _ => some (.anchor .wordBoundary, text)

/-- Reads what follows a backslash. -/
def escape? (verbose : Bool) : List Char → Option (Primitive × List Char)
  | [] => none
  | c :: rest =>
      let plain (code : Nat) : Option (Primitive × List Char) :=
        some (.char { char := Char.ofNat code }, rest)
      let anchor (a : Anchor) : Option (Primitive × List Char) := some (.anchor a, rest)
      let shorthand (kind : Shorthand) (negated : Bool) : Option (Primitive × List Char) :=
        some (.shorthand kind negated, rest)
      match c with
      | 'd' => shorthand .digit false
      | 'D' => shorthand .digit true
      | 's' => shorthand .blank false
      | 'S' => shorthand .blank true
      | 'w' => shorthand .word false
      | 'W' => shorthand .word true
      | 'p' => propertyEscape? verbose false rest
      | 'P' => propertyEscape? verbose true rest
      | 'x' => hexEscape? verbose 2 rest
      | 'u' => hexEscape? verbose 4 rest
      | 'U' => hexEscape? verbose 8 rest
      | 'a' => plain 7
      | 'f' => plain 12
      | 't' => plain 9
      | 'n' => plain 10
      | 'r' => plain 13
      | 'v' => plain 11
      | 'A' => anchor .textStart
      | 'z' => anchor .textEnd
      | 'b' => boundary? verbose rest
      | 'B' => anchor .noWordBoundary
      | '<' => anchor .wordStart
      | '>' => anchor .wordEnd
      | c => if c.toNat < 128 && !c.isAlphanum then plain c.toNat else none

/-! ## Sets in brackets -/

/-- The ASCII class of a name such as `alpha`. -/
def asciiClass? (name : String) : Option CharSet :=
  (match name with
  | "alnum" => some "30-39 41-5A 61-7A"
  | "alpha" => some "41-5A 61-7A"
  | "ascii" => some "0-7F"
  | "blank" => some "9 20"
  | "cntrl" => some "0-1F 7F"
  | "digit" => some "30-39"
  | "graph" => some "21-7E"
  | "lower" => some "61-7A"
  | "print" => some "20-7E"
  | "punct" => some "21-2F 3A-40 5B-60 7B-7E"
  | "space" => some "9-D 20"
  | "upper" => some "41-5A"
  | "word" => some "30-39 41-5A 5F 61-7A"
  | "xdigit" => some "30-39 41-46 61-66"
  | _ => none).map CharSet.ofText

/-- A class such as `[:alpha:]` behind its first bracket. -/
def asciiItem? : List Char → Option (SetPhrase × List Char)
  | ':' :: rest => do
    let (negated, rest) := match rest with
      | '^' :: rest => (true, rest)
      | _ => (false, rest)
    let name := rest.takeWhile (· != ':')
    match rest.drop name.length with
    | ':' :: ']' :: rest => return (.ascii (← asciiClass? (String.ofList name)) negated, rest)
    | _ => none
  | _ => none

/-- A part of the brackets around the place at hand: a set that was open when an inner one started,
or the left side of an operator. -/
inductive SetFrame where
  | outer (items : List (Nested SetPhrase)) (negated : Bool)
  | left (op : SetOp) (phrase : Nested SetPhrase)

/-- A set inside brackets that is still open: its items since the last operator, in reverse. -/
structure OpenSet where
  items : List (Nested SetPhrase)
  negated : Bool
  frames : List SetFrame

/-- The items since the last operator as one part, and the operators in front of it applied. -/
def OpenSet.finish? (o : OpenSet) : Option (Nested SetPhrase × List SetFrame) := do
  let items ← Nested.gather? .empty .union o.items
  match o.frames with
  | .left op left :: frames =>
      let whole ← Nested.around? (max left.depth items.depth) (.operation op left.value items.value)
      return (whole, frames)
  | frames => return (items, frames)

/-- A character that stands for itself inside brackets. -/
def setChar (c : Char) : Nested SetPhrase := ⟨.char { char := c }, 0⟩

/-- The hyphens in front of the text, as items in front of `items`, and the text behind them. -/
def leadingHyphens (verbose : Bool) (items : List (Nested SetPhrase)) :
    List Char → List (Nested SetPhrase) × List Char
  | [] => (items, [])
  | c :: rest =>
      if c == '-' then leadingHyphens verbose (setChar c :: items) (skip verbose rest)
      else (items, c :: rest)
termination_by text => text.length
decreasing_by exact length_skip_lt verbose c rest

/-- Reads the start of a set behind its bracket: `^`, hyphens, and a bracket that stands for
itself. -/
def openBracket? (verbose : Bool) (rest : List Char) :
    Option (List (Nested SetPhrase) × Bool × List Char) := do
  let text := skip verbose rest
  let (negated, text) := match text with
    | '^' :: rest => (true, skip verbose rest)
    | _ => (false, text)
  let (items, text) := leadingHyphens verbose [] text
  let (items, text) := match items, text with
    | [], ']' :: rest => ([setChar ']'], skip verbose rest)
    | _, _ => (items, text)
  if text.isEmpty then none else return (items, negated, text)

/-- What stands for itself or starts with a backslash inside brackets. -/
def setPrimitive? (verbose : Bool) : List Char → Option (Primitive × List Char)
  | [] => none
  | '\\' :: rest => escape? verbose rest
  | c :: rest => some (.char { char := c }, rest)

/-- A part that is no range. -/
def Primitive.item? : Primitive → Option SetPhrase
  | .char c => some (.char c)
  | .shorthand kind negated => some (.shorthand kind negated)
  | .property name negated => some (.property name negated)
  | .anchor _ => none

/-- Reads one item inside brackets, or a range. -/
def setRange? (verbose : Bool) (text : List Char) : Option (SetPhrase × List Char) := do
  let (first, rest) ← setPrimitive? verbose text
  match skip verbose rest with
  | [] => none
  | '-' :: behind =>
      let next := peek verbose behind
      if next == some ']' || next == some '-' then return (← first.item?, '-' :: behind)
      else
        let (last, rest) ← setPrimitive? verbose (skip verbose behind)
        match first, last with
        | .char a, .char b =>
            if a.char.toNat ≤ b.char.toNat then return (.range a b, rest) else none
        | _, _ => none
  | rest => return (← first.item?, rest)

/-- Reads up to the bracket that closes the outermost set. Every step takes a character, and `fuel`
is greater than the length of the text. -/
def readSet? (verbose : Bool) : (fuel : Nat) → OpenSet → List Char →
    Option (Nested Phrase × List Char)
  | 0, _, _ => none
  | fuel + 1, o, text =>
      let operator (op : SetOp) (rest : List Char) : Option (Nested Phrase × List Char) := do
        let (left, frames) ← o.finish?
        readSet? verbose fuel { o with items := [], frames := .left op left :: frames } rest
      match skip verbose text with
      | [] => none
      | '[' :: rest =>
          match asciiItem? rest with
          | some (item, rest) => readSet? verbose fuel { o with items := ⟨item, 0⟩ :: o.items } rest
          | none => do
            let (items, negated, rest) ← openBracket? verbose rest
            if o.frames.length < 2 * maxDepth then
              readSet? verbose fuel ⟨items, negated, .outer o.items o.negated :: o.frames⟩ rest
            else none
      | ']' :: rest => do
        let (body, frames) ← o.finish?
        match frames with
        | .outer items negated :: frames =>
            let inner ← Nested.around? body.depth (.bracketed o.negated body.value)
            readSet? verbose fuel ⟨inner :: items, negated, frames⟩ rest
        | _ => return (← Nested.around? body.depth (.bracketed o.negated body.value), rest)
      | '&' :: '&' :: rest => operator .inter rest
      | '-' :: '-' :: rest => operator .diff rest
      | '~' :: '~' :: rest => operator .symmetric rest
      | text => do
        let (item, rest) ← setRange? verbose text
        readSet? verbose fuel { o with items := ⟨item, 0⟩ :: o.items } rest

/-! ## Groups -/

/-- What a group that is open will become. -/
inductive Opening where
  | capture (index : Nat) (name? : Option String)
  | scoped (s : Switches)

/-- A group that is still open: what stood before it at its level, and whether that was verbose. -/
structure Level where
  branches : List (Nested Phrase)
  items : List (Nested Phrase)
  verbose : Bool
  opening : Opening

/-- How far a pattern has been read. `branches` and `items` are in reverse. -/
structure Reading where
  rest : List Char
  branches : List (Nested Phrase) := []
  items : List (Nested Phrase) := []
  verbose : Bool := false
  levels : List Level := []
  groups : Nat := 0
  names : List String := []

namespace Reading

/-- The phrase read at this level so far. -/
def phrase? (r : Reading) : Option (Nested Phrase) := do
  let last ← Nested.gather? .empty .row r.items
  Nested.gather? .empty .choice (last :: r.branches)

/-- Adds an item. -/
def add (r : Reading) (item : Nested Phrase) (rest : List Char) : Reading :=
  { r with items := item :: r.items, rest }

/-- Repeats the last item, unless there is none or it is a switch. -/
def repeat? (r : Reading) (least : Nat) (most? : Option Nat) (lazily : Bool) (rest : List Char) :
    Option Reading :=
  match r.items with
  | [] => none
  | item :: items =>
      match item.value with
      | .switches _ => none
      | body => do
        let whole ← Nested.around? item.depth (.repeated least most? lazily body)
        return { r with items := whole :: items, rest }

/-- Repeats the last item as an operator of one character says. A question mark right behind it
makes the repetition lazy. -/
def repeatOp? (r : Reading) (least : Nat) (most? : Option Nat) (rest : List Char) :
    Option Reading :=
  match rest with
  | '?' :: rest => r.repeat? least most? true rest
  | _ => r.repeat? least most? false rest

/-- The number that digits in front of the text write, behind those of `value?`. -/
def digitsFrom (verbose : Bool) (value? : Option Nat) : List Char → Option Nat × List Char
  | [] => (value?, [])
  | c :: rest =>
      if c.isDigit then
        digitsFrom verbose (some (10 * value?.getD 0 + (c.toNat - 48))) (skip verbose rest)
      else (value?, c :: rest)
termination_by text => text.length
decreasing_by exact length_skip_lt verbose c rest

/-- A bound of a repetition, with white space around it, and the text behind it. -/
def bound (verbose : Bool) (text : List Char) : Option Nat × List Char :=
  let (value?, rest) := digitsFrom verbose none (text.dropWhile isBlank)
  match rest with
  | c :: _ => (value?, if isBlank c then skip verbose (rest.dropWhile isBlank) else rest)
  | [] => (value?, [])

/-- Reads the bounds of a repetition behind its brace. -/
def bounds? (r : Reading) (rest : List Char) : Option Reading := do
  let fits (n : Nat) : Bool := n < Nat.pow 2 32
  let (least?, rest) := bound r.verbose (skip r.verbose rest)
  let least ← least?
  let (most?, rest) ← match rest with
    | ',' :: rest =>
        match skip r.verbose rest with
        | '\x7d' :: rest => some (none, '\x7d' :: rest)
        | rest =>
            let (most?, rest) := bound r.verbose rest
            most?.map fun most => (some most, rest)
    | _ => some (some least, rest)
  match rest with
  | '\x7d' :: rest =>
      if fits least && most?.all fun m => least ≤ m && fits m then
        match skip r.verbose rest with
        | '?' :: rest => r.repeat? least most? true rest
        | rest => r.repeat? least most? false rest
      else none
  | _ => none

/-- Opens a group. -/
def openGroup? (r : Reading) (opening : Opening) (verbose : Bool) (rest : List Char) :
    Option Reading :=
  if r.levels.length < maxDepth then
    some { r with
      rest, verbose, branches := [], items := []
      levels := ⟨r.branches, r.items, r.verbose, opening⟩ :: r.levels }
  else none

/-- Opens a group with the next number. -/
def openCapture? (r : Reading) (name? : Option String) (rest : List Char) : Option Reading :=
  let index := r.groups + 1
  { r with groups := index }.openGroup? (.capture index name?) r.verbose rest

/-- Whether `c` may stand in the name of a group, in front or further on. -/
def isNameChar (front : Bool) (c : Char) : Bool :=
  c == '_' || (if front then Unicode.isAlphabetic c
    else Unicode.isAlphanumeric c || c == '.' || c == '[' || c == ']')

/-- Opens a group with a name, which stands in front of `>`. -/
def openNamed? (r : Reading) (rest : List Char) : Option Reading :=
  let name := rest.takeWhile (· != '>')
  let text := String.ofList name
  match name, rest.drop name.length with
  | c :: more, _ :: rest =>
      if isNameChar true c && more.all (isNameChar false) && !r.names.contains text then
        { r with names := text :: r.names }.openCapture? (some text) rest
      else none
  | _, _ => none

/-- Reads switches up to `)` or `:`, which is the first character of the text returned. `on` says
which way they are turned, and `dangling` that nothing stands behind the hyphen yet. -/
def switches? : (on dangling : Bool) → Switches → List Char → Option (Switches × List Char)
  | _, _, _, [] => none
  | on, dangling, s, c :: rest =>
      if c == ')' || c == ':' then if dangling then none else some (s, c :: rest)
      else if c == '-' then if on then switches? false true s rest else none
      else do
        let s ← s.add? on (← Switch.ofChar? c)
        switches? on false s rest

/-- Opens a group of any kind behind its parenthesis, or turns switches. -/
def open? (r : Reading) (rest : List Char) : Option Reading :=
  match skip r.verbose rest with
  | '?' :: '=' :: _ | '?' :: '!' :: _ | '?' :: '<' :: '=' :: _ | '?' :: '<' :: '!' :: _ => none
  | '?' :: 'P' :: '<' :: rest | '?' :: '<' :: rest => r.openNamed? rest
  | '?' :: rest => do
    let (s, rest) ← switches? true false {} rest
    let verbose := (s.turned? .verbose).getD r.verbose
    match rest with
    | ')' :: rest =>
        if s.on.isEmpty && s.off.isEmpty then none
        else return { r with verbose }.add ⟨.switches s, 0⟩ rest
    | rest => r.openGroup? (.scoped s) verbose (rest.drop 1)
  | rest => r.openCapture? none rest

/-- Closes the innermost group. -/
def close? (r : Reading) (rest : List Char) : Option Reading := do
  match r.levels with
  | [] => none
  | l :: levels =>
      let body ← r.phrase?
      let whole ← Nested.around? body.depth (match l.opening with
        | .capture index name? => .capture index name? body.value
        | .scoped s => .scoped s body.value)
      return { r with
        rest, branches := l.branches, items := whole :: l.items, verbose := l.verbose, levels }

/-- Adds what stands for one character, a set or a place. -/
def addPrimitive (r : Reading) (p : Primitive) (rest : List Char) : Reading :=
  let item : Phrase := match p with
    | .char c => .char c
    | .anchor a => .anchor a
    | .shorthand kind negated => .shorthand kind negated
    | .property name negated => .property name negated
  r.add ⟨item, 0⟩ rest

/-- Reads one item, operator or bracket; `fuel` is no less than the length of the text. -/
def step? (fuel : Nat) (r : Reading) : Option Reading :=
  match r.rest with
  | [] => none
  | '(' :: rest => r.open? rest
  | ')' :: rest => r.close? rest
  | '|' :: rest => do
    let branch ← Nested.gather? .empty .row r.items
    return { r with rest, branches := branch :: r.branches, items := [] }
  | '[' :: rest => do
    let (items, negated, rest) ← openBracket? r.verbose rest
    let (set, rest) ← readSet? r.verbose fuel ⟨items, negated, []⟩ rest
    return r.add set rest
  | '*' :: rest => r.repeatOp? 0 none rest
  | '+' :: rest => r.repeatOp? 1 none rest
  | '?' :: rest => r.repeatOp? 0 (some 1) rest
  | '\x7b' :: rest => r.bounds? rest
  | '.' :: rest => some (r.add ⟨.dot, 0⟩ rest)
  | '^' :: rest => some (r.add ⟨.anchor .lineStart, 0⟩ rest)
  | '$' :: rest => some (r.add ⟨.anchor .lineEnd, 0⟩ rest)
  | '\\' :: rest => do
    let (p, rest) ← escape? r.verbose rest
    return r.addPrimitive p rest
  | c :: rest => some (r.addPrimitive (.char { char := c }) rest)

/-- Reads to the end. Every step takes a character, and `fuel` is greater than the length of the
text. -/
def finish? : (fuel : Nat) → Reading → Option Reading
  | 0, _ => none
  | fuel + 1, r =>
      let r := { r with rest := skip r.verbose r.rest }
      if r.rest.isEmpty then if r.levels.isEmpty then some r else none
      else do finish? fuel (← step? fuel r)

end Reading

/-- The phrase that a text writes. -/
def read? (text : List Char) : Option Phrase := do
  let r ← Reading.finish? (text.length + 1) { rest := text }
  return (← r.phrase?).value

end CodeAtlas.Pattern
