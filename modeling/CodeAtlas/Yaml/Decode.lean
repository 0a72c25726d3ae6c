import CodeAtlas.Yaml.Event
import CodeAtlas.Yaml.Value

/-!
# Values of documents

A document is read into a value of a known type, event by event. A reader gives the value of the
next node and the events behind it, or says what is wrong: with the path of the node, if the
document is in order so far.
-/

namespace CodeAtlas.Yaml

/-- Reads the next node of a document, which has a path. -/
abbrev Reader (α : Type) := Document → (path : String) → List Event → Except Fault (α × List Event)

/-- The fault that a node with a path has. -/
def nodeFault (path message : String) (position : Position) : Fault :=
  { problem := if path.isEmpty then message else path ++ ": " ++ message, position }

/-- The path of a member. -/
def memberPath (path key : String) : String := if path.isEmpty then key else path ++ "." ++ key

/-- What is wrong where the events end. -/
def Document.ending (d : Document) : Fault :=
  d.fault?.getD { problem := "EOF while parsing a value" }

/-- The next event, and those behind it. -/
def Document.next (d : Document) : List Event → Except Fault (Event × List Event)
  | [] => .error d.ending
  | e :: rest => .ok (e, rest)

/-- Reads the node that an alias leads to, if the next event is one. -/
def throughAlias {α : Type} (reader : Reader α) : Reader α := fun d path events => do
  let (e, rest) ← d.next events
  match e.kind with
  | .alias anchor =>
      match d.target? anchor with
      | some target => do
        let (a, _) ← reader d path target
        return (a, rest)
      | none => throw (nodeFault path "unresolved alias" e.position)
  | _ => reader d path events

/-! ## Messages -/

/-- What tags of single values start with. -/
def tagSpace : String := "tag:yaml.org,2002:"

/-- What is said about a tagged scalar that is no such value. -/
def badValue (text expected : String) : String :=
  "invalid value: string " ++ quotedText text ++ ", expected " ++ expected

/-- What is said about a node of another type. -/
def badType (name expected : String) : String :=
  "invalid type: " ++ name ++ ", expected " ++ expected

/-- What is said about a scalar of another type. -/
def scalarMismatch (tag : Option String) (style : Style) (text expected : String) : String :=
  let asString := badType ("string " ++ quotedText text) expected
  let asPlain := badType (plainName text) expected
  match tag with
  | none => if style = .plain then asPlain else asString
  | some tag =>
      if tag == tagSpace ++ "bool" then
        match truth? text with
        | some _ => asPlain
        | none => badValue text "a boolean"
      else if tag == tagSpace ++ "int" then
        match integer? text >>= integerName with
        | some name => badType name expected
        | none => badValue text "an integer"
      else if tag == tagSpace ++ "float" then
        match float? text with
        | some f => badType ("floating point `" ++ Decimal.pointed f ++ "`") expected
        | none => badValue text "a float"
      else if tag == tagSpace ++ "null" then
        if isNull text then badType "unit value" expected else badValue text "null"
      else if Text.startsWith tag.toList ['!'] && style = .plain then asPlain
      else asString

/-- What is wrong with a node of another type. -/
def mismatch (path expected : String) (e : Event) : Fault :=
  match e.kind with
  | .scalar tag style text => nodeFault path (scalarMismatch tag style text expected) e.position
  | .sequenceStart => nodeFault path (badType "sequence" expected) e.position
  | .mappingStart => nodeFault path (badType "map" expected) e.position
  | _ => { problem := "EOF while parsing a value" }

/-! ## Scalars -/

/-- Reads a scalar, as text. -/
def string (expected : String) : Reader String := throughAlias fun d path events => do
  let (e, rest) ← d.next events
  match e.kind with
  | .scalar _ _ text => return (text, rest)
  | _ => throw (mismatch path expected e)

/-- Whether a scalar may stand for a single value: it is plain, or a literal with the tag. -/
def isSingle (type : String) (tag : Option String) (style : Style) : Bool :=
  style = .plain || (style = .literal && tag == some (tagSpace ++ type))

/-- Reads a truth value. -/
def bool : Reader Bool := throughAlias fun d path events => do
  let (e, rest) ← d.next events
  match e.kind with
  | .scalar tag style text =>
      match if isSingle "bool" tag style then truth? text else none with
      | some b => return (b, rest)
      | none => throw (mismatch path "a boolean" e)
  | _ => throw (mismatch path "a boolean" e)

/-- Reads a natural number of a type that is smaller than a word, or a word. -/
def natural (type : String) (bound : Nat) : Reader Nat := throughAlias fun d path events => do
  let (e, rest) ← d.next events
  match e.kind with
  | .scalar tag style text =>
      match if isSingle "int" tag style then natural? Text.wordBound text else none with
      | some n =>
          if n < bound then return (n, rest)
          else
            let message := "invalid value: integer `" ++ toString n ++ "`, expected " ++ type
            throw (nodeFault path message e.position)
      | none => throw (mismatch path type e)
  | _ => throw (mismatch path type e)

/-- Reads a value, or that there is none. -/
def optional {α : Type} (reader : Reader α) : Reader (Option α) :=
  throughAlias fun d path events => do
  let (e, rest) ← d.next events
  let present : Except Fault (Option α × List Event) := do
    let (a, rest) ← reader d path events
    return (some a, rest)
  match e.kind with
  | .scalar tag .plain text =>
      match tag with
      | none => if text.isEmpty || isNull text then return (none, rest) else present
      | some tag =>
          if tag != tagSpace ++ "null" then present
          else if isNull text then return (none, rest)
          else throw (nodeFault path (badValue text "null") e.position)
  | .nothing => return (none, rest)
  | _ => present

/-! ## Collections -/

/-- Whether an event stands for a collection without anything in it. -/
def isEmptyCollection (e : Event) : Bool :=
  match e.kind with
  | .nothing => true
  | .scalar _ .plain "" => true
  | _ => false

/-- Reads on in a sequence of strings, at an index. -/
def stringsFrom (d : Document) (path : String) :
    (fuel index : Nat) → List Event → Except Fault (List String × List Event)
  | 0, _, _ => .error d.ending
  | fuel + 1, index, events => do
    let (e, rest) ← d.next events
    if e.kind = .sequenceEnd then return ([], rest)
    else
      let itemPath := path ++ "[" ++ toString index ++ "]"
      let (first, rest) ← string "a string" d itemPath events
      let (more, rest) ← stringsFrom d path fuel (index + 1) rest
      return (first :: more, rest)

/-- Reads a sequence of strings. -/
def strings : Reader (List String) := throughAlias fun d path events => do
  let (e, rest) ← d.next events
  if e.kind = .sequenceStart then stringsFrom d path (rest.length + 1) 0 rest
  else if isEmptyCollection e then return ([], rest)
  else throw (mismatch path "a sequence" e)

/-- Skips a node, where some collections are open. -/
def skipNode (d : Document) (depth : Nat) : List Event → Except Fault (List Event)
  | [] => .error d.ending
  | e :: rest =>
      let depth := match e.kind with
        | .sequenceStart | .mappingStart => depth + 1
        | .sequenceEnd | .mappingEnd => depth - 1
        | _ => depth
      if depth = 0 then .ok rest else skipNode d depth rest

/-- A member of a record: its key, and how its value changes the record. -/
structure Member (σ : Type) where
  key : String
  change : σ → Reader σ

/-- Reads on in a mapping that gives a record with members, of which some are read already. Keys
that are no members are skipped. -/
def membersFrom {σ : Type} (members : List (Member σ)) (d : Document) (path : String)
    (start : Position) :
    (fuel : Nat) → (read : List String) → σ → List Event → Except Fault (σ × List Event)
  | 0, _, _, _ => .error d.ending
  | fuel + 1, read, s, events => do
    let (e, rest) ← d.next events
    if e.kind = .mappingEnd then return (s, rest)
    else
      let (key, rest) ← string "field identifier" d path events
      let isScalar := match e.kind with
        | .scalar _ _ _ => true
        | _ => false
      let valuePath := memberPath path (if isScalar then key else "?")
      match members.find? (·.key == key) with
      | none =>
          let rest ← skipNode d 0 rest
          membersFrom members d path start fuel read s rest
      | some m =>
          if read.contains key then
            throw (nodeFault path ("duplicate field `" ++ key ++ "`") start)
          let (s, rest) ← m.change s d valuePath rest
          membersFrom members d path start fuel (key :: read) s rest

/-- Reads a record from a mapping; what is absent stays as in the given record. -/
def record {σ : Type} (name : String) (members : List (Member σ)) (default : σ) : Reader σ :=
  throughAlias fun d path events => do
    let (e, rest) ← d.next events
    if e.kind = .mappingStart
      then membersFrom members d path e.position (rest.length + 1) [] default rest
    else if isEmptyCollection e then return (default, rest)
    else throw (mismatch path ("struct " ++ name) e)

/-- A member that is read by a reader. -/
def member {σ α : Type} (key : String) (reader : Reader α) (set : σ → α → σ) : Member σ where
  key
  change s d path events := do
    let (a, rest) ← reader d path events
    return (set s a, rest)

/-- The value that a text describes. It holds one document. -/
def decode {α : Type} (reader : Reader α) (text : List Char) : Except Fault α := do
  let d := Document.ofText text
  let (a, _) ← reader d "" d.events
  match d.fault? with
  | some f => throw f
  | none =>
      if d.isFollowed then
        throw
          { problem := "deserializing from YAML containing more than one document is not supported"
          }
      else return a

end CodeAtlas.Yaml
