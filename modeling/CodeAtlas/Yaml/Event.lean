import CodeAtlas.Yaml.Token

/-!
# Events of a document

The tokens of a document are read by a stack of goals, one token at a time. What they mean is a row
of events: scalars, aliases, and the starts and ends of sequences and mappings. What is wrong with a
document shows behind the events in front of it.
-/

namespace CodeAtlas.Yaml

/-- What an event is. -/
inductive EventKind where
  /-- A mention of the node whose anchor has a number. -/
  | alias (anchor : Nat)
  | scalar (tag : Option String) (style : Style) (text : String)
  | sequenceStart
  | sequenceEnd
  | mappingStart
  | mappingEnd
  | documentEnd
  /-- The content of a document without any. -/
  | nothing
  deriving DecidableEq, Repr

/-- An event of a document, with the number of its anchor. -/
structure Event where
  kind : EventKind
  position : Position
  anchor? : Option Nat := none
  deriving DecidableEq, Repr

/-- A node that is being read: where it may stand, and its properties so far. -/
structure Properties where
  /-- Whether blocks may stand here. -/
  isBlock : Bool
  /-- Whether a sequence may stand here without indentation. -/
  allowsFlat : Bool := false
  anchor? : Option String := none
  tag? : Option (Tag × Position) := none
  /-- Where the first property stands. -/
  start? : Option Position := none
  deriving DecidableEq, Repr

/-- What is to be read. A goal in a collection has the position where the collection starts. -/
inductive Goal where
  | document (isFirst : Bool)
  /-- The directives in front of a document, and whether one gave the version. -/
  | prologue (hasVersion : Bool)
  | content
  | documentEnd
  | node (properties : Properties)
  | entries (start : Position)
  | entry (start behind : Position)
  | flatEntries
  | flatEntry (behind : Position)
  | keys (start : Position)
  | key (start behind : Position)
  | value (start : Position)
  | valueNode (start behind : Position)
  | flowEntries (start : Position) (isFirst : Bool)
  /-- An entry behind its comma. -/
  | flowEntry (start : Position)
  /-- The key of a mapping with one pair in a flow sequence. -/
  | pairKey
  | pairValue
  | pairValueNode
  | pairEnd
  | flowKeys (start : Position) (isFirst : Bool)
  | flowKey (start : Position)
  | flowKeyNode (start : Position)
  | flowValue (start : Position)
  | flowValueNode (start : Position)
  | noFlowValue (start : Position)
  deriving DecidableEq, Repr

/-- The meanings of handles that hold in every document. -/
def defaultHandles : List (String × String) := [("!", "!"), ("!!", "tag:yaml.org,2002:")]

/-- The state between two steps of reading tokens. -/
structure Parse where
  tokens : List Token
  goals : List Goal
  /-- The meanings of handles. -/
  handles : List (String × String) := []
  /-- The anchors by name. -/
  anchors : List (String × Nat) := []
  /-- The events so far, the last first. -/
  reversed : List Event := []

namespace Parse

/-- Goes on with other goals in front, on the same token. -/
def expect (p : Parse) (goals : List Goal) : Parse := { p with goals := goals ++ p.goals }

/-- Goes on with the next token. -/
def skip (p : Parse) : Parse := { p with tokens := p.tokens.tail }

/-- Adds an event. -/
def emit (p : Parse) (kind : EventKind) (position : Position)
    (anchor? : Option Nat := none) : Parse :=
  { p with reversed := ⟨kind, position, anchor?⟩ :: p.reversed }

/-- Adds an empty scalar. -/
def emitEmpty (p : Parse) (position : Position) : Parse := p.emit (.scalar none .plain "") position

/-- The fault that something is missing in a collection. -/
def missing (t : Token) (problem reading : String) (start : Position) : Fault :=
  { problem, position := t.start, context := some (reading, start) }

/-- The goal for a node in a block. -/
def blockNode (allowsFlat : Bool) : Goal := .node { isBlock := true, allowsFlat }

/-- The goal for a node in a flow collection. -/
def flowNode : Goal := .node { isBlock := false }

/-! ## Nodes -/

/-- The anchor of a node, with its number. The number is how many names there are before. -/
def bindAnchor (p : Parse) : Option String → Parse × Option Nat
  | none => (p, none)
  | some name =>
      let number := p.anchors.length
      ({ p with anchors := (name, number) :: p.anchors.filter (·.1 != name) }, some number)

/-- What a tag stands for. -/
def meaning (p : Parse) (t : Tag) : Option String :=
  if t.handle.isEmpty then some t.text
  else ((p.handles ++ defaultHandles).lookup t.handle).map (· ++ t.text)

/-- The tag of a node. -/
def nodeTag (p : Parse) (start : Position) : Option (Tag × Position) → Except Fault (Option String)
  | none => .ok none
  | some (t, position) =>
      match p.meaning t with
      | some tag => .ok (some tag)
      | none =>
          .error { problem := "found undefined tag handle", position
                   context := some ("while parsing a node", start) }

/-- Reads the content of a node behind its properties. -/
def readContent (p : Parse) (n : Properties) (t : Token) : Except Fault Parse := do
  let start := n.start?.getD t.start
  let tag ← p.nodeTag start n.tag?
  let (bound, anchor?) := p.bindAnchor n.anchor?
  match t.kind with
  | .scalar style text =>
      -- an exclamation mark alone says nothing about a scalar
      let tag := if tag == some "!" then none else tag
      return bound.skip.emit (.scalar tag style text) start anchor?
  | .flowSequence =>
      return (bound.skip.emit .sequenceStart start anchor?).expect [.flowEntries t.start true]
  | .flowMapping =>
      return (bound.skip.emit .mappingStart start anchor?).expect [.flowKeys t.start true]
  | kind =>
      if n.allowsFlat && kind = .entry then
        return (bound.emit .sequenceStart start anchor?).expect [.flatEntries]
      else if n.isBlock && kind = .sequenceBlock then
        return (bound.skip.emit .sequenceStart start anchor?).expect [.entries t.start]
      else if n.isBlock && kind = .mappingBlock then
        return (bound.skip.emit .mappingStart start anchor?).expect [.keys t.start]
      else if n.anchor?.isSome || n.tag?.isSome then
        return bound.emit (.scalar tag .plain "") start anchor?
      else
        let reading := if n.isBlock then "while parsing a block node"
          else "while parsing a flow node"
        throw (missing t "did not find expected node content" reading start)

/-- Reads a property of a node, or its content. -/
def readNode (p : Parse) (n : Properties) (t : Token) : Except Fault Parse :=
  let start? := some (n.start?.getD t.start)
  match t.kind, n.anchor?, n.tag? with
  | .alias name, none, none =>
      match p.anchors.lookup name with
      | some number => .ok (p.skip.emit (.alias number) t.start)
      | none => .error { problem := "unknown anchor", position := t.start }
  | .anchor name, none, _ => .ok (p.skip.expect [.node { n with anchor? := some name, start? }])
  | .tag tag, _, none => .ok (p.skip.expect [.node { n with tag? := some (tag, t.start), start? }])
  | _, _, _ => p.readContent n t

/-! ## Documents -/

/-- Whether a token ends the content of a document. -/
def endsContent : TokenKind → Bool
  | .directive _ | .documentStart | .documentEnd | .streamEnd => true
  | _ => false

/-- Starts a document, or ends with the last. -/
def readDocument (p : Parse) (isFirst : Bool) (t : Token) : Except Fault Parse :=
  let fresh := { p with handles := [], anchors := [] }
  match t.kind with
  | .streamEnd => .ok p.skip
  | .directive _ | .documentStart => .ok (fresh.expect [.prologue false])
  | .documentEnd =>
      .ok (if isFirst then fresh.expect [blockNode false, .documentEnd]
        else p.skip.expect [.document false])
  | _ =>
      if isFirst then .ok (fresh.expect [blockNode false, .documentEnd])
      else .ok (fresh.expect [.prologue false])

/-- Reads a directive, or starts the document behind the last. -/
def readPrologue (p : Parse) (hasVersion : Bool) (t : Token) : Except Fault Parse :=
  let refuse (problem : String) : Except Fault Parse := .error { problem, position := t.start }
  match t.kind with
  | .directive (.version major minor) =>
      if hasVersion then refuse "found duplicate %YAML directive"
      else if major != 1 || (minor != 1 && minor != 2)
        then refuse "found incompatible YAML document"
      else .ok (p.skip.expect [.prologue true])
  | .directive (.tag handle meaning) =>
      if (p.handles.lookup handle).isSome then refuse "found duplicate %TAG directive"
      else .ok ({ p.skip with handles := p.handles ++ [(handle, meaning)] }.expect
        [.prologue hasVersion])
  | .documentStart => .ok (p.skip.expect [.content, .documentEnd])
  | _ => refuse "did not find expected <document start>"

/-! ## Steps -/

/-- Reads a token for a goal. -/
def read (p : Parse) (goal : Goal) (t : Token) : Except Fault Parse :=
  let missing := missing t
  match goal with
  | .document isFirst => p.readDocument isFirst t
  | .prologue hasVersion => p.readPrologue hasVersion t
  | .content =>
      .ok (if endsContent t.kind then p.emitEmpty t.start else p.expect [blockNode false])
  | .documentEnd =>
      let p := if t.kind = .documentEnd then p.skip else p
      .ok ((p.emit .documentEnd t.start).expect [.document false])
  | .node properties => p.readNode properties t
  | .entries start =>
      match t.kind with
      | .entry => .ok (p.skip.expect [.entry start t.stop])
      | .blockEnd => .ok (p.skip.emit .sequenceEnd t.start)
      | _ =>
          .error (missing "did not find expected '-' indicator"
            "while parsing a block collection" start)
  | .entry start behind =>
      .ok (match t.kind with
        | .entry | .blockEnd => (p.emitEmpty behind).expect [.entries start]
        | _ => p.expect [blockNode false, .entries start])
  | .flatEntries =>
      .ok (match t.kind with
        | .entry => p.skip.expect [.flatEntry t.stop]
        | _ => p.emit .sequenceEnd t.start)
  | .flatEntry behind =>
      .ok (match t.kind with
        | .entry | .key | .value | .blockEnd => (p.emitEmpty behind).expect [.flatEntries]
        | _ => p.expect [blockNode false, .flatEntries])
  | .keys start =>
      match t.kind with
      | .key => .ok (p.skip.expect [.key start t.stop])
      | .blockEnd => .ok (p.skip.emit .mappingEnd t.start)
      | _ => .error (missing "did not find expected key" "while parsing a block mapping" start)
  | .key start behind =>
      .ok (match t.kind with
        | .key | .value | .blockEnd => (p.emitEmpty behind).expect [.value start]
        | _ => p.expect [blockNode true, .value start])
  | .value start =>
      .ok (match t.kind with
        | .value => p.skip.expect [.valueNode start t.stop]
        | _ => (p.emitEmpty t.start).expect [.keys start])
  | .valueNode start behind =>
      .ok (match t.kind with
        | .key | .value | .blockEnd => (p.emitEmpty behind).expect [.keys start]
        | _ => p.expect [blockNode true, .keys start])
  | .flowEntries start isFirst =>
      match t.kind, isFirst with
      | .flowSequenceEnd, _ => .ok (p.skip.emit .sequenceEnd t.start)
      | _, true => .ok (p.expect [.flowEntry start])
      | .flowEntry, false => .ok (p.skip.expect [.flowEntry start])
      | _, false =>
          .error (missing "did not find expected ',' or ']'" "while parsing a flow sequence" start)
  | .flowEntry start =>
      .ok (match t.kind with
        | .key => (p.skip.emit .mappingStart t.start).expect [.pairKey, .flowEntries start false]
        | .flowSequenceEnd => p.skip.emit .sequenceEnd t.start
        | _ => p.expect [flowNode, .flowEntries start false])
  | .pairKey =>
      .ok (match t.kind with
        | .value | .flowEntry | .flowSequenceEnd => (p.skip.emitEmpty t.stop).expect [.pairValue]
        | _ => p.expect [flowNode, .pairValue])
  | .pairValue =>
      .ok (match t.kind with
        | .value => p.skip.expect [.pairValueNode]
        | _ => (p.emitEmpty t.start).expect [.pairEnd])
  | .pairValueNode =>
      .ok (match t.kind with
        | .flowEntry | .flowSequenceEnd => (p.emitEmpty t.start).expect [.pairEnd]
        | _ => p.expect [flowNode, .pairEnd])
  | .pairEnd => .ok (p.emit .mappingEnd t.start)
  | .flowKeys start isFirst =>
      match t.kind, isFirst with
      | .flowMappingEnd, _ => .ok (p.skip.emit .mappingEnd t.start)
      | _, true => .ok (p.expect [.flowKey start])
      | .flowEntry, false => .ok (p.skip.expect [.flowKey start])
      | _, false =>
          .error (missing "did not find expected ',' or '\x7d'"
            "while parsing a flow mapping" start)
  | .flowKey start =>
      .ok (match t.kind with
        | .key => p.skip.expect [.flowKeyNode start]
        | .flowMappingEnd => p.skip.emit .mappingEnd t.start
        | _ => p.expect [flowNode, .noFlowValue start])
  | .flowKeyNode start =>
      .ok (match t.kind with
        | .value | .flowEntry | .flowMappingEnd => (p.emitEmpty t.start).expect [.flowValue start]
        | _ => p.expect [flowNode, .flowValue start])
  | .flowValue start =>
      .ok (match t.kind with
        | .value => p.skip.expect [.flowValueNode start]
        | _ => (p.emitEmpty t.start).expect [.flowKeys start false])
  | .flowValueNode start =>
      .ok (match t.kind with
        | .flowEntry | .flowMappingEnd => (p.emitEmpty t.start).expect [.flowKeys start false]
        | _ => p.expect [flowNode, .flowKeys start false])
  | .noFlowValue start => .ok ((p.emitEmpty t.start).expect [.flowKeys start false])

/-- Reads on until the goals are reached, the tokens end or a fault shows. -/
def run : (fuel : Nat) → Parse → List Event × Option Fault
  | 0, p => (p.reversed.reverse, none)
  | fuel + 1, p =>
      match p.goals, p.tokens with
      | goal :: goals, t :: _ =>
          match { p with goals }.read goal t with
          | .ok p => run fuel p
          | .error f => (p.reversed.reverse, some f)
      | _, _ => (p.reversed.reverse, none)

end Parse

/-- The events of a text, up to what is wrong with it. -/
def events (text : List Char) : List Event × Option Fault :=
  let (tokens, fault?) := tokens text
  let (events, earlier?) :=
    Parse.run (8 * tokens.length + 8) { tokens, goals := [.document true] }
  (events, earlier?.or fault?)

/-- The first document of a text. -/
structure Document where
  events : List Event
  /-- What is wrong with the document, behind its events. -/
  fault? : Option Fault
  /-- Whether there is more than this document, or something is wrong behind it. -/
  isFollowed : Bool
  deriving DecidableEq, Repr

/-- The first document of a text. -/
def Document.ofText (text : List Char) : Document :=
  let (all, fault?) := Yaml.events text
  let isContent (e : Event) : Bool := e.kind != .documentEnd
  let own := all.takeWhile isContent
  match all.drop own.length with
  | [] =>
      if own.isEmpty && fault?.isNone then ⟨[⟨.nothing, {}, none⟩], none, false⟩
        else ⟨own, fault?, false⟩
  | _ :: more => ⟨own, none, !more.isEmpty || fault?.isSome⟩

/-- The events from a node with an anchor on. Of several the last counts. -/
def Document.target? (d : Document) (anchor : Nat) : Option (List Event) :=
  go d.events none
where
  /-- Looks on behind the last such node so far. -/
  go : List Event → Option (List Event) → Option (List Event)
    | [], found => found
    | e :: rest, found => go rest (if e.anchor? == some anchor then some (e :: rest) else found)

end CodeAtlas.Yaml
