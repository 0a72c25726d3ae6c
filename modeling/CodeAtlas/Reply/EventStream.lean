import CodeAtlas.Json.Reader
import CodeAtlas.Text.Basic
import CodeAtlas.Text.Utf8

/-!
# Replies that arrive as events

A model's reply arrives as a stream of bytes: lines, of which those that start with `data:` hold a
JSON event with a fragment of the reply. The stream comes in chunks that may end anywhere, so the
bytes of an unfinished line wait for the rest of it. The event `[DONE]` ends the stream. Data that
are no JSON are an error, which holds them.
-/

namespace CodeAtlas.Reply

open Text

/-- Why a stream cannot be read: the data of a line that are no JSON. -/
structure StreamError where
  data : List Char
  deriving DecidableEq, Repr

/-- The most characters of its data that an error shows. -/
def maxShownData : Nat := 200

/-- What is said about an error. `explain` is the account that the reader of JSON gives of data that
it refuses. -/
def StreamError.message (explain : List Char → String) (e : StreamError) : String :=
  "malformed response stream: " ++ explain e.data ++ " (data: "
    ++ String.ofList (e.data.take maxShownData) ++ ")"

/-- What one line of the stream says. -/
inductive Event where
  /-- The line holds no text. -/
  | skip
  /-- A fragment of the reply. -/
  | fragment (text : String)
  /-- The reply is complete. -/
  | done
  /-- The line's data are no JSON. -/
  | malformed (error : StreamError)
  deriving DecidableEq, Repr

/-- A member of a record, or `null`. -/
def memberOf (j : Json) (key : String) : Json := (j.get? key).getD .null

/-- The first item of a list, or `null`. -/
def firstOf : Json → Json
  | .arr (item :: _) => item
  | _ => .null

/-- The fragment of the reply that an event carries: the content of the first choice's change, or
of its message. -/
def fragmentOf? (event : Json) : Option String :=
  let choice := firstOf (memberOf event "choices")
  (memberOf (memberOf choice "delta") "content").str?.orElse
    fun _ => (memberOf (memberOf choice "message") "content").str?

/-- The event of a line. -/
def Event.ofLine (line : List UInt8) : Event :=
  match after? "data:".toList (trim (decode line)) with
  | none => .skip
  | some rest =>
      let data := trim rest
      if data = "[DONE]".toList then .done
      else if data.isEmpty then .skip
      else match Json.parseChars? data with
        | none => .malformed ⟨data⟩
        | some event => match fragmentOf? event with
          | some text => .fragment text
          | none => .skip

/-- The state of a stream: the bytes of its unfinished line, the reply so far, and whether the reply
is complete. -/
structure EventStream where
  waiting : List UInt8 := []
  text : String := ""
  isDone : Bool := false
  deriving DecidableEq, Repr

namespace EventStream

/-- Takes in one line, without its line break. -/
def addLine (s : EventStream) (line : List UInt8) : Except StreamError EventStream :=
  match Event.ofLine line with
  | .skip => .ok s
  | .fragment text => .ok { s with text := s.text ++ text }
  | .done => .ok { s with isDone := true }
  | .malformed e => .error e

/-- Splits bytes behind their first line break; the line keeps none. -/
def splitLine? : List UInt8 → Option (List UInt8 × List UInt8)
  | [] => none
  | b :: rest =>
      if b = 10 then some ([], rest) else (splitLine? rest).map fun p => (b :: p.1, p.2)

/-- What is left behind a line is shorter. -/
theorem length_lt_of_splitLine? {bytes line rest : List UInt8}
    (h : splitLine? bytes = some (line, rest)) : rest.length < bytes.length := by
  induction bytes generalizing line with
  | nil => simp [splitLine?] at h
  | cons b more ih =>
      unfold splitLine? at h
      split at h
      · cases h; simp
      · obtain ⟨p, hp, heq⟩ := Option.map_eq_some_iff.1 h
        cases heq
        exact Nat.lt_succ_of_lt (ih hp)

/-- Takes in the complete lines of some bytes. The reply's end discards the rest of them, and an
error stops the reading behind its line. -/
def addBytes (s : EventStream) (bytes : List UInt8) : Except StreamError Unit × EventStream :=
  match _h : splitLine? bytes with
  | none => (.ok (), { s with waiting := bytes })
  | some (line, rest) =>
      match s.addLine line with
      | .error e => (.error e, { s with waiting := rest })
      | .ok next =>
          if next.isDone then (.ok (), { next with waiting := [] }) else next.addBytes rest
termination_by bytes.length
decreasing_by exact length_lt_of_splitLine? _h

/-- Takes in a chunk: the error of a line, if there is one, and the stream behind the chunk. -/
def tryPush (s : EventStream) (chunk : List UInt8) : Except StreamError Unit × EventStream :=
  s.addBytes (s.waiting ++ chunk)

/-- Takes in a chunk; says whether all lines could be read. -/
def push (s : EventStream) (chunk : List UInt8) : Bool × EventStream :=
  let (result, next) := s.tryPush chunk
  (result.isOk, next)

/-- The reply, after an unfinished last line has been taken in. -/
def finish (s : EventStream) : Except StreamError String :=
  if s.isDone then .ok s.text else (s.addLine s.waiting).map (·.text)

/-- The reply, unless the last line cannot be read. -/
def finish? (s : EventStream) : Option String := s.finish.toOption

/-- The reply that a list of chunks carries: reading stops at the first error or as soon as the
reply is complete. -/
def read (s : EventStream) : List (List UInt8) → Except StreamError String
  | [] => s.finish
  | chunk :: chunks =>
      match s.tryPush chunk with
      | (.error e, _) => .error e
      | (.ok (), next) => if next.isDone then next.finish else next.read chunks

/-- The reply that a model sends in chunks, or what is said about the error. -/
def reply (explain : List Char → String) (chunks : List (List UInt8)) : Except String String :=
  (({} : EventStream).read chunks).mapError (StreamError.message explain)

end EventStream

end CodeAtlas.Reply
