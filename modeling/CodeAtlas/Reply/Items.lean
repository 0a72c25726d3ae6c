import CodeAtlas.Reply.Repair
import CodeAtlas.Text.Basic
import CodeAtlas.Text.Block

/-!
# The records of a reply

A model is asked for a list of records. Whatever prose or fence surrounds the list, the first region
of the reply that can be read as JSON counts. A record with one member that is a list stands for
that list, and any other record for a list of one.
-/

namespace CodeAtlas.Reply

open Text

/-! ## Fenced replies

A model often wraps its payload in a fence: a line of three back quotes, with an optional word that
names the format, and the same three quotes after the payload. A reply that was cut off has no
closing fence.
-/

/-- The mark that opens and closes a fence. -/
def fence : List Char := List.replicate 3 (Char.ofNat 96)

/-- Whether a character may stand in the word that names a fence's format. -/
def isFormatChar (c : Char) : Bool := c.isAlpha

/-- Whether a character is a space or a tab. -/
def isGap (c : Char) : Bool := c == ' ' || c == '\t'

/-- Drops one line break. -/
def dropBreak : List Char → List Char
  | '\r' :: '\n' :: rest => rest
  | '\r' :: rest => rest
  | '\n' :: rest => rest
  | rest => rest

/-- What follows the format's word and the line break after an opening fence. -/
def afterFormat (text : List Char) : List Char :=
  dropBreak ((text.dropWhile isFormatChar).dropWhile isGap)

/-- The payload of a reply: what the first fence encloses, or the reply itself when it has no
fence; trimmed. -/
def payload (text : List Char) : List Char :=
  let reply := trim text
  match cut? fence reply with
  | some (_, rest) => trim (upTo fence (afterFormat rest))
  | none => reply

/-! ## Regions of a reply that may hold JSON

Every opening bracket starts a region, which ends at its closing bracket. A bracket that is never
closed starts a region up to the end of the text, so that a reply that was cut off can be repaired.
-/

/-- The closing bracket of a JSON list or record. -/
def closerOf? : Char → Option Char
  | '[' => some ']'
  | '\x7b' => some '\x7d'
  | _ => none

/-- The region that starts with an opening bracket at the head of the text. -/
def regionAt? : List Char → Option (List Char)
  | [] => none
  | c :: rest => (closerOf? c).map fun closer =>
      match findBalanced .json c closer (c :: rest) 0 with
      | some stop => takeBytes (stop + 1) (c :: rest)
      | none => c :: rest

/-- All regions of a text, in the order of their opening brackets. -/
def regions : List Char → List (List Char)
  | [] => []
  | c :: rest => (regionAt? (c :: rest)).toList ++ regions rest

/-- The first answer that a function gives for a region of the text. -/
def findInRegions? {α : Type} (f : List Char → Option α) : List Char → Option α
  | [] => none
  | c :: rest =>
      match regionAt? (c :: rest) >>= f with
      | some a => some a
      | none => findInRegions? f rest

/-- The search goes through the regions in order. -/
theorem findInRegions?_eq {α : Type} (f : List Char → Option α) (text : List Char) :
    findInRegions? f text = (regions text).findSome? f := by
  induction text with
  | nil => rfl
  | cons c rest ih =>
      rw [findInRegions?, regions, List.findSome?_append, ← ih]
      cases regionAt? (c :: rest) with
      | none => rfl
      | some region => cases h : f region <;> simp [h]

/-! ## Records -/

/-- The members of a record. -/
abbrev Item := List (String × Json)

/-- The records that a document stands for. -/
def records : Json → List Item
  | .arr items => items.filterMap Json.obj?
  | .obj [(_, .arr items)] => items.filterMap Json.obj?
  | .obj members => [members]
  | _ => []

/-- The records of a reply. -/
def items (reply : List Char) : List Item :=
  match findInRegions? parse? (payload reply) with
  | some j => records j
  | none => []

end CodeAtlas.Reply
