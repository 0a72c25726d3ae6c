import CodeAtlas.Pattern.Program
import CodeAtlas.Unicode.Property
import Std.Data.HashSet

/-!
# Running a program

A search goes through the places of the text in order and tries the program at each. The trial is
depth first, the preferred branch of a choice before the other, and so the first match found is
the one that the pattern prefers. A choice that has been tried at a place is not tried there again:
it has led nowhere, or it would only repeat a round that took no character. So a search makes at
most as many steps as there are pairs of an instruction and a place, and a bit more.
-/

namespace CodeAtlas.Pattern

/-- A place in a text: the bytes in front of it, the character in front of it (NUL at the start)
and the text behind it. -/
structure Place where
  offset : Nat
  before : Char
  rest : List Char

/-- The start of a text. -/
def Place.start (text : List Char) : Place := ⟨0, Char.ofNat 0, text⟩

/-- Whether `c` is a word character, among ASCII only or among all. -/
def inWord (ascii : Bool) (c : Char) : Bool :=
  if ascii then c.isAlphanum || c == '_' else Unicode.isWordChar c

/-- Whether the text behind a place starts with a word character. -/
def wordBehind (ascii : Bool) : List Char → Bool
  | [] => false
  | c :: _ => inWord ascii c

/-- Whether a condition holds at a place. -/
def Look.holds (l : Look) (offset : Nat) (before : Char) (rest : List Char) : Bool :=
  let left (ascii : Bool) := offset != 0 && inWord ascii before
  match l with
  | .textStart => offset == 0
  | .textEnd => rest.isEmpty
  | .lineStart => offset == 0 || before == '\n'
  | .lineEnd => rest.isEmpty || rest.head? == some '\n'
  | .lineStartReturn =>
      offset == 0 || before == '\n' || (before == '\r' && rest.head? != some '\n')
  | .lineEndReturn =>
      rest.isEmpty || rest.head? == some '\r'
        || (rest.head? == some '\n' && (offset == 0 || before != '\r'))
  | .wordBoundary ascii => left ascii != wordBehind ascii rest
  | .noWordBoundary ascii => left ascii == wordBehind ascii rest
  | .wordStart ascii => !left ascii && wordBehind ascii rest
  | .wordEnd ascii => left ascii && !wordBehind ascii rest
  | .wordStartHalf ascii => !left ascii
  | .wordEndHalf ascii => !wordBehind ascii rest

/-- A branch that waits: the instruction to go on with, the place, and the places saved on the way
to it, last one first. -/
structure Branch where
  next : Nat
  place : Place
  saves : List (Nat × Nat)

/-- Choices that have been tried, each with its place, as single numbers. -/
abbrev Tried := Std.HashSet Nat

/-- Runs the program from one place, `fuel` steps at most, with the branches `waiting` to be tried
when it fails. Returns the place where the match ends and what it saved, with all choices tried. -/
def run (code : Array Inst) : (fuel next offset : Nat) → (before : Char) → (rest : List Char) →
    (saves : List (Nat × Nat)) → (waiting : List Branch) → Tried →
    Option (Place × List (Nat × Nat)) × Tried
  | 0, _, _, _, _, _, _, tried => (none, tried)
  | fuel + 1, next, offset, before, rest, saves, waiting, tried =>
      let fail (waiting : List Branch) (tried : Tried) :=
        match waiting with
        | [] => (none, tried)
        | b :: waiting =>
            run code fuel b.next b.place.offset b.place.before b.place.rest b.saves waiting tried
      match code[next]? with
      | none => fail waiting tried
      | some .accept => (some (⟨offset, before, rest⟩, saves), tried)
      | some (.char d next) =>
          match rest with
          | [] => fail waiting tried
          | c :: rest =>
              if c == d then run code fuel next (offset + c.utf8Size) c rest saves waiting tried
              else fail waiting tried
      | some (.one set next) =>
          match rest with
          | [] => fail waiting tried
          | c :: rest =>
              if set.contains c then
                run code fuel next (offset + c.utf8Size) c rest saves waiting tried
              else fail waiting tried
      | some (.look l next) =>
          if l.holds offset before rest then
            run code fuel next offset before rest saves waiting tried
          else fail waiting tried
      | some (.save slot next) =>
          run code fuel next offset before rest ((slot, offset) :: saves) waiting tried
      | some (.split first second) =>
          let key := offset * code.size + next
          if tried.contains key then fail waiting tried
          else
            run code fuel first offset before rest saves
              (⟨second, ⟨offset, before, rest⟩, saves⟩ :: waiting) (tried.insert key)

/-- Steps enough for a trial on a text of `n` characters: every choice is tried once at a place and
has two branches, and between choices no instruction comes twice. -/
def stepBound (code : Array Inst) (n : Nat) : Nat :=
  (2 * code.size * (n + 1) + 2) * (code.size + 1)

/-- A match: where it ends, and where its parts start and stop, by slot. -/
structure Found where
  start : Place
  stop : Place
  saves : List (Nat × Nat)

/-- The first match at or behind a place, trying the places in order. -/
def Program.searchFrom (p : Program) (bound : Nat) :
    (offset : Nat) → (before : Char) → (rest : List Char) → Tried → Option Found
  | offset, before, rest, tried =>
      let here :=
        match p.firsts?, rest with
        | some _, [] => (none, tried)
        | some set, c :: _ =>
            if set.contains c then run p.code bound p.start offset before rest [] [] tried
            else (none, tried)
        | none, _ => run p.code bound p.start offset before rest [] [] tried
      match here, rest with
      | (some (stop, saves), _), _ => some ⟨⟨offset, before, rest⟩, stop, saves⟩
      | (none, _), [] => none
      | (none, tried), c :: rest => p.searchFrom bound (offset + c.utf8Size) c rest tried
termination_by _ _ rest => rest.length

/-- The first match at or behind a place. -/
def Program.search (p : Program) (bound : Nat) (place : Place) : Option Found :=
  p.searchFrom bound place.offset place.before place.rest ∅

/-- The matches from a place on, in order, at most `n` of them, in front of those in `found`. An
empty match where the last match ended does not count: the search goes on one character further. -/
def Program.findAllFrom (p : Program) (bound : Nat) :
    (n : Nat) → (last? : Option Nat) → Place → (found : List Found) → List Found
  | 0, _, _, found => found.reverse
  | n + 1, last?, place, found =>
      match p.search bound place with
      | none => found.reverse
      | some m =>
          if m.start.offset == m.stop.offset && last? == some m.stop.offset then
            match place.rest with
            | [] => found.reverse
            | c :: rest => p.findAllFrom bound n last? ⟨place.offset + c.utf8Size, c, rest⟩ found
          else p.findAllFrom bound n (some m.stop.offset) m.stop (m :: found)

/-- All matches in a text that do not overlap, in order. -/
def Program.findAll (p : Program) (text : List Char) : List Found :=
  p.findAllFrom (stepBound p.code text.length) (2 * text.length + 2) none (.start text) []

end CodeAtlas.Pattern
