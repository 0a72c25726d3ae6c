import CodeAtlas.Pattern.Node

/-!
# Programs

A pattern is run as a program: an array of instructions that name their successors. `Node.emit`
writes the instructions of a pattern in front of a given successor and returns where they start.
A repetition of something that can be empty is entered through a choice of its own, so that a round
that takes no character ends the repetition.
-/

namespace CodeAtlas.Pattern

open Unicode (CharSet)

/-- One step of a program. -/
inductive Inst where
  | char (c : Char) (next : Nat)
  | one (set : CharSet) (next : Nat)
  | look (place : Look) (next : Nat)
  | split (first second : Nat)
  | save (slot : Nat) (next : Nat)
  | accept

/-- What writes instructions in front of a given successor and returns where they start. -/
abbrev Writer := Nat → StateM (Array Inst) Nat

/-- Adds an instruction and returns its place. -/
def push (i : Inst) : StateM (Array Inst) Nat := fun code => (code.size, code.push i)

/-- A choice between going on with a round and leaving, in order of preference. -/
def fork (greedy : Bool) (round leave : Nat) : Inst :=
  if greedy then .split round leave else .split leave round

/-- The instructions of `round` `n` times in front of `next`. -/
def times (round : Writer) : (n : Nat) → Writer
  | 0, next => pure next
  | n + 1, next => do times round n (← round next)

/-- At most `n` rounds in front of `leave`, each of which goes on to the one written before it. -/
def atMost (greedy : Bool) (round : Writer) (leave : Nat) : (n : Nat) → (inner : Nat) →
    StateM (Array Inst) Nat
  | 0, inner => pure inner
  | n + 1, inner => do
    let start ← round inner
    atMost greedy round leave n (← push (fork greedy start leave))

/-- Any number of rounds in front of `leave`, at least one: where the rounds start. -/
def oneOrMore (greedy : Bool) (round : Writer) (leave : Nat) : StateM (Array Inst) Nat := do
  let again ← push .accept
  let start ← round again
  modify fun code => code.setIfInBounds again (fork greedy start leave)
  pure start

/-- Any number of rounds in front of `leave`, none of which can be empty. -/
def anyNumber (greedy : Bool) (round : Writer) (leave : Nat) : StateM (Array Inst) Nat := do
  let again ← push .accept
  let start ← round again
  modify fun code => code.setIfInBounds again (fork greedy start leave)
  pure again

/-- Branches, the last one first, in front of `next`; none of them is tried in vain last. -/
def branches (writers : List Writer) (next : Nat) : StateM (Array Inst) Nat :=
  match writers with
  | [] => push (.one .empty next)
  | last :: earlier => do
    earlier.foldlM (fun others writer => do push (.split (← writer next) others)) (← last next)

mutual

/-- Writes the instructions of the pattern in front of `next` and returns where they start. -/
def Node.emit : Node → Writer
  | .empty, next => pure next
  | .text cs, next => cs.reverse.foldlM (fun next c => push (.char c next)) next
  | .one set _, next => push (.one set next)
  | .look place, next => push (.look place next)
  | .row items, next => (writersOf [] items).foldlM (fun next writer => writer next) next
  | .choice items, next => branches (writersOf [] items) next
  | .group index _ a, next => do
    let stop ← push (.save (2 * index + 1) next)
    let start ← a.emit stop
    push (.save (2 * index) start)
  | .repeated least most? greedy a, next =>
      match most?, least with
      | some most, least => do
        times a.emit least (← atMost greedy a.emit next (most - least) next)
      | none, 0 =>
          if a.nullable then do push (fork greedy (← oneOrMore greedy a.emit next) next)
          else anyNumber greedy a.emit next
      | none, n + 1 => do times a.emit n (← oneOrMore greedy a.emit next)

/-- The writers of several patterns, in reverse, in front of `found`. -/
def writersOf (found : List Writer) : List Node → List Writer
  | [] => found
  | a :: as => writersOf (a.emit :: found) as

end

/-- A program, where it starts and how a match that is not empty can begin. -/
structure Program where
  code : Array Inst
  start : Nat
  /-- The characters with which a match begins, if none is empty. -/
  firsts? : Option CharSet

/-- The program of a pattern; slots 0 and 1 are those of the whole match. -/
def Node.program (a : Node) : Program :=
  let (start, code) := (do
    let done ← push .accept
    (Node.group 0 none a).emit done : StateM (Array Inst) Nat) #[]
  { code, start, firsts? := if a.nullable then none else some a.firsts }

end CodeAtlas.Pattern
