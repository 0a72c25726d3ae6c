import CodeAtlas.Pattern.Node
import CodeAtlas.Text.Utf8
import Std.Data.HashMap

/-!
# How large a pattern is

A pattern counts as too large if the automaton on bytes that recognises it, forwards or backwards,
would take more than a fixed amount of memory. This module measures these automata without keeping
them. Repetitions with bounds copy what they repeat, and so short patterns can be too large.

A set of characters becomes a small automaton of its own. Forwards, states that go on in the same
way are shared, and backwards, states that are entered in the same way; but what has been built is
remembered in a table of fixed size, in which a newer state takes the place of an older one. So the
size depends on the numbers of the states, and they are counted exactly.
-/

namespace CodeAtlas.Pattern

/-! ## Ranges of code points as bytes

A range of code points is cut so that each part is a row of byte ranges: a text of one code point
lies in the part if and only if each of its bytes lies in the byte range at its place. Surrogates
have no bytes.
-/

/-- The byte ranges of a part of a range of code points, first byte first. -/
abbrev ByteRun := List (Nat × Nat)

/-- Where to cut a range whose ends differ beyond the last digits of base 64, unless these digits
run from the least to the greatest. -/
def cutBlock? (block lo hi : Nat) : Option Nat :=
  if lo / block == hi / block then none
  else if lo % block != 0 then some (lo / block * block + (block - 1))
  else if hi % block != block - 1 then some (hi / block * block - 1)
  else none

/-- The last code point of the part of a range that is cut off its front, if it has to be cut. -/
def cut? (lo hi : Nat) : Option Nat :=
  if lo ≤ 0xD7FF && 0xD7FF < hi then some 0xD7FF
  else if lo ≤ 0x7F && 0x7F < hi then some 0x7F
  else if lo ≤ 0x7FF && 0x7FF < hi then some 0x7FF
  else if lo ≤ 0xFFFF && 0xFFFF < hi then some 0xFFFF
  else if hi ≤ 0x7F then none
  else (cutBlock? 64 lo hi).or ((cutBlock? 4096 lo hi).or (cutBlock? 262144 lo hi))

/-- The parts of a range of code points from `lo` to `hi` that need not be cut, in order. -/
def uncutParts (lo hi : Nat) : List (Nat × Nat) :=
  match cut? lo hi with
  | none => [(lo, hi)]
  | some m =>
      if _h : lo ≤ m ∧ m < hi then uncutParts lo m ++ uncutParts (m + 1) hi else [(lo, hi)]
termination_by hi - lo
decreasing_by all_goals omega

/-- The bytes of a code point. -/
def codeBytes (n : Nat) : List Nat :=
  let more (k : Nat) := 128 + n / Nat.pow 64 k % 64
  if n < 0x80 then [n]
  else if n < 0x800 then [192 + n / 64, more 0]
  else if n < 0x10000 then [224 + n / 4096, more 1, more 0]
  else [240 + n / 262144, more 2, more 1, more 0]

/-- The rows of byte ranges of a range of code points, in order. -/
def byteRuns (range : Nat × Nat) : List ByteRun :=
  -- a set may end or start in the middle of the surrogates
  let lo := if 0xD800 ≤ range.1 && range.1 ≤ 0xDFFF then 0xE000 else range.1
  let hi := if 0xD800 ≤ range.2 && range.2 ≤ 0xDFFF then 0xD7FF else range.2
  if hi < lo then []
  else
    (uncutParts lo hi).filterMap fun (lo, hi) =>
      let lo := if 0xD800 ≤ lo && lo ≤ 0xDFFF then 0xE000 else lo
      if hi < lo then none else some ((codeBytes lo).zip (codeBytes hi))

open Unicode (CharSet)

/-! ## The memory of automata -/

/-- The memory that an automaton may take. -/
def maxMemory : Nat := 10 * Nat.pow 2 20

/-- The memory of a state, apart from its list of transitions. -/
def stateMemory : Nat := 32

/-- How much has been built: the states, and the memory of their lists. -/
structure Meter where
  states : Nat := 0
  lists : Nat := 0

/-- A measurement, which fails when the automaton grows too large. -/
abbrev Measure := StateT Meter Option

/-- Adds memory for lists. -/
def listMemory (n : Nat) : Measure Unit := fun m =>
  let m := { m with lists := m.lists + n }
  if m.states * stateMemory + m.lists ≤ maxMemory then some ((), m) else none

/-- Adds a state with a list of transitions that takes `n` bytes, and returns its number. -/
def newState (n : Nat) : Measure Nat := fun m =>
  let number := m.states
  let m := { states := m.states + 1, lists := m.lists + n : Meter }
  if m.states * stateMemory + m.lists ≤ maxMemory then some (number, m) else none

/-- Adds a state without a list. -/
def plainState : Measure Unit := do let _ ← newState 0

/-- Adds a state with `n` branches. -/
def branchState (n : Nat) : Measure Unit := do let _ ← newState (4 * n)

/-- Adds a state that goes on by `n` byte ranges. -/
def rangeState (n : Nat) : Measure Unit := do let _ ← newState (8 * n)

/-- Measures what is built `n` times in a row. -/
def repeatMeasure (once : Measure Unit) : Nat → Measure Unit
  | 0 => pure ()
  | n + 1 => do
    once
    repeatMeasure once n

/-! ## Sets of characters -/

/-- The slot of a table for a row of numbers. -/
def slotOf (slots : UInt64) (numbers : List Nat) : UInt64 :=
  numbers.foldl (fun h n => (h ^^^ n.toUInt64) * 1099511628211) 14695981039346656037 % slots

/-- A table that remembers states by what they are made from; `UInt64` numbers a slot. -/
abbrev Memo := Std.HashMap UInt64 (List Nat × Nat)

/-- The state that is made from `key`, if the table remembers it. -/
def known? (memo : Memo) (slot : UInt64) (key : List Nat) : Option Nat :=
  memo[slot]?.bind fun (known, state) => if known == key then some state else none

/-- A state that still takes transitions: those that are complete, in reverse and each as its byte
range and its goal, and the byte range of the last one, whose goal is not known yet. -/
structure OpenState where
  done : List Nat := []
  last? : Option (Nat × Nat) := none

/-- Completes the last transition. -/
def OpenState.freeze (s : OpenState) (goal : Nat) : OpenState :=
  match s.last? with
  | some (lo, hi) => ⟨goal :: hi :: lo :: s.done, none⟩
  | none => s

/-- The number of a state that will take no more transitions. -/
def freezeState (memo : Memo) (s : OpenState) : Measure (Nat × Memo) := do
  let key := s.done.reverse
  let slot := slotOf 10000 key
  match known? memo slot key with
  | some state => return (state, memo)
  | none =>
      let state ← newState (8 * (key.length / 3))
      return (state, memo.insert slot (key, state))

/-- Completes the states of a path that lie deeper than `keep`, the deepest first. `path` has the
deepest state first and goes on to `goal`. -/
def closePath (memo : Memo) (keep goal : Nat) : List OpenState → Measure (List OpenState × Memo)
  | s :: rest =>
      if keep < rest.length then do
        let (state, memo) ← freezeState memo (s.freeze goal)
        closePath memo keep state rest
      else return (s.freeze goal :: rest, memo)
  | [] => return ([], memo)

/-- How many byte ranges of a run are those of a path, whose first state is first. -/
def sharedRanges : ByteRun → List OpenState → Nat
  | r :: run, s :: path => if s.last? == some r then sharedRanges run path + 1 else 0
  | _, _ => 0

/-- Adds a run of byte ranges behind the part that it shares with the path. -/
def addRun (goal : Nat) (path : List OpenState) (memo : Memo) (run : ByteRun) :
    Measure (List OpenState × Memo) := do
  let shared := sharedRanges run path.reverse
  let (path, memo) ← closePath memo shared goal path
  match path, run.drop shared with
  | s :: rest, r :: more =>
      return (more.foldl (fun path r => ⟨[], some r⟩ :: path) ({ s with last? := some r } :: rest),
        memo)
  | _, _ => return (path, memo)

/-- Measures a set of characters, forwards. -/
def measureSet (s : CharSet) : Measure Unit := do
  let goal ← newState 0
  let (path, memo) ← (s.ranges.toList.flatMap byteRuns).foldlM
    (fun (path, memo) run => addRun goal path memo run) ([{}], (∅ : Memo))
  let (path, memo) ← closePath memo 0 goal path
  match path with
  | [root] => do let _ ← freezeState memo root
  | _ => pure ()

/-- Measures a run of byte ranges, backwards: each state goes on to the one in front of it. -/
def measureRunBack (goal : Nat) (memo : Memo) : ByteRun → Measure Memo
  | [] => do
    listMemory 4
    return memo
  | (lo, hi) :: run => do
    let key := [goal, lo, hi]
    let slot := slotOf 1000 key
    match known? memo slot key with
    | some state => measureRunBack state memo run
    | none =>
        let state ← newState 0
        measureRunBack state (memo.insert slot (key, state)) run

/-- Measures a set of characters, backwards. -/
def measureSetBack (s : CharSet) : Measure Unit := do
  branchState 0
  let goal ← newState 0
  let _ ← (s.ranges.toList.flatMap byteRuns).foldlM (fun memo run => measureRunBack goal memo run)
    (∅ : Memo)

/-! ## Choices between texts -/

/-- The common starts of texts. A text that ends at a node closes a chunk of its branches: texts
that come later go on in another chunk. -/
inductive Trie where
  | node (closed : List (List (Nat × Trie))) (chunk : List (Nat × Trie))

namespace Trie

/-- A node at which nothing goes on. -/
def leaf : Trie := .node [] []

/-- Whether nothing goes on at the node. -/
def isLeaf : Trie → Bool
  | .node closed chunk => chunk.isEmpty && closed.all List.isEmpty

/-- The trie of a text alone. -/
def ofBytes (bytes : List Nat) : Trie :=
  bytes.foldr (fun b t => .node [] [(b, t)]) (.node [[]] [])

/-- Adds a text. -/
def add : Trie → List Nat → Trie
  | .node closed chunk, [] =>
      if chunk.isEmpty && closed.all List.isEmpty && !closed.isEmpty then .node closed chunk
      else .node (closed ++ [chunk]) []
  | .node closed chunk, b :: bytes =>
      match chunk.lookup b with
      | some t =>
          let t := t.add bytes
          .node closed (chunk.map fun p => if p.1 == b then (b, t) else p)
      | none => .node closed (chunk ++ [(b, ofBytes bytes)])
termination_by _ bytes => bytes.length

mutual

/-- Measures the states of a trie. -/
def measure : Trie → Measure Unit
  | .node closed chunk => do
    let branches ← measureChunks true 0 closed
    let branches := if closed.isEmpty then branches else branches + 1
    measureBelow chunk
    chunkState chunk.length
    branchState (if chunk.isEmpty then branches else branches + 1)

/-- Measures the chunks of a node, and returns how many branches they make with those in `branches`.
In front of every chunk but the first there is a branch to the end. -/
def measureChunks (first : Bool) (branches : Nat) : List (List (Nat × Trie)) → Measure Nat
  | [] => return branches
  | chunk :: chunks => do
    measureBelow chunk
    chunkState chunk.length
    measureChunks false
      (branches + (if first then 0 else 1) + (if chunk.isEmpty then 0 else 1)) chunks

/-- Measures what the branches of a chunk lead to. -/
def measureBelow : List (Nat × Trie) → Measure Unit
  | [] => pure ()
  | (_, t) :: rest => do
    if !t.isLeaf then t.measure
    measureBelow rest

/-- The state of a chunk with `n` branches. -/
def chunkState (n : Nat) : Measure Unit :=
  match n with
  | 0 => pure ()
  | 1 => plainState
  | n => rangeState n

end

end Trie

/-- Measures a choice between texts, which share their common starts. -/
def measureTexts (texts : List (List Nat)) : Measure Unit := do
  plainState
  (texts.foldl Trie.add Trie.leaf).measure

/-! ## Patterns -/

/-- The bytes of a text. -/
def textBytes (chars : List Char) : List Nat := (Text.encode chars).map UInt8.toNat

/-- The texts of branches that are texts. -/
def branchTexts? (branches : List Node) : Option (List (List Nat)) :=
  branches.mapM fun
    | .text cs => some (textBytes cs)
    | _ => none

mutual

/-- The least length of what the pattern can match, roughly, unless a part of it never matches. -/
def Node.leastLength? : Node → Option Nat
  | .empty | .look _ => some 0
  | .text cs => some cs.length
  | .one set _ => if set.isEmpty then none else some 1
  | .repeated least _ _ a => a.leastLength?.map (least * ·)
  | .group _ _ a => a.leastLength?
  | .row items => rowLength? 0 items
  | .choice [] => none
  | .choice (a :: branches) =>
      match a.leastLength? with
      | some n => choiceLength? n branches
      | none => none

/-- The least length of patterns in a row, and `n`. -/
def rowLength? (n : Nat) : List Node → Option Nat
  | [] => some n
  | a :: items =>
      match a.leastLength? with
      | some m => rowLength? (n + m) items
      | none => none

/-- The least length of any of several patterns, or `n`. -/
def choiceLength? (n : Nat) : List Node → Option Nat
  | [] => some n
  | a :: branches =>
      match a.leastLength? with
      | some m => choiceLength? (min n m) branches
      | none => none

end

mutual

/-- Whether the pattern starts with the condition that the text starts. -/
def Node.startsText : Node → Bool
  | .look l => l == .textStart
  | .repeated least _ _ a => least != 0 && a.startsText
  | .group _ _ a => a.startsText
  | .row items => rowStartsText items
  | .choice branches => allStartText branches
  | .empty | .text _ | .one .. => false

/-- Whether one of the conditions in front of a row is that the text starts. -/
def rowStartsText : List Node → Bool
  | [] => false
  | a :: items => a.startsText || (a.onlyEmpty && rowStartsText items)

/-- Whether all patterns start with the condition that the text starts. -/
def allStartText : List Node → Bool
  | [] => true
  | a :: branches => a.startsText && allStartText branches

end

mutual

/-- Whether the pattern ends with the condition that the text ends. -/
def Node.endsText : Node → Bool
  | .look l => l == .textEnd
  | .repeated least _ _ a => least != 0 && a.endsText
  | .group _ _ a => a.endsText
  | .row items => rowEndsText false items
  | .choice branches => allEndText branches
  | .empty | .text _ | .one .. => false

/-- Whether one of the conditions behind a row is that the text ends, or `found`. -/
def rowEndsText (found : Bool) : List Node → Bool
  | [] => found
  | a :: items => rowEndsText (a.endsText || (a.onlyEmpty && found)) items

/-- Whether all patterns end with the condition that the text ends. -/
def allEndText : List Node → Bool
  | [] => true
  | a :: branches => a.endsText && allEndText branches

end

/-- Measures a repetition of at least `least` rounds. -/
def measureAtLeast (once : Measure Unit) (takesSome : Bool) : (least : Nat) → Measure Unit
  | 0 =>
      if takesSome then do
        branchState 2
        once
      else do
        once
        branchState 2
        branchState 2
        plainState
  | least + 1 => do
    repeatMeasure once (least + 1)
    branchState 2

/-- Measures a repetition of at least `least` and at most `most` rounds. -/
def measureBounded (once : Measure Unit) (least most : Nat) : Measure Unit := do
  if least == 0 then plainState else repeatMeasure once least
  if least != most then
    plainState
    repeatMeasure (do branchState 2; once) (most - least)

/-- Measures a choice, given in order. -/
def measureChoice : List (Measure Unit) → Measure Unit
  | a :: b :: others => do
    a
    b
    branchState (others.length + 2)
    plainState
    others.forM id
  | others => others.forM id

mutual

/-- Measures the automaton of a pattern, which has states for groups if it runs forwards. -/
def Node.measure (backwards : Bool) : Node → Measure Unit
  | .empty | .look _ => plainState
  | .text cs => repeatMeasure plainState (textBytes cs).length
  | .one set _ =>
      if set.isAscii then do
        plainState
        rangeState set.ranges.size
      else if backwards then measureSetBack set else measureSet set
  | .repeated least most? _ a =>
      match most?, least with
      | some 1, 0 => do
        branchState 2
        a.measure backwards
        plainState
      | some most, least => measureBounded (a.measure backwards) least most
      | none, least =>
          measureAtLeast (a.measure backwards) (a.leastLength?.any fun n => n != 0) least
  | .group _ _ a =>
      if backwards then a.measure backwards
      else do
        plainState
        a.measure backwards
        plainState
  | .row items =>
      let back := measuresOf backwards [] items
      (if backwards then back else back.reverse).forM id
  | .choice branches =>
      match branchTexts? branches with
      | some texts => measureTexts (if backwards then texts.map List.reverse else texts)
      | none => measureChoice (measuresOf backwards [] branches).reverse

/-- The measurements of several patterns in reverse, in front of `found`. -/
def measuresOf (backwards : Bool) (found : List (Measure Unit)) : List Node → List (Measure Unit)
  | [] => found
  | a :: as => measuresOf backwards (a.measure backwards :: found) as

end

/-- Measures the whole automaton of a pattern: it looks for a match anywhere, unless a match stands
at the end at which it starts. -/
def Node.measureWhole (backwards : Bool) (a : Node) : Measure Unit := do
  if if backwards then a.endsText else a.startsText then plainState
  else
    branchState 2
    plainState
    rangeState 1
  (Node.group 0 none a).measure backwards
  plainState

/-! ## A bound -/

/-- More memory than a set of characters takes. -/
def roughSet (s : CharSet) : Nat :=
  let runs := s.ranges.foldl (fun n r =>
    n + if r.1 / 64 == r.2 / 64 then 1 else if r.1 / 4096 == r.2 / 4096 then 8 else 30) 0
  72 + 164 * runs

mutual

/-- More memory than the automaton of a pattern takes. -/
def Node.rough : Node → Nat
  | .empty | .look _ => 32
  | .text cs => 128 * cs.length
  | .one set _ => if set.isAscii then 64 + 8 * set.ranges.size else roughSet set
  | .repeated least most? _ a => 200 + (max least (most?.getD 0) + 1) * (a.rough + 40)
  | .group _ _ a => 64 + a.rough
  | .row items => roughAll 32 items
  | .choice branches => roughAll 72 branches

/-- More memory than several patterns take, with `n` and what a choice between them takes. -/
def roughAll (n : Nat) : List Node → Nat
  | [] => n
  | .text cs :: as => roughAll (n + 400 * cs.length + 4) as
  | a :: as => roughAll (n + a.rough + 4) as

end

/-- Whether the pattern takes more memory than allowed, forwards or backwards. -/
def Node.isTooLarge (a : Node) : Bool :=
  maxMemory < a.rough + 500 &&
    !(((a.measureWhole false).run {}).isSome && ((a.measureWhole true).run {}).isSome)

end CodeAtlas.Pattern
