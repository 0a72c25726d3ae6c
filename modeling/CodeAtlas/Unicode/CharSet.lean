/-!
# Sets of characters

A set of code points is kept as ascending ranges that do not meet; membership of an ASCII character
is one bit of a mask. Tables of characters are texts of ranges such as `41-5A AA 100-12E/2`, in
hexadecimal; the last form means every second code point.
-/

namespace CodeAtlas.Unicode

/-! ## Membership in sorted ranges

A property of characters is a table of closed ranges in ascending order; membership is a binary
search.
-/

/-- Whether `n` lies in one of `ranges[lo], …, ranges[hi - 1]`, which ascend and do not meet. -/
def inRangesFrom (ranges : Array (Nat × Nat)) (n lo hi : Nat) : Bool :=
  if lo < hi then
    let mid := (lo + hi) / 2
    let r := ranges.getD mid (0, 0)
    if n < r.1 then inRangesFrom ranges n lo mid
    else if r.2 < n then inRangesFrom ranges n (mid + 1) hi
    else true
  else false
termination_by hi - lo

/-- Whether `n` lies in one of the ranges, which ascend and do not meet. -/
def inRanges (ranges : Array (Nat × Nat)) (n : Nat) : Bool :=
  inRangesFrom ranges n 0 ranges.size

/-! ## Sets -/

/-- The largest code point. -/
def topCodePoint : Nat := 0x10FFFF

/-- A set of code points: ascending ranges that do not meet, and the masks of its members below 64
and from 64 to 127. -/
structure CharSet where
  ranges : Array (Nat × Nat)
  low : UInt64
  high : UInt64
  deriving DecidableEq

namespace CharSet

/-- Adds a range that starts no earlier than those of `done`, which is in reverse. -/
def addRange (done : List (Nat × Nat)) (r : Nat × Nat) : List (Nat × Nat) :=
  match done with
  | [] => [r]
  | (lo, hi) :: older =>
      if r.1 ≤ hi + 1 then (lo, max hi r.2) :: older else r :: (lo, hi) :: older

/-- The mask of the members of a range from `base` to `base + 63`. -/
def maskOf (base : Nat) (r : Nat × Nat) : UInt64 :=
  (List.range' (r.1 - base) (min (r.2 + 1 - base) 64 - (r.1 - base))).foldl
    (fun m i => m ||| ((1 : UInt64) <<< i.toUInt64)) 0

/-- The set with the given ascending ranges that do not meet. -/
def ofSorted (ranges : List (Nat × Nat)) : CharSet :=
  let small := ranges.takeWhile fun r => r.1 < 128
  { ranges := ranges.toArray
    low := small.foldl (fun m r => m ||| maskOf 0 r) 0
    high := small.foldl (fun m r => m ||| maskOf 64 r) 0 }

/-- The union of ranges in order of their starts. -/
def ofAscending (ranges : List (Nat × Nat)) : CharSet := ofSorted (ranges.foldl addRange []).reverse

/-- The union of any ranges. -/
def ofRanges (ranges : List (Nat × Nat)) : CharSet :=
  ofAscending (ranges.mergeSort fun a b => a.1 ≤ b.1)

/-- The set without members. -/
def empty : CharSet := ⟨#[], 0, 0⟩

/-- Every code point. -/
def all : CharSet := ofSorted [(0, topCodePoint)]

/-- The set with one member. -/
def single (c : Char) : CharSet := ofSorted [(c.toNat, c.toNat)]

/-- Whether there is no member. -/
def isEmpty (s : CharSet) : Bool := s.ranges.isEmpty

/-- Whether the code point `n` is a member. -/
def holds (s : CharSet) (n : Nat) : Bool :=
  if n < 64 then (s.low >>> n.toUInt64) &&& 1 == 1
  else if n < 128 then (s.high >>> (n - 64).toUInt64) &&& 1 == 1
  else inRanges s.ranges n

/-- Whether `c` is a member. -/
def contains (s : CharSet) (c : Char) : Bool := s.holds c.toNat

/-- The only member, if there is just one. -/
def single? (s : CharSet) : Option Nat :=
  match s.ranges.toList with
  | [(lo, hi)] => if lo == hi then some lo else none
  | _ => none

/-- Whether all members are ASCII characters. -/
def isAscii (s : CharSet) : Bool := s.ranges.back?.all fun r => r.2 < 128

/-- The members of either set. -/
def union (s t : CharSet) : CharSet :=
  if t.isEmpty then s else if s.isEmpty then t
  else ofAscending (s.ranges.toList.merge t.ranges.toList fun a b => a.1 ≤ b.1)

/-- The members of any of the sets. -/
def unions (ss : List CharSet) : CharSet := ofRanges (ss.flatMap fun s => s.ranges.toList)

/-- The gaps of ascending ranges, from `start` on. -/
def gaps (start : Nat) : List (Nat × Nat) → List (Nat × Nat)
  | [] => if start ≤ topCodePoint then [(start, topCodePoint)] else []
  | (lo, hi) :: rest =>
      if start < lo then (start, lo - 1) :: gaps (hi + 1) rest else gaps (hi + 1) rest

/-- Every code point that is not a member. -/
def complement (s : CharSet) : CharSet := ofSorted (gaps 0 s.ranges.toList)

/-- The members of both sets. -/
def inter (s t : CharSet) : CharSet := (s.complement.union t.complement).complement

/-- The members of the first set only. -/
def diff (s t : CharSet) : CharSet := (s.complement.union t).complement

/-! ## Tables -/

/-- The value of a hexadecimal digit of a table. -/
def digitValue (c : Char) : Nat := if c.isDigit then c.toNat - 48 else c.toNat - 55

/-- How far a table has been read: the ranges in reverse, the start of the range at hand, its last
number and whether it goes in steps of two. -/
structure TableReading where
  ranges : List (Nat × Nat) := []
  lo? : Option Nat := none
  last? : Option Nat := none
  byTwos : Bool := false

namespace TableReading

/-- Completes the range at hand. -/
def close (r : TableReading) : TableReading :=
  match r.last? with
  | none => r
  | some hi =>
      let lo := r.lo?.getD hi
      let more :=
        if r.byTwos then
          (List.range ((hi - lo) / 2 + 1)).foldl
            (fun done i => (lo + 2 * i, lo + 2 * i) :: done) r.ranges
        else (lo, hi) :: r.ranges
      { ranges := more }

/-- Takes one character of a table. -/
def step (r : TableReading) (c : Char) : TableReading :=
  if c == '-' then { r with lo? := r.last?, last? := none }
  else if c == '/' then { r with byTwos := true }
  else if c == ' ' || c == '\n' then r.close
  else if r.byTwos then r
  else { r with last? := some (16 * r.last?.getD 0 + digitValue c) }

end TableReading

/-- The set that a table lists in ascending order. -/
def ofText (table : String) : CharSet :=
  ofAscending (table.foldl TableReading.step {}).close.ranges.reverse

end CharSet

end CodeAtlas.Unicode
