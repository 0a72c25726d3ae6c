import CodeAtlas.Unicode.CharSet

/-!
# Sets of characters

A regular set has ranges that ascend, and the masks that go with them. Its members are the code
points in its ranges, whether they are looked up in a mask or by binary search. Unions and
complements of regular sets are regular, and have the members that they should.
-/

namespace CodeAtlas.Unicode.CharSet

/-! ## Ranges -/

/-- The number lies in one of the ranges. -/
def Within (ranges : List (Nat × Nat)) (n : Nat) : Prop := ∃ r ∈ ranges, r.1 ≤ n ∧ n ≤ r.2

instance (ranges : List (Nat × Nat)) (n : Nat) : Decidable (Within ranges n) :=
  inferInstanceAs (Decidable (∃ r ∈ ranges, r.1 ≤ n ∧ n ≤ r.2))

/-- Ranges that are not empty, in ascending order, and do not meet. -/
structure Ascends (ranges : List (Nat × Nat)) : Prop where
  valid : ∀ r ∈ ranges, r.1 ≤ r.2
  apart : ranges.Pairwise fun r s => r.2 < s.1

@[simp] theorem not_within_nil (n : Nat) : ¬ Within [] n := by
  rintro ⟨r, hr, -⟩
  cases hr

/-- A number is in ranges if it is in the first one or in the others. -/
theorem within_cons {r : Nat × Nat} {ranges : List (Nat × Nat)} {n : Nat} :
    Within (r :: ranges) n ↔ (r.1 ≤ n ∧ n ≤ r.2) ∨ Within ranges n := by
  simp [Within]

/-- A number is in two lists of ranges behind each other if it is in one of them. -/
theorem within_append {a b : List (Nat × Nat)} {n : Nat} :
    Within (a ++ b) n ↔ Within a n ∨ Within b n := by
  simp only [Within, List.mem_append]
  constructor
  · rintro ⟨r, hr | hr, h⟩
    · exact .inl ⟨r, hr, h⟩
    · exact .inr ⟨r, hr, h⟩
  · rintro (⟨r, hr, h⟩ | ⟨r, hr, h⟩)
    · exact ⟨r, .inl hr, h⟩
    · exact ⟨r, .inr hr, h⟩

/-- Binary search finds the range in which a number lies. -/
theorem inRangesFrom_iff {ranges : Array (Nat × Nat)} (h : Ascends ranges.toList) {n lo hi : Nat}
    (hhi : hi ≤ ranges.size) : inRangesFrom ranges n lo hi = true ↔
      ∃ i, ∃ hi' : i < ranges.size, lo ≤ i ∧ i < hi ∧ ranges[i].1 ≤ n ∧ n ≤ ranges[i].2 := by
  have hlt : ∀ i j (hi : i < ranges.size) (hj : j < ranges.size), i < j →
      ranges[i].2 < ranges[j].1 := by
    intro i j hi hj hij
    have := List.pairwise_iff_getElem.1 h.apart i j (by simpa using hi) (by simpa using hj) hij
    simpa using this
  have hvalid : ∀ i (hi : i < ranges.size), ranges[i].1 ≤ ranges[i].2 := by
    intro i hi
    exact h.valid _ (by simp)
  have hget : ∀ i (hi : i < ranges.size), ranges.getD i (0, 0) = ranges[i] := by
    intro i hi
    rw [Array.getD, dif_pos hi]
    rfl
  fun_induction inRangesFrom ranges n lo hi with
  | case1 lo hi hlo mid r hless ih =>
      have hmid : mid < ranges.size := by omega
      have hr : r = ranges[mid] := hget mid hmid
      refine (ih (by omega)).trans ?_
      constructor
      · rintro ⟨i, hi', hloi, hi, hin⟩
        exact ⟨i, hi', hloi, by omega, hin⟩
      · rintro ⟨i, hi', hloi, hi, hin⟩
        refine ⟨i, hi', hloi, Nat.lt_of_not_le fun hle => ?_, hin⟩
        -- the range would stand behind the one in the middle, which starts behind the number
        rcases Nat.lt_or_eq_of_le hle with hlt' | rfl
        · have := hlt mid i hmid hi' hlt'
          have := hvalid mid hmid
          rw [hr] at hless
          omega
        · rw [hr] at hless
          omega
  | case2 lo hi hlo mid r hless hmore ih =>
      have hmid : mid < ranges.size := by omega
      have hr : r = ranges[mid] := hget mid hmid
      refine (ih hhi).trans ?_
      constructor
      · rintro ⟨i, hi', hloi, hi, hin⟩
        exact ⟨i, hi', by omega, hi, hin⟩
      · rintro ⟨i, hi', hloi, hi, hin⟩
        refine ⟨i, hi', Nat.lt_of_not_le fun hle => ?_, hi, hin⟩
        rcases Nat.lt_or_eq_of_le hle with hlt' | rfl
        · have := hlt i mid hi' hmid hlt'
          have := hvalid mid hmid
          rw [hr] at hmore
          omega
        · rw [hr] at hmore
          omega
  | case3 lo hi hlo mid r hless hmore =>
      have hmid : mid < ranges.size := by omega
      have hr : r = ranges[mid] := hget mid hmid
      rw [hr] at hless hmore
      exact ⟨fun _ => ⟨mid, hmid, by omega, by omega, by omega, by omega⟩, fun _ => rfl⟩
  | case4 lo hi hlo =>
      simp only [Bool.false_eq_true, false_iff]
      rintro ⟨i, -, hloi, hi, -⟩
      omega

/-- The binary search finds a number in ascending ranges just if it is in one of them. -/
theorem inRanges_iff {ranges : Array (Nat × Nat)} (h : Ascends ranges.toList) (n : Nat) :
    inRanges ranges n = true ↔ Within ranges.toList n := by
  rw [inRanges, inRangesFrom_iff h (Nat.le_refl _)]
  constructor
  · rintro ⟨i, hi, -, -, hin⟩
    exact ⟨ranges[i], by simp, hin⟩
  · rintro ⟨r, hr, hin⟩
    obtain ⟨i, hi, rfl⟩ := List.getElem_of_mem hr
    rw [Array.length_toList] at hi
    exact ⟨i, hi, Nat.zero_le i, hi, by simpa using hin⟩

/-! ## Masks -/

/-- Whether a mask has a bit. -/
def bit (m : UInt64) (i : Nat) : Bool := m.toNat.testBit i

/-- A small number is the same as a word of 64 bits. -/
theorem toNat_toUInt64 {i : Nat} (hi : i < 64) : i.toUInt64.toNat = i := by
  rw [UInt64.toNat_ofNat', Nat.mod_eq_of_lt (by omega)]

/-- Shifting and masking a word reads one of its bits. -/
theorem bit_eq {m : UInt64} {i : Nat} (hi : i < 64) :
    ((m >>> i.toUInt64) &&& 1 == 1) = bit m i := by
  rw [Bool.eq_iff_iff, beq_iff_eq, ← UInt64.toNat_inj, UInt64.toNat_and, UInt64.toNat_shiftRight,
    toNat_toUInt64 hi, Nat.mod_eq_of_lt hi, bit, Nat.testBit_eq_decide_div_mod_eq]
  simp [Nat.shiftRight_eq_div_pow]

/-- A bit of a union of words is set if it is set in one of them. -/
theorem bit_or (m k : UInt64) (i : Nat) : bit (m ||| k) i = (bit m i || bit k i) := by
  rw [bit, UInt64.toNat_or, Nat.testBit_or]
  rfl

/-- A shifted one has one bit. -/
theorem bit_shift {i j : Nat} (hi : i < 64) (hj : j < 64) :
    bit ((1 : UInt64) <<< i.toUInt64) j = decide (i = j) := by
  rw [bit, UInt64.toNat_shiftLeft, toNat_toUInt64 hi, Nat.mod_eq_of_lt hi, Nat.testBit_mod_two_pow,
    UInt64.toNat_one, Nat.one_shiftLeft, Nat.testBit_two_pow, decide_eq_true hj, Bool.true_and]

/-- The bits of a fold of masks are those of the masks. -/
theorem bit_foldl {α : Type} (f : α → UInt64) (l : List α) (m : UInt64) (i : Nat) :
    bit (l.foldl (fun m a => m ||| f a) m) i = (bit m i || l.any fun a => bit (f a) i) := by
  induction l generalizing m with
  | nil => simp
  | cons a l ih => rw [List.foldl_cons, ih, bit_or, List.any_cons, Bool.or_assoc]

theorem bit_zero (i : Nat) : bit 0 i = false := Nat.zero_testBit i

/-- The mask of a range has the bits of its members. -/
theorem bit_maskOf (base : Nat) (r : Nat × Nat) {i : Nat} (hi : i < 64) :
    bit (maskOf base r) i = true ↔ r.1 ≤ base + i ∧ base + i ≤ r.2 := by
  rw [maskOf, bit_foldl, bit_zero, Bool.false_or, List.any_eq_true]
  constructor
  · rintro ⟨j, hj, hbit⟩
    rw [List.mem_range'_1] at hj
    rw [bit_shift (by omega) hi, decide_eq_true_eq] at hbit
    omega
  · rintro ⟨hlow, hhigh⟩
    refine ⟨i, List.mem_range'_1.2 (by omega), ?_⟩
    rw [bit_shift hi hi, decide_eq_true rfl]

/-! ## Regular sets -/

/-- The ranges ascend, and the masks are theirs. -/
structure Regular (s : CharSet) : Prop where
  ascends : Ascends s.ranges.toList
  eq : s = ofSorted s.ranges.toList

@[simp] theorem ranges_ofSorted (ranges : List (Nat × Nat)) :
    (ofSorted ranges).ranges.toList = ranges := rfl

/-- A set made of ascending ranges is regular. -/
theorem regular_ofSorted {ranges : List (Nat × Nat)} (h : Ascends ranges) :
    Regular (ofSorted ranges) :=
  ⟨h, rfl⟩

/-- Ranges ascend if the first one is no empty range, ends in front of the others, and these
ascend. -/
theorem ascends_cons {r : Nat × Nat} {ranges : List (Nat × Nat)} : Ascends (r :: ranges) ↔
    r.1 ≤ r.2 ∧ (∀ s ∈ ranges, r.2 < s.1) ∧ Ascends ranges := by
  constructor
  · rintro ⟨hvalid, hapart⟩
    obtain ⟨hr, hvalid⟩ := List.forall_mem_cons.1 hvalid
    obtain ⟨hlt, hapart⟩ := List.pairwise_cons.1 hapart
    exact ⟨hr, hlt, hvalid, hapart⟩
  · rintro ⟨hr, hlt, hvalid, hapart⟩
    exact ⟨List.forall_mem_cons.2 ⟨hr, hvalid⟩, List.pairwise_cons.2 ⟨hlt, hapart⟩⟩

/-- The first ranges hold the members below the next start. -/
theorem within_takeWhile {ranges : List (Nat × Nat)} (h : Ascends ranges) {n : Nat} (hn : n < 128) :
    Within (ranges.takeWhile fun r => r.1 < 128) n ↔ Within ranges n := by
  induction ranges with
  | nil => rfl
  | cons r ranges ih =>
      obtain ⟨hr, hlt, hrest⟩ := ascends_cons.1 h
      by_cases hsmall : r.1 < 128
      · rw [List.takeWhile_cons_of_pos (by simpa using hsmall), within_cons, within_cons, ih hrest]
      · rw [List.takeWhile_cons_of_neg (by simpa using hsmall)]
        simp only [not_within_nil, false_iff]
        rintro ⟨s, hs, hin⟩
        rcases List.mem_cons.1 hs with rfl | hs
        · omega
        · have := hlt s hs
          omega

/-- A set made of ascending ranges holds the numbers in them. -/
theorem holds_ofSorted {ranges : List (Nat × Nat)} (h : Ascends ranges) (n : Nat) :
    (ofSorted ranges).holds n = true ↔ Within ranges n := by
  have hmask : ∀ base i, i < 64 → base + i < 128 →
      (bit ((ranges.takeWhile fun r => r.1 < 128).foldl (fun m r => m ||| maskOf base r) 0) i = true
        ↔ Within ranges (base + i)) := by
    intro base i hi hlt
    rw [bit_foldl, bit_zero, Bool.false_or, ← within_takeWhile h hlt, List.any_eq_true]
    simp only [bit_maskOf base _ hi]
    rfl
  rw [holds]
  split
  · next hn =>
    rw [bit_eq hn]
    refine (hmask 0 n hn (by omega)).trans ?_
    rw [Nat.zero_add]
  · split
    · next hn hn' =>
      rw [bit_eq (by omega)]
      refine (hmask 64 (n - 64) (by omega) (by omega)).trans ?_
      rw [show 64 + (n - 64) = n by omega]
    · exact inRanges_iff h n

/-- A regular set holds the numbers in its ranges. -/
theorem Regular.holds_iff {s : CharSet} (h : Regular s) (n : Nat) :
    s.holds n = true ↔ Within s.ranges.toList n := by
  rw [h.eq]
  exact holds_ofSorted h.ascends n

/-! ## Unions -/

/-- Ranges that are not empty, in the order of their starts. -/
structure Starts (ranges : List (Nat × Nat)) : Prop where
  valid : ∀ r ∈ ranges, r.1 ≤ r.2
  sorted : ranges.Pairwise fun r s => r.1 ≤ s.1

/-- Ranges that ascend have ascending starts. -/
theorem Ascends.starts {ranges : List (Nat × Nat)} (h : Ascends ranges) : Starts ranges := by
  refine ⟨h.valid, h.apart.imp_of_mem fun hr _ hlt => ?_⟩
  exact Nat.le_of_lt (Nat.lt_of_le_of_lt (h.valid _ hr) hlt)

/-- Two lists of ranges behind each other ascend if both do and the first ends in front of the
second. -/
theorem ascends_append {a b : List (Nat × Nat)} :
    Ascends (a ++ b) ↔ Ascends a ∧ Ascends b ∧ ∀ r ∈ a, ∀ s ∈ b, r.2 < s.1 := by
  constructor
  · rintro ⟨hvalid, hapart⟩
    obtain ⟨ha, hb, hab⟩ := List.pairwise_append.1 hapart
    obtain ⟨hva, hvb⟩ := List.forall_mem_append.1 hvalid
    exact ⟨⟨hva, ha⟩, ⟨hvb, hb⟩, hab⟩
  · rintro ⟨⟨hva, ha⟩, ⟨hvb, hb⟩, hab⟩
    exact ⟨List.forall_mem_append.2 ⟨hva, hvb⟩, List.pairwise_append.2 ⟨ha, hb, hab⟩⟩

theorem ascends_nil : Ascends [] := ⟨nofun, .nil⟩

/-- One range that is not empty ascends. -/
theorem ascends_singleton {r : Nat × Nat} (h : r.1 ≤ r.2) : Ascends [r] :=
  ascends_cons.2 ⟨h, nofun, ascends_nil⟩

/-- A range that starts no earlier than those that are done joins them. -/
theorem ascends_addRange {done : List (Nat × Nat)} {r : Nat × Nat} (h : Ascends done.reverse)
    (hr : r.1 ≤ r.2) (hstart : ∀ s ∈ done, s.1 ≤ r.1) :
    Ascends (addRange done r).reverse ∧ (∀ s ∈ addRange done r, s.1 ≤ r.1)
      ∧ ∀ n, Within (addRange done r) n ↔ Within done n ∨ (r.1 ≤ n ∧ n ≤ r.2) := by
  cases done with
  | nil =>
      refine ⟨ascends_singleton hr, List.forall_mem_singleton.2 (Nat.le_refl _), fun n => ?_⟩
      rw [addRange, within_cons, or_comm]
  | cons d older =>
      obtain ⟨lo, hi⟩ := d
      rw [List.reverse_cons] at h
      obtain ⟨holder, hlast, hbelow⟩ := ascends_append.1 h
      have hvalid := (ascends_cons.1 hlast).1
      have hbelow' : ∀ s ∈ older.reverse, s.2 < lo := fun s hs => hbelow s hs _ List.mem_cons_self
      obtain ⟨hlo, hstart'⟩ := List.forall_mem_cons.1 hstart
      rw [addRange]
      -- the range meets the last one, which grows
      split
      · next hmeet =>
        refine ⟨?_, List.forall_mem_cons.2 ⟨hlo, hstart'⟩, fun n => ?_⟩
        · rw [List.reverse_cons]
          refine ascends_append.2 ⟨holder, ascends_singleton (by omega), fun s hs t ht => ?_⟩
          rw [List.mem_singleton.1 ht]
          exact hbelow' s hs
        · rw [within_cons, within_cons]
          constructor
          · rintro (hin | hin)
            · by_cases hn : n ≤ hi
              · exact .inl (.inl ⟨hin.1, hn⟩)
              · exact .inr (by omega)
            · exact .inl (.inr hin)
          · rintro ((hin | hin) | hin)
            · exact .inl ⟨hin.1, Nat.le_trans hin.2 (Nat.le_max_left hi r.2)⟩
            · exact .inr hin
            · exact .inl ⟨Nat.le_trans hlo hin.1, Nat.le_trans hin.2 (Nat.le_max_right hi r.2)⟩
      · -- the range is apart from the last one, and goes behind it
        next hmeet =>
        refine ⟨?_, List.forall_mem_cons.2 ⟨Nat.le_refl _, hstart⟩, fun n => ?_⟩
        · rw [List.reverse_cons, List.reverse_cons]
          refine ascends_append.2 ⟨h, ascends_singleton hr, fun s hs t ht => ?_⟩
          rw [List.mem_singleton.1 ht]
          rcases List.mem_append.1 hs with hs | hs
          · exact Nat.lt_of_lt_of_le (hbelow' s hs) hlo
          · rw [List.mem_singleton.1 hs]
            show hi < r.1
            omega
        · rw [within_cons, or_comm]

/-- Adding ranges with ascending starts keeps the ranges ascending, and adds exactly their
numbers. -/
theorem foldl_addRange {ranges done : List (Nat × Nat)} (h : Starts ranges)
    (hdone : Ascends done.reverse) (hstart : ∀ s ∈ done, ∀ r ∈ ranges, s.1 ≤ r.1) :
    Ascends (ranges.foldl addRange done).reverse
      ∧ ∀ n, Within (ranges.foldl addRange done) n ↔ Within done n ∨ Within ranges n := by
  induction ranges generalizing done with
  | nil => exact ⟨hdone, fun n => by simp⟩
  | cons r ranges ih =>
      obtain ⟨hr, hvalid⟩ := List.forall_mem_cons.1 h.valid
      obtain ⟨hfirst, hsorted⟩ := List.pairwise_cons.1 h.sorted
      obtain ⟨hascends, hbefore, hwithin⟩ :=
        ascends_addRange hdone hr fun s hs => hstart s hs r List.mem_cons_self
      obtain ⟨hascends', hwithin'⟩ := ih ⟨hvalid, hsorted⟩ hascends fun s hs t ht =>
        Nat.le_trans (hbefore s hs) (hfirst t ht)
      refine ⟨hascends', fun n => ?_⟩
      rw [List.foldl_cons, hwithin', hwithin, within_cons, or_assoc]

/-- The order of ranges makes no difference to the numbers in them. -/
theorem within_reverse {ranges : List (Nat × Nat)} {n : Nat} :
    Within ranges.reverse n ↔ Within ranges n := by
  simp [Within]

/-- The union of ranges in the order of their starts is regular and has their members. -/
theorem regular_ofAscending {ranges : List (Nat × Nat)} (h : Starts ranges) :
    Regular (ofAscending ranges) ∧ ∀ n, (ofAscending ranges).holds n = true ↔ Within ranges n := by
  obtain ⟨hascends, hwithin⟩ := @foldl_addRange ranges [] h ascends_nil (fun _ hs => nomatch hs)
  refine ⟨regular_ofSorted hascends, fun n => ?_⟩
  rw [ofAscending, holds_ofSorted hascends, within_reverse, hwithin]
  simp

/-- A set made of ranges in any order is regular and holds the numbers in them. -/
theorem regular_ofRanges {ranges : List (Nat × Nat)} (h : ∀ r ∈ ranges, r.1 ≤ r.2) :
    Regular (ofRanges ranges) ∧ ∀ n, (ofRanges ranges).holds n = true ↔ Within ranges n := by
  have hsorted : Starts (ranges.mergeSort fun a b => a.1 ≤ b.1) := by
    refine ⟨fun r hr => h r (List.mem_mergeSort.1 hr), ?_⟩
    refine (List.pairwise_mergeSort ?_ ?_ ranges).imp of_decide_eq_true
    · intro a b c hab hbc
      exact decide_eq_true (Nat.le_trans (of_decide_eq_true hab) (of_decide_eq_true hbc))
    · intro a b
      simpa using Nat.le_total a.1 b.1
  obtain ⟨hregular, hholds⟩ := regular_ofAscending hsorted
  refine ⟨hregular, fun n => (hholds n).trans ?_⟩
  simp [Within, List.mem_mergeSort]

/-- Regular sets with the same members are alike. -/
theorem holds_of_isEmpty {s : CharSet} (h : Regular s) (hempty : s.isEmpty = true) (n : Nat) :
    s.holds n = false := by
  have hnil : s.ranges.toList = [] := by simpa [isEmpty] using hempty
  rw [← Bool.not_eq_true, h.holds_iff, hnil]
  exact not_within_nil n

/-- A union of regular sets is regular and holds what one of them holds. -/
theorem regular_union {s t : CharSet} (hs : Regular s) (ht : Regular t) :
    Regular (s.union t) ∧ ∀ n, (s.union t).holds n = (s.holds n || t.holds n) := by
  rw [union]
  split
  · next hempty => exact ⟨hs, fun n => by rw [holds_of_isEmpty ht hempty, Bool.or_false]⟩
  split
  · next hempty => exact ⟨ht, fun n => by rw [holds_of_isEmpty hs hempty, Bool.false_or]⟩
  have hstarts : Starts (s.ranges.toList.merge t.ranges.toList fun a b => a.1 ≤ b.1) := by
    refine ⟨fun r hr => ?_, ?_⟩
    · rcases List.mem_merge.1 hr with hr | hr
      · exact hs.ascends.valid r hr
      · exact ht.ascends.valid r hr
    · have hsorted := List.pairwise_merge (fun a b c hab hbc => ?_) (fun a b => ?_) _ _
        (hs.ascends.starts.sorted.imp decide_eq_true) (ht.ascends.starts.sorted.imp decide_eq_true)
      · exact hsorted.imp of_decide_eq_true
      · exact decide_eq_true (Nat.le_trans (of_decide_eq_true hab) (of_decide_eq_true hbc))
      · simpa using Nat.le_total a.1 b.1
  obtain ⟨hregular, hholds⟩ := regular_ofAscending hstarts
  refine ⟨hregular, fun n => ?_⟩
  rw [Bool.eq_iff_iff, hholds, Bool.or_eq_true, hs.holds_iff, ht.holds_iff, ← within_append]
  simp only [Within, List.mem_merge, List.mem_append]

/-- A union of a list of regular sets is regular and holds what one of them holds. -/
theorem regular_unions {ss : List CharSet} (h : ∀ s ∈ ss, Regular s) :
    Regular (unions ss) ∧ ∀ n, (unions ss).holds n = true ↔ ∃ s ∈ ss, s.holds n = true := by
  have hvalid : ∀ r ∈ ss.flatMap fun s => s.ranges.toList, r.1 ≤ r.2 := by
    intro r hr
    obtain ⟨s, hs, hr⟩ := List.mem_flatMap.1 hr
    exact (h s hs).ascends.valid r hr
  obtain ⟨hregular, hholds⟩ := regular_ofRanges hvalid
  refine ⟨hregular, fun n => (hholds n).trans ?_⟩
  constructor
  · rintro ⟨r, hr, hin⟩
    obtain ⟨s, hs, hr⟩ := List.mem_flatMap.1 hr
    exact ⟨s, hs, ((h s hs).holds_iff n).2 ⟨r, hr, hin⟩⟩
  · rintro ⟨s, hs, hin⟩
    obtain ⟨r, hr, hin⟩ := ((h s hs).holds_iff n).1 hin
    exact ⟨r, List.mem_flatMap.2 ⟨s, hs, hr⟩, hin⟩

/-! ## Complements -/

/-- The gaps between ascending ranges ascend, and have the numbers that are in none of the
ranges. -/
theorem ascends_gaps {ranges : List (Nat × Nat)} (h : Ascends ranges) {start : Nat}
    (hstart : ∀ r ∈ ranges, start ≤ r.1) :
    Ascends (gaps start ranges) ∧ (∀ r ∈ gaps start ranges, start ≤ r.1)
      ∧ ∀ n ≤ topCodePoint, Within (gaps start ranges) n ↔ start ≤ n ∧ ¬ Within ranges n := by
  induction ranges generalizing start with
  | nil =>
      rw [gaps]
      split
      · next htop =>
        refine ⟨ascends_singleton htop, List.forall_mem_singleton.2 (Nat.le_refl _), fun n hn => ?_⟩
        simp [within_cons, hn]
      · next htop =>
        refine ⟨ascends_nil, nofun, fun n hn => ?_⟩
        simp
        omega
  | cons r ranges ih =>
      obtain ⟨lo, hi⟩ := r
      obtain ⟨hr, hlt, hrest⟩ := ascends_cons.1 h
      have hlo : start ≤ lo := hstart _ List.mem_cons_self
      obtain ⟨hascends, hbehind, hwithin⟩ := ih hrest fun s hs => (hlt s hs : hi + 1 ≤ s.1)
      rw [gaps]
      -- a gap in front of the range
      split
      · next hgap =>
        refine ⟨ascends_cons.2 ⟨?_, fun s hs => ?_, hascends⟩, ?_, fun n hn => ?_⟩
        · show start ≤ lo - 1
          omega
        · have := hbehind s hs
          show lo - 1 < s.1
          simp only at hr
          omega
        · refine List.forall_mem_cons.2 ⟨Nat.le_refl _, fun s hs => ?_⟩
          have := hbehind s hs
          simp only at hr
          omega
        · rw [within_cons, hwithin n hn, within_cons]
          simp only at hr ⊢
          have hnot : Within ranges n → hi < n :=
            fun ⟨s, hs, hin⟩ => Nat.lt_of_lt_of_le (hlt s hs) hin.1
          constructor
          · rintro (hin | ⟨hin, hn'⟩)
            · exact ⟨hin.1, fun hc => by
                rcases hc with hc | hc
                · omega
                · have := hnot hc
                  omega⟩
            · exact ⟨by omega, fun hc => hc.elim (fun hc => by omega) hn'⟩
          · rintro ⟨hin, hn'⟩
            obtain ⟨hne, hn'⟩ := not_or.1 hn'
            by_cases hless : n ≤ lo - 1
            · exact .inl ⟨hin, hless⟩
            · exact .inr ⟨by omega, hn'⟩
      · -- the range begins at `start`, so there is no gap
        next hgap =>
        refine ⟨hascends, fun s hs => ?_, fun n hn => ?_⟩
        · have := hbehind s hs
          simp only at hr
          omega
        · rw [hwithin n hn, within_cons]
          simp only at hr ⊢
          constructor
          · rintro ⟨hin, hn'⟩
            exact ⟨by omega, fun hc => hc.elim (fun hc => by omega) hn'⟩
          · rintro ⟨hin, hn'⟩
            obtain ⟨hne, hn'⟩ := not_or.1 hn'
            exact ⟨by omega, hn'⟩

/-- The complement of a regular set is regular and holds what the set does not hold. -/
theorem regular_complement {s : CharSet} (h : Regular s) :
    Regular s.complement ∧ ∀ n ≤ topCodePoint, s.complement.holds n = !s.holds n := by
  obtain ⟨hascends, -, hwithin⟩ := ascends_gaps h.ascends fun r _ => Nat.zero_le r.1
  refine ⟨regular_ofSorted hascends, fun n hn => ?_⟩
  rw [Bool.eq_iff_iff, complement, holds_ofSorted hascends, hwithin n hn, Bool.not_eq_true',
    ← Bool.not_eq_true, h.holds_iff]
  simp

/-- A difference of regular sets is regular and holds what the first holds and the second does
not. -/
theorem regular_diff {s t : CharSet} (hs : Regular s) (ht : Regular t) :
    Regular (s.diff t) ∧ ∀ n ≤ topCodePoint, (s.diff t).holds n = (s.holds n && !t.holds n) := by
  obtain ⟨hs', hcomplement⟩ := regular_complement hs
  obtain ⟨hunion, hholds⟩ := regular_union hs' ht
  obtain ⟨hregular, hdiff⟩ := regular_complement hunion
  refine ⟨hregular, fun n hn => (hdiff n hn).trans ?_⟩
  rw [hholds, hcomplement n hn, Bool.not_or, Bool.not_not]

/-! ## Members -/

theorem regular_empty : Regular empty := ⟨ascends_nil, rfl⟩

/-- The empty set has no character. -/
theorem contains_empty (c : Char) : empty.contains c = false :=
  holds_of_isEmpty regular_empty rfl c.toNat

/-- The set of one character is regular. -/
theorem regular_single (c : Char) : Regular (single c) :=
  regular_ofSorted (ascends_singleton (Nat.le_refl _))

/-- The set of one character has this one. -/
theorem contains_single (c d : Char) : (single c).contains d = (c == d) := by
  rw [Bool.eq_iff_iff, contains, (regular_single c).holds_iff, single, ranges_ofSorted,
    within_cons, beq_iff_eq]
  simp only [not_within_nil, or_false, ← Char.toNat_inj]
  omega

/-- A set of one range has the characters between its ends. -/
theorem contains_ofSorted {lo hi : Nat} (h : lo ≤ hi) (c : Char) :
    (ofSorted [(lo, hi)]).contains c = true ↔ lo ≤ c.toNat ∧ c.toNat ≤ hi := by
  rw [contains, holds_ofSorted (ascends_singleton h), within_cons]
  simp

/-- A set of one range that is not empty is regular. -/
theorem regular_range {lo hi : Nat} (h : lo ≤ hi) : Regular (ofSorted [(lo, hi)]) :=
  regular_ofSorted (ascends_singleton h)

/-- A set of one number has the character with this number. -/
theorem contains_ofSorted_self (d c : Char) :
    (ofSorted [(d.toNat, d.toNat)]).contains c = true ↔ c = d := by
  rw [contains_ofSorted (Nat.le_refl _), ← Char.toNat_inj]
  omega

/-- A union of regular sets has the characters that one of them has. -/
theorem contains_union {s t : CharSet} (hs : Regular s) (ht : Regular t) (c : Char) :
    (s.union t).contains c = (s.contains c || t.contains c) :=
  (regular_union hs ht).2 c.toNat

/-- A union of a list of regular sets has the characters that one of them has. -/
theorem contains_unions {ss : List CharSet} (h : ∀ s ∈ ss, Regular s) (c : Char) :
    (unions ss).contains c = ss.any (·.contains c) := by
  rw [Bool.eq_iff_iff, contains, (regular_unions h).2, List.any_eq_true]
  rfl

/-- No character is above the last code point. -/
theorem toNat_le_topCodePoint (c : Char) : c.toNat ≤ topCodePoint := by
  have hvalid := c.valid
  show c.val.toNat ≤ 0x10FFFF
  rcases hvalid with h | ⟨-, h⟩
  · exact Nat.le_of_lt (Nat.lt_of_lt_of_le h (by decide))
  · exact Nat.le_of_lt_succ h

/-- The complement of a regular set has the characters that the set does not have. -/
theorem contains_complement {s : CharSet} (h : Regular s) (c : Char) :
    s.complement.contains c = !s.contains c :=
  (regular_complement h).2 c.toNat (toNat_le_topCodePoint c)

/-- A set with two members is not empty and has no only member. -/
theorem single?_eq_none {s : CharSet} (h : Regular s) {c d : Char} (hc : s.contains c = true)
    (hd : s.contains d = true) (hne : c ≠ d) : s.isEmpty = false ∧ s.single? = none := by
  obtain ⟨r, hr, hin⟩ := (h.holds_iff _).1 hc
  obtain ⟨r', hr', hin'⟩ := (h.holds_iff _).1 hd
  have hne' : c.toNat ≠ d.toNat := fun h => hne (Char.toNat_inj.1 h)
  constructor
  · rw [isEmpty, Array.isEmpty_eq_false_iff]
    rintro hnil
    rw [hnil] at hr
    cases hr
  · rw [single?]
    split
    · next lo hi hranges =>
      rw [hranges] at hr hr'
      obtain rfl := List.mem_singleton.1 hr
      obtain rfl := List.mem_singleton.1 hr'
      rw [if_neg]
      rw [beq_iff_eq]
      rintro rfl
      simp only at hin hin'
      omega
    · rfl

end CodeAtlas.Unicode.CharSet
