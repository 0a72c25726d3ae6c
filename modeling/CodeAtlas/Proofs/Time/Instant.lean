import CodeAtlas.Proofs.Text.Trim
import CodeAtlas.Time.Instant

/-!
# Instants

Every day has a date of the calendar, and the date has the number of the day. The calendar repeats
itself after an era of 400 years, and every year of it starts behind the leap days of the years in
front; years start in March.

The text of an instant is read back. Each of its numbers is written with as many digits as are read,
and none of its marks is white space.
-/

namespace CodeAtlas.Instant

open Text Unicode

/-! ## The years of an era -/

/-- The years of a century that starts behind so many others. -/
theorem year_of_century {k r q w : Int} (hk : 0 ≤ k) (hk' : k ≤ 3) (hr : 0 ≤ r) (hr' : r ≤ 36523)
    (hq : q = (24 * k + r) / 1460) (hw : w = (r - q) / 365) :
    0 ≤ w ∧ w ≤ 99 ∧ 365 * w + w / 4 ≤ r ∧ r < 365 * (w + 1) + (w + 1) / 4 - (w + 1) / 100 := by
  have hlow : w / 4 ≤ q := by omega
  have hhigh : q ≤ (w + 1) / 4 := by omega
  have hfirst : 0 ≤ w := by omega
  have hlast : w ≤ 99 := by omega
  refine ⟨hfirst, hlast, by omega, ?_⟩
  rcases Int.lt_or_eq_of_le hlast with h | rfl
  · omega
  · omega

/-- The first day of a year of an era. -/
def firstDay (y : Int) : Int := 365 * y + y / 4 - y / 100 + y / 400

/-- A day of an era lies in the year that is computed for it. -/
theorem year_of_era {d y : Int} (hd : 0 ≤ d) (hd' : d ≤ 146096)
    (hy : y = (d - d / 1460 + d / 36524 - d / 146096) / 365) :
    0 ≤ y ∧ y ≤ 399 ∧ firstDay y ≤ d ∧ d < firstDay (y + 1) := by
  unfold firstDay
  by_cases hlast : d = 146096
  · subst hlast
    omega
  · obtain ⟨hw, hw', hlow, hhigh⟩ := year_of_century (k := d / 36524) (r := d % 36524) (by omega)
      (by omega) (by omega) (by omega) rfl rfl
    generalize hw'' : (d % 36524 - (24 * (d / 36524) + d % 36524) / 1460) / 365 = w at *
    have hyear : y = 100 * (d / 36524) + w := by omega
    have hzero : y / 400 = 0 := by omega
    have hfour : y / 4 = 25 * (d / 36524) + w / 4 := by omega
    have hfour' : (y + 1) / 4 = 25 * (d / 36524) + (w + 1) / 4 := by omega
    have hhundred : y / 100 = d / 36524 := by omega
    have hhundred' : (y + 1) / 100 = d / 36524 + (w + 1) / 100 := by omega
    have hlate : 0 ≤ (y + 1) / 400 := by omega
    rw [hzero, hfour, hfour', hhundred, hhundred']
    generalize (y + 1) / 400 = late at hlate
    exact ⟨by omega, by omega, by omega, by omega⟩

/-! ## Dates -/

/-- The month of a year that starts in March. -/
def civilMonth (m : Int) : Int := if m < 10 then m + 3 else m - 9

/-- What a date is made of: an era, a year of it and a day of that year. -/
theorem exists_of_dateOfDays (days : Int) : ∃ era y d : Int, 0 ≤ y ∧ y ≤ 399 ∧ 0 ≤ d
    ∧ firstDay y + d < firstDay (y + 1) ∧ days + 719468 = era * 146097 + (firstDay y + d)
    ∧ dateOfDays days = (y + era * 400 + if civilMonth ((5 * d + 2) / 153) ≤ 2 then 1 else 0,
        (civilMonth ((5 * d + 2) / 153)).toNat,
        (d - (153 * ((5 * d + 2) / 153) + 2) / 5 + 1).toNat) := by
  have hera : (days + 719468).fdiv 146097 = (days + 719468) / 146097 :=
    Int.fdiv_eq_ediv_of_nonneg _ (by decide)
  obtain ⟨hy, hy', hfirst, hlast⟩ := year_of_era
    (d := days + 719468 - (days + 719468) / 146097 * 146097) (by omega) (by omega) rfl
  rw [dateOfDays, hera]
  generalize (days + 719468) / 146097 = era at *
  generalize hday : days + 719468 - era * 146097 = dayOfEra at *
  generalize (dayOfEra - dayOfEra / 1460 + dayOfEra / 36524 - dayOfEra / 146096) / 365 = y at *
  have hdayOfYear : dayOfEra - (365 * y + y / 4 - y / 100) = dayOfEra - firstDay y := by
    unfold firstDay
    omega
  rw [hdayOfYear]
  refine ⟨era, y, dayOfEra - firstDay y, hy, hy', by omega, by omega, by omega, rfl⟩

/-- A year has at most 366 days, and so many only if it ends with a leap day. -/
theorem length_year {y d : Int} (hy : 0 ≤ y) (hy' : y ≤ 399)
    (h : firstDay y + d < firstDay (y + 1)) :
    d ≤ 365 ∧ (d = 365 → isLeapYear (y + 1) = true) := by
  unfold firstDay at h
  refine ⟨by omega, ?_⟩
  intro hd
  have hfour : (y + 1) % 4 = 0 := by omega
  have hhundred : (y + 1) % 100 ≠ 0 ∨ (y + 1) % 400 = 0 := by omega
  simpa [isLeapYear, hfour] using hhundred

/-- The date of a day has its number. -/
theorem daysOfDate_dateOfDays (days : Int) :
    daysOfDate (dateOfDays days).1 (dateOfDays days).2.1 (dateOfDays days).2.2 = days := by
  obtain ⟨era, y, d, hy, hy', hd, hlast, hdays, hdate⟩ := exists_of_dateOfDays days
  obtain ⟨hd', -⟩ := length_year hy hy' hlast
  have hera : (y + era * 400).fdiv 400 = era := by
    rw [Int.fdiv_eq_ediv_of_nonneg _ (by decide)]
    omega
  have hfirst : firstDay y = y * 365 + y / 4 - y / 100 := by
    unfold firstDay
    omega
  rw [hdate, daysOfDate]
  simp only
  generalize hm : (5 * d + 2) / 153 = m
  by_cases h : m < 10
  · have hmonth : civilMonth m = m + 3 := if_pos h
    have hlate : ¬ m + 3 ≤ 2 := by omega
    have hlate' : ¬ (m + 3).toNat ≤ 2 := by omega
    have hback : (((m + 3).toNat : Int) + 9) % 12 = m := by omega
    rw [hmonth, if_neg hlate, if_neg hlate', Int.add_zero, hera, hback, Int.add_sub_cancel]
    omega
  · have hmonth : civilMonth m = m - 9 := if_neg h
    have hearly : m - 9 ≤ 2 := by omega
    have hearly' : (m - 9).toNat ≤ 2 := by omega
    have hback : (((m - 9).toNat : Int) + 9) % 12 = m := by omega
    rw [hmonth, if_pos hearly, if_pos hearly', Int.add_sub_cancel, hera, hback, Int.add_sub_cancel]
    omega

/-- Whether a year has a leap day is the same in every era. -/
theorem isLeapYear_era (y era : Int) : isLeapYear (y + era * 400) = isLeapYear y := by
  have hfour : (y + era * 400) % 4 = y % 4 := by omega
  have hhundred : (y + era * 400) % 100 = y % 100 := by omega
  have hfourHundred : (y + era * 400) % 400 = y % 400 := by omega
  rw [isLeapYear, isLeapYear, hfour, hhundred, hfourHundred]

/-- The days of a month that is not the last of a year that starts in March. -/
theorem daysOfMonth_civilMonth {m : Int} (hm : 0 ≤ m) (hm' : m ≤ 10) (year : Int) :
    (daysOfMonth year (civilMonth m).toNat : Int)
      = (153 * (m + 1) + 2) / 5 - (153 * m + 2) / 5 := by
  have hall : m = 0 ∨ m = 1 ∨ m = 2 ∨ m = 3 ∨ m = 4 ∨ m = 5 ∨ m = 6 ∨ m = 7 ∨ m = 8 ∨ m = 9
      ∨ m = 10 := by omega
  rcases hall with rfl | rfl | rfl | rfl | rfl | rfl | rfl | rfl | rfl | rfl | rfl
  all_goals rfl

/-- The date of a day is one of the calendar. -/
theorem dateOfDays_valid (days : Int) : 1 ≤ (dateOfDays days).2.1 ∧ (dateOfDays days).2.1 ≤ 12
    ∧ 1 ≤ (dateOfDays days).2.2
    ∧ (dateOfDays days).2.2 ≤ daysOfMonth (dateOfDays days).1 (dateOfDays days).2.1 := by
  obtain ⟨era, y, d, hy, hy', hd, hlast, -, hdate⟩ := exists_of_dateOfDays days
  obtain ⟨hd', hleap⟩ := length_year hy hy' hlast
  rw [hdate]
  simp only
  -- the year is counted from March, so February comes last and its length depends on the year
  by_cases hfebruary : (5 * d + 2) / 153 = 11
  · have hyear : y + era * 400 + 1 = (y + 1) + era * 400 := by omega
    have hmonth : (civilMonth 11).toNat = 2 := rfl
    have hearly : civilMonth 11 ≤ 2 := by decide
    rw [hfebruary, hmonth, if_pos hearly, hyear]
    refine ⟨by decide, by decide, by omega, ?_⟩
    rw [daysOfMonth, isLeapYear_era]
    split
    · omega
    · next hnone =>
      have hne : d ≠ 365 := fun h => hnone (hleap h)
      omega
  · generalize hm : (5 * d + 2) / 153 = m at *
    have hlength := daysOfMonth_civilMonth (m := m) (by omega) (by omega)
      (y + era * 400 + if civilMonth m ≤ 2 then 1 else 0)
    have hbounds : 1 ≤ civilMonth m ∧ civilMonth m ≤ 12 := by
      unfold civilMonth
      split <;> omega
    obtain ⟨hlow, hhigh⟩ := hbounds
    generalize daysOfMonth _ _ = length at *
    exact ⟨by omega, by omega, by omega, by omega⟩

/-! ## Digits -/

/-- The digits of a number with zeros in front. -/
def paddedDigits (width n : Nat) : List Char :=
  List.replicate (width - (Nat.toDigits 10 n).length) '0' ++ Nat.toDigits 10 n

/-- A padded number is its padded digits. -/
theorem toList_padded (width n : Nat) : (padded width n).toList = paddedDigits width n := by
  rw [padded, paddedDigits, String.toList_append, Nat.toString_eq_ofList_toDigits,
    String.toList_ofList, String.toList_ofList, String.length_ofList]

/-- Padded digits are digits. -/
theorem isDigit_of_mem_paddedDigits {width n : Nat} {c : Char} (h : c ∈ paddedDigits width n) :
    c.isDigit = true := by
  rcases List.mem_append.1 h with h | h
  · rw [List.eq_of_mem_replicate h]
    rfl
  · exact Nat.isDigit_of_mem_toDigits (by decide) (by decide) h

/-- There are as many padded digits as the width, if the number fits. -/
theorem length_paddedDigits {width n : Nat} (hwidth : 0 < width) (h : n < Nat.pow 10 width) :
    (paddedDigits width n).length = width := by
  have hle := (Nat.length_toDigits_le_iff (n := n) (b := 10) (by decide) hwidth).2 h
  rw [paddedDigits, List.length_append, List.length_replicate]
  omega

/-- There are padded digits. -/
theorem paddedDigits_ne_nil (width n : Nat) : paddedDigits width n ≠ [] :=
  List.append_ne_nil_of_right_ne_nil _ Nat.toDigits_ne_nil

/-- The value of padded digits is the number. -/
theorem digitsValue_paddedDigits (width n : Nat) : digitsValue (paddedDigits width n) = n := by
  have hvalue : digitsValue (paddedDigits width n) = Nat.ofDigitChars 10 (paddedDigits width n) 0 :=
    Nat.ofDigitChars_eq_foldl.symm
  rw [hvalue, paddedDigits, Nat.ofDigitChars_append, Nat.ofDigitChars_replicate_zero, Nat.mul_zero,
    Nat.ofDigitChars_ten_toDigits]

/-- A text that does not go on with a digit. -/
def NoDigit (s : List Char) : Prop := ∀ c, s.head? = some c → c.isDigit = false

/-- Digits are taken up to what is none. -/
theorem takeWhile_digits {digits : List Char} (h : ∀ c ∈ digits, c.isDigit = true)
    {rest : List Char} (hrest : NoDigit rest) :
    (digits ++ rest).takeWhile Char.isDigit = digits := by
  rw [List.takeWhile_append_of_pos h]
  cases rest with
  | nil => simp
  | cons c rest =>
      rw [List.takeWhile_cons_of_neg (by rw [hrest c rfl]; exact Bool.false_ne_true),
        List.append_nil]

/-- A number of as many digits as are read at most. -/
theorem readNumber?_width {width n : Nat} (hwidth : 0 < width) (h : n < Nat.pow 10 width)
    (rest : List Char) :
    readNumber? width (paddedDigits width n ++ rest) = some (n, rest) := by
  have hlength := length_paddedDigits hwidth h
  have htake : (paddedDigits width n ++ rest).take width = paddedDigits width n ++ [] := by
    rw [List.append_nil, List.take_left' hlength]
  have hdigits : (paddedDigits width n ++ []).takeWhile Char.isDigit = paddedDigits width n :=
    takeWhile_digits (fun _ => isDigit_of_mem_paddedDigits) nofun
  rw [readNumber?, htake, hdigits, if_neg (by simpa using paddedDigits_ne_nil width n),
    digitsValue_paddedDigits, List.drop_left]

/-- A number in front of something that is no digit. -/
theorem readNumber?_noDigit {width n most : Nat} {rest : List Char} (hrest : NoDigit rest)
    (hmost : (paddedDigits width n ++ rest).length ≤ most) :
    readNumber? most (paddedDigits width n ++ rest) = some (n, rest) := by
  have hdigits : (paddedDigits width n ++ rest).takeWhile Char.isDigit = paddedDigits width n :=
    takeWhile_digits (fun _ => isDigit_of_mem_paddedDigits) hrest
  rw [readNumber?, List.take_of_length_le hmost, hdigits,
    if_neg (by simpa using paddedDigits_ne_nil width n), digitsValue_paddedDigits, List.drop_left]

/-! ## Parts -/

/-- There is no white space in front of digits. -/
theorem skipBlank_digits (width n : Nat) (rest : List Char) :
    skipBlank (paddedDigits width n ++ rest) = paddedDigits width n ++ rest := by
  obtain ⟨c, s, hs⟩ := List.exists_cons_of_ne_nil (paddedDigits_ne_nil width n)
  have hc : c.isDigit = true := isDigit_of_mem_paddedDigits (hs ▸ List.mem_cons_self)
  rw [hs]
  exact trimStart_cons (isBlank_of_isDigit hc) _

/-- Two digits are read back. -/
theorem readTwo?_digits {n : Nat} (h : n < 100) (rest : List Char) :
    readTwo? (paddedDigits 2 n ++ rest) = some (n, rest) := by
  rw [readTwo?, skipBlank_digits]
  exact readNumber?_width (by decide) h rest

/-- A mark is read where it stands. -/
theorem readMark?_cons {mark : Char} (h : isBlank mark = false) (rest : List Char) :
    readMark? mark (mark :: rest) = some rest := by
  rw [readMark?, skipBlank, trimStart_cons h]
  exact after?_eq_some_iff.2 rfl

theorem isBlank_hyphen : isBlank '-' = false := isBlank_of_printed (by decide) (by decide)

theorem isBlank_colon : isBlank ':' = false := isBlank_of_printed (by decide) (by decide)

/-- A year without a sign. -/
theorem readYear?_digits {n : Nat} (h : n < 10000) (rest : List Char) :
    readYear? (paddedDigits 4 n ++ rest) = some ((n : Int), rest) := by
  have hread : readNumber? 4 (paddedDigits 4 n ++ rest) = some (n, rest) :=
    readNumber?_width (by decide) h rest
  have hskip := skipBlank_digits 4 n rest
  obtain ⟨c, s, hs⟩ := List.exists_cons_of_ne_nil (paddedDigits_ne_nil 4 n)
  have hc : c.isDigit = true := isDigit_of_mem_paddedDigits (hs ▸ List.mem_cons_self)
  rw [hs, List.cons_append] at hread hskip ⊢
  rw [readYear?, hskip]
  split
  · next heq =>
    rw [(List.cons.inj heq).1] at hc
    cases hc
  · next heq =>
    rw [(List.cons.inj heq).1] at hc
    cases hc
  · rw [hread]
    rfl

/-- A year is read back from its text. -/
theorem readYear?_yearText (year : Int) {rest : List Char} (hrest : NoDigit rest) :
    readYear? ((yearText year).toList ++ rest) = some (year, rest) := by
  rw [yearText]
  split
  · next hfour =>
    simp only [Bool.and_eq_true, decide_eq_true_eq] at hfour
    have hback : (year.toNat : Int) = year := by omega
    rw [toList_padded, readYear?_digits (by omega), hback]
  · next hsign =>
    simp only [Bool.and_eq_true, decide_eq_true_eq] at hsign
    have hread : readNumber? (paddedDigits 4 year.natAbs ++ rest).length
        (paddedDigits 4 year.natAbs ++ rest) = some (year.natAbs, rest) :=
      readNumber?_noDigit hrest (Nat.le_refl _)
    rw [String.toList_append, toList_padded]
    split
    · next hneg =>
      have hback : -(year.natAbs : Int) = year := by omega
      have hskip : skipBlank ('-' :: (paddedDigits 4 year.natAbs ++ rest))
          = '-' :: (paddedDigits 4 year.natAbs ++ rest) := trimStart_cons isBlank_hyphen _
      show readYear? ('-' :: (paddedDigits 4 year.natAbs ++ rest)) = some (year, rest)
      rw [readYear?, hskip]
      simp only [hread, Option.map_some, hback]
    · next hpos =>
      have hback : (year.natAbs : Int) = year := by omega
      have hskip : skipBlank ('+' :: (paddedDigits 4 year.natAbs ++ rest))
          = '+' :: (paddedDigits 4 year.natAbs ++ rest) :=
        trimStart_cons (isBlank_of_printed (by decide) (by decide)) _
      show readYear? ('+' :: (paddedDigits 4 year.natAbs ++ rest)) = some (year, rest)
      rw [readYear?, hskip]
      simp only [hread, Option.map_some, hback]

/-- A fraction of so many digits is read back. -/
theorem readNanos?_width {width n : Nat} (hwidth : 0 < width) (hmost : width ≤ 9)
    (h : n < Nat.pow 10 width) {rest : List Char} (hrest : NoDigit rest) :
    readNanos? ('.' :: (paddedDigits width n ++ rest))
      = some (n * Nat.pow 10 (9 - width), rest) := by
  have hlength := length_paddedDigits hwidth h
  have hdigits : (paddedDigits width n ++ rest).takeWhile Char.isDigit = paddedDigits width n :=
    takeWhile_digits (fun _ => isDigit_of_mem_paddedDigits) hrest
  rw [readNanos?]
  simp only [hdigits]
  rw [if_neg (by simpa using paddedDigits_ne_nil width n),
    List.take_of_length_le (Nat.le_trans (Nat.le_of_eq hlength) hmost), digitsValue_paddedDigits,
    List.drop_left, hlength]

/-- The nanoseconds are read back, in whatever groups of digits they are written. -/
theorem readNanos?_fractionText {nanos : Nat} (h : nanos < 1000000000) {rest : List Char}
    (hrest : NoDigit rest) (hpoint : rest.head? ≠ some '.') :
    readNanos? ((fractionText nanos).toList ++ rest) = some (nanos, rest) := by
  have hpoint' : ∀ digits : String, ("." ++ digits).toList ++ rest
      = '.' :: (digits.toList ++ rest) := by
    intro digits
    rw [String.toList_append]
    rfl
  rw [fractionText]
  -- no digits when there is nothing, else three, six or nine of them
  split
  · next hzero =>
    rw [eq_of_beq hzero]
    unfold readNanos?
    split
    · next heq =>
      rw [show rest = '.' :: _ from heq] at hpoint
      exact absurd rfl hpoint
    · rfl
  · split
    · -- whole milliseconds, so what the division drops is nothing
      next hmilli =>
      have hpow : Nat.pow 10 (9 - 3) = 1000000 := rfl
      have hback : nanos / 1000000 * 1000000 = nanos := by
        rw [beq_iff_eq] at hmilli
        omega
      have hsize : nanos / 1000000 < Nat.pow 10 3 := by
        have hpow : Nat.pow 10 3 = 1000 := rfl
        omega
      rw [hpoint', toList_padded, readNanos?_width (by decide) (by decide) hsize hrest, hpow, hback]
    · -- whole microseconds
      split
      · next hmicro =>
        have hpow : Nat.pow 10 (9 - 6) = 1000 := rfl
        have hback : nanos / 1000 * 1000 = nanos := by
          rw [beq_iff_eq] at hmicro
          omega
        have hsize : nanos / 1000 < Nat.pow 10 6 := by
          have hpow : Nat.pow 10 6 = 1000000 := rfl
          omega
        rw [hpoint', toList_padded, readNanos?_width (by decide) (by decide) hsize hrest,
          hpow, hback]
      · rw [hpoint', toList_padded, readNanos?_width (by decide) (by decide) h hrest]
        simp

/-! ## Instants -/

/-- The instants that can be written: the year is one of the calendar, and only the last second of a
minute is a leap second. -/
structure Valid (t : Instant) : Prop where
  year : isYear (dateOfDays (t.seconds.fdiv 86400)).1 = true
  nanos : t.nanos < 2000000000
  leap : 1000000000 ≤ t.nanos → t.seconds % 60 = 59

/-- A text whose first character is no digit does not start with one. -/
theorem noDigit_cons {c : Char} (h : c.isDigit = false) (s : List Char) : NoDigit (c :: s) := by
  rintro _ ⟨⟩
  exact h

/-- The text of an instant is its date and its time of day, part by part. -/
theorem toList_text (t : Instant) : t.text.toList =
    (yearText (dateOfDays (t.seconds.fdiv 86400)).1).toList ++ '-' ::
    (paddedDigits 2 (dateOfDays (t.seconds.fdiv 86400)).2.1 ++ '-' ::
    (paddedDigits 2 (dateOfDays (t.seconds.fdiv 86400)).2.2 ++ 'T' ::
    (paddedDigits 2 ((t.seconds - t.seconds.fdiv 86400 * 86400).toNat / 3600) ++ ':' ::
    (paddedDigits 2 ((t.seconds - t.seconds.fdiv 86400 * 86400).toNat / 60 % 60) ++ ':' ::
    (paddedDigits 2 ((t.seconds - t.seconds.fdiv 86400 * 86400).toNat % 60
        + t.nanos / 1000000000) ++
    ((fractionText (t.nanos % 1000000000)).toList ++ ['Z'])))))) := by
  simp [text, toList_padded]

/-- What succeeds goes on with its value. -/
theorem bind_of_eq_some {α β : Type} {x : Option α} {f : α → Option β} {a : α} (h : x = some a) :
    x >>= f = f a := by
  rw [h]
  rfl

/-- The text of an instant is read back. -/
theorem ofText?_text {t : Instant} (h : t.Valid) : ofText? t.text = some t := by
  obtain ⟨hyear, hnanos, hleap⟩ := h
  obtain ⟨hmonth, hmonth', hday, hday'⟩ := dateOfDays_valid (t.seconds.fdiv 86400)
  have hlength : ∀ year month, daysOfMonth year month ≤ 31 := by
    intro year month
    unfold daysOfMonth
    split
    · split <;> decide
    all_goals decide
  have hdate := daysOfDate_dateOfDays (t.seconds.fdiv 86400)
  have hrest : 0 ≤ t.seconds - t.seconds.fdiv 86400 * 86400
      ∧ t.seconds - t.seconds.fdiv 86400 * 86400 < 86400 := by
    rw [Int.fdiv_eq_ediv_of_nonneg _ (by decide)]
    omega
  rw [ofText?, toList_text]
  generalize hdays : t.seconds.fdiv 86400 = days at *
  generalize hd : dateOfDays days = date at *
  obtain ⟨year, month, day⟩ := date
  simp only at hyear hmonth hmonth' hday hday' hdate
  have hday'' := Nat.le_trans hday' (hlength year month)
  -- each field of the text is read back in the order in which it is written
  generalize hn : (t.seconds - days * 86400).toNat = n at *
  have hsecond : n % 60 + t.nanos / 1000000000 < 61 := by
    by_cases hl : 1000000000 ≤ t.nanos <;> omega
  have hfraction : readNanos? ((fractionText (t.nanos % 1000000000)).toList ++ ['Z'])
      = some (t.nanos % 1000000000, ['Z']) :=
    readNanos?_fractionText (by omega) (noDigit_cons rfl []) (by decide)
  have hzone : readZone? ['Z'] = some (0, []) := by
    have hskip : skipBlank ['Z'] = ['Z'] :=
      trimStart_cons (isBlank_of_printed (by decide) (by decide)) []
    rw [readZone?, hskip]
    rfl
  refine (bind_of_eq_some (readYear?_yearText year (noDigit_cons (c := '-') rfl _))).trans ?_
  refine (bind_of_eq_some (readMark?_cons isBlank_hyphen _)).trans ?_
  refine (bind_of_eq_some (readTwo?_digits (n := month) (by omega) _)).trans ?_
  refine (bind_of_eq_some (readMark?_cons isBlank_hyphen _)).trans ?_
  refine (bind_of_eq_some (readTwo?_digits (n := day) (by omega) _)).trans ?_
  refine (bind_of_eq_some rfl).trans ?_
  refine (bind_of_eq_some (readTwo?_digits (n := n / 3600) (by omega) _)).trans ?_
  refine (bind_of_eq_some (readMark?_cons isBlank_colon _)).trans ?_
  refine (bind_of_eq_some (readTwo?_digits (n := n / 60 % 60) (by omega) _)).trans ?_
  refine (bind_of_eq_some (readMark?_cons isBlank_colon _)).trans ?_
  refine (bind_of_eq_some (readTwo?_digits (n := n % 60 + t.nanos / 1000000000) (by omega) _)).trans
    ?_
  refine (bind_of_eq_some hfraction).trans ?_
  refine (bind_of_eq_some hzone).trans ?_
  dsimp only
  -- a leap second is written as second 60, and read back with its nanoseconds over a billion
  have hleapSecond : (if (n % 60 + t.nanos / 1000000000 == 60) = true
      then (59, t.nanos % 1000000000 + 1000000000)
      else (n % 60 + t.nanos / 1000000000, t.nanos % 1000000000)) = (n % 60, t.nanos) := by
    by_cases hl : 1000000000 ≤ t.nanos
    · have hminute := hleap hl
      rw [if_pos (by rw [beq_iff_eq]; omega), Prod.mk.injEq]
      exact ⟨by omega, by omega⟩
    · rw [if_neg (by rw [beq_iff_eq]; omega), Prod.mk.injEq]
      exact ⟨by omega, by omega⟩
  have hseconds : days * 86400 + ((n / 3600 * 3600 + n / 60 % 60 * 60 + n % 60 : Nat) : Int) - 0
      = t.seconds := by omega
  rw [if_neg (by simp [skipBlank, trimStart]), if_neg (by simp; omega), if_neg (by simp; omega),
    hleapSecond, hdate, hseconds, hdays, hd, hyear]
  rfl

/-! ## What is read can be written -/

/-- The value of digits is less than the power of ten for their number. -/
theorem digitsValue_lt {digits : List Char} (h : ∀ c ∈ digits, c.isDigit = true) :
    digitsValue digits < Nat.pow 10 digits.length := by
  have hsum : ∀ sum, digits.foldl (fun n c => 10 * n + (c.toNat - 48)) sum
      < Nat.pow 10 digits.length * (sum + 1) := by
    induction digits with
    | nil => simp
    | cons c digits ih =>
        intro sum
        obtain ⟨hc, hdigits⟩ := List.forall_mem_cons.1 h
        simp only [Char.isDigit, Bool.and_eq_true, decide_eq_true_eq, ge_iff_le,
          UInt32.le_iff_toNat_le] at hc
        have hvalue : c.toNat - 48 ≤ 9 := Nat.sub_le_sub_right hc.2 48
        have hrest := ih hdigits (10 * sum + (c.toNat - 48))
        have hpow : Nat.pow 10 (c :: digits).length = Nat.pow 10 digits.length * 10 :=
          Nat.pow_succ 10 digits.length
        rw [List.foldl_cons, hpow]
        refine Nat.lt_of_lt_of_le hrest ?_
        rw [Nat.mul_assoc]
        exact Nat.mul_le_mul_left _ (by omega)
  have hzero := hsum 0
  rwa [Nat.zero_add, Nat.mul_one] at hzero

/-- A fraction that is read is less than a second. -/
theorem readNanos?_lt {s rest : List Char} {nanos : Nat} (h : readNanos? s = some (nanos, rest)) :
    nanos < 1000000000 := by
  unfold readNanos? at h
  split at h
  · next s =>
    dsimp only at h
    split at h
    · cases h
    · cases h
      have hdigits : ∀ c ∈ (s.takeWhile Char.isDigit).take 9, c.isDigit = true :=
        fun c hc => List.all_eq_true.1 List.all_takeWhile c (List.mem_of_mem_take hc)
      have hvalue := digitsValue_lt hdigits
      have hlength : ((s.takeWhile Char.isDigit).take 9).length ≤ 9 := List.length_take_le _ _
      have hpow : Nat.pow 10 ((s.takeWhile Char.isDigit).take 9).length
          * Nat.pow 10 (9 - ((s.takeWhile Char.isDigit).take 9).length) = 1000000000 := by
        have hadd := Nat.pow_add 10 ((s.takeWhile Char.isDigit).take 9).length
          (9 - ((s.takeWhile Char.isDigit).take 9).length)
        rw [Nat.add_sub_cancel' hlength] at hadd
        exact hadd.symm
      rw [← hpow]
      exact Nat.mul_lt_mul_of_pos_right hvalue (Nat.pow_pos (by decide))
  · cases h
    decide

/-- A zone is away from the zero zone by whole minutes. -/
theorem readShift?_minutes {s rest : List Char} {shift : Int}
    (h : readShift? s = some (shift, rest)) : shift % 60 = 0 := by
  unfold readShift? at h
  split at h
  · dsimp only at h
    split at h
    · cases h
    · split at h
      · split at h
        · cases h
        · cases h
          omega
      · cases h
  · cases h

/-- A zone that is read is a number of minutes. -/
theorem readZone?_minutes {s rest : List Char} {shift : Int}
    (h : readZone? s = some (shift, rest)) : shift % 60 = 0 := by
  unfold readZone? at h
  split at h
  · cases h
    rfl
  · cases h
    rfl
  · exact readShift?_minutes h
  · split at h
    · obtain ⟨⟨n, s⟩, hread, heq⟩ := Option.map_eq_some_iff.1 h
      cases heq
      have hminutes := readShift?_minutes hread
      omega
    · split at h
      · cases h
        rfl
      · cases h
  · cases h

/-- What is read as an instant can be written. -/
theorem valid_of_ofText? {s : String} {t : Instant} (h : ofText? s = some t) : t.Valid := by
  unfold ofText? at h
  obtain ⟨⟨year, s₁⟩, -, h⟩ := Option.bind_eq_some_iff.1 h
  obtain ⟨s₂, -, h⟩ := Option.bind_eq_some_iff.1 h
  obtain ⟨⟨month, s₃⟩, -, h⟩ := Option.bind_eq_some_iff.1 h
  obtain ⟨s₄, -, h⟩ := Option.bind_eq_some_iff.1 h
  obtain ⟨⟨day, s₅⟩, -, h⟩ := Option.bind_eq_some_iff.1 h
  obtain ⟨s₆, -, h⟩ := Option.bind_eq_some_iff.1 h
  obtain ⟨⟨hour, s₇⟩, -, h⟩ := Option.bind_eq_some_iff.1 h
  obtain ⟨s₈, -, h⟩ := Option.bind_eq_some_iff.1 h
  obtain ⟨⟨minute, s₉⟩, -, h⟩ := Option.bind_eq_some_iff.1 h
  obtain ⟨s₁₀, -, h⟩ := Option.bind_eq_some_iff.1 h
  obtain ⟨⟨second, s₁₁⟩, -, h⟩ := Option.bind_eq_some_iff.1 h
  obtain ⟨⟨nanos, s₁₂⟩, hnanos, h⟩ := Option.bind_eq_some_iff.1 h
  obtain ⟨⟨shift, s₁₃⟩, hshift, h⟩ := Option.bind_eq_some_iff.1 h
  dsimp only at h
  have hfraction := readNanos?_lt hnanos
  have hminutes := readZone?_minutes hshift
  split at h
  · cases h
  · split at h
    · cases h
    · split at h
      · cases h
      · -- second 60 is the only one that adds a billion nanoseconds, and it follows the 59th
        have hleap : ∀ pair : Nat × Nat, pair = (if (second == 60) = true
            then (59, nanos + 1000000000) else (second, nanos)) →
            pair.2 < 2000000000 ∧ (1000000000 ≤ pair.2 → pair.1 = 59) := by
          rintro pair rfl
          split
          · exact ⟨by dsimp only; omega, fun _ => rfl⟩
          · exact ⟨by dsimp only; omega, by dsimp only; omega⟩
        obtain ⟨hnanos, hlast⟩ := hleap _ rfl
        generalize (if (second == 60) = true then (59, nanos + 1000000000) else (second, nanos))
          = pair at h hnanos hlast
        obtain ⟨second, nanos⟩ := pair
        dsimp only at h hnanos hlast
        split at h
        · next hyear =>
          cases h
          refine ⟨(Bool.and_eq_true_iff.1 hyear).2, hnanos, ?_⟩
          intro hl
          have hsecond := hlast hl
          dsimp only
          omega
        · cases h

end CodeAtlas.Instant
