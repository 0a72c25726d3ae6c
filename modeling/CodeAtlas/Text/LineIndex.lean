import CodeAtlas.Text.Basic

/-!
# Line numbers

The line of a byte offset is one more than the number of newlines in front of it. `lineAt` counts
them, `LineIndex.lineOf` finds their number in a table that is made once for a text.
-/

namespace CodeAtlas.Text

/-- The line, counted from 1, on which byte `offset` stands. -/
def lineAt (text : List Char) (offset : Nat) : Nat :=
  (takeBytes offset text).count '\n' + 1

/-- The offsets of the newlines in a text that starts at `offset`, behind those in `found`. -/
def newlinesFrom (offset : Nat) (found : Array Nat) : List Char → Array Nat
  | [] => found
  | c :: text =>
      newlinesFrom (offset + c.utf8Size) (if c = '\n' then found.push offset else found) text

/-- What has been found stands in front of what is still to be found. -/
theorem newlinesFrom_toList (offset : Nat) (found : Array Nat) (text : List Char) :
    (newlinesFrom offset found text).toList
      = found.toList ++ (newlinesFrom offset #[] text).toList := by
  induction text generalizing offset found with
  | nil => simp [newlinesFrom]
  | cons c text ih =>
      rw [newlinesFrom, ih, newlinesFrom,
        ih (offset + c.utf8Size) (if c = '\n' then #[].push offset else #[])]
      split <;> simp

/-- The newlines behind the first character, and that character if it is one. -/
theorem newlinesFrom_cons (offset : Nat) (c : Char) (text : List Char) :
    (newlinesFrom offset #[] (c :: text)).toList =
      (if c = '\n' then [offset] else [])
        ++ (newlinesFrom (offset + c.utf8Size) #[] text).toList := by
  rw [newlinesFrom, newlinesFrom_toList]
  split <;> rfl

/-- No newline is found in front of the place where the search starts. -/
theorem le_of_mem_newlinesFrom {offset n : Nat} {text : List Char}
    (h : n ∈ (newlinesFrom offset #[] text).toList) : offset ≤ n := by
  induction text generalizing offset with
  | nil => cases h
  | cons c text ih =>
      rw [newlinesFrom_cons, List.mem_append] at h
      rcases h with h | h
      · split at h
        · exact Nat.le_of_eq (List.mem_singleton.1 h).symm
        · cases h
      · exact Nat.le_trans (Nat.le_add_right _ _) (ih h)

/-- The newlines are found in ascending order. -/
theorem pairwise_newlinesFrom (offset : Nat) (text : List Char) :
    (newlinesFrom offset #[] text).toList.Pairwise (· < ·) := by
  induction text generalizing offset with
  | nil => exact .nil
  | cons c text ih =>
      rw [newlinesFrom_cons]
      split
      · refine .cons (fun n hn => ?_) (ih _)
        have hle := le_of_mem_newlinesFrom hn
        have hc := Char.utf8Size_pos c
        omega
      · exact ih _

/-- The newlines in front of an offset are those of the text up to there. -/
theorem countP_newlinesFrom (offset n : Nat) (text : List Char) :
    (newlinesFrom offset #[] text).toList.countP (· < offset + n)
      = (takeBytes n text).count '\n' := by
  induction text generalizing offset n with
  | nil => rfl
  | cons c text ih =>
      rw [newlinesFrom_cons, takeBytes_cons, List.countP_append]
      by_cases hc : c.utf8Size ≤ n
      · have hrest := ih (offset + c.utf8Size) (n - c.utf8Size)
        rw [show offset + c.utf8Size + (n - c.utf8Size) = offset + n by omega] at hrest
        rw [if_pos hc, hrest, List.count_cons, Nat.add_comm]
        by_cases hnewline : c = '\n'
        · have hsize := Char.utf8Size_pos c
          have hlt : offset < offset + n := by omega
          simp [hnewline, hlt]
        · simp [hnewline]
      · rw [if_neg hc, List.count_nil]
        have hnone : ∀ m ∈ (newlinesFrom (offset + c.utf8Size) #[] text).toList,
            ¬ m < offset + n := by
          intro m hm
          have hle := le_of_mem_newlinesFrom hm
          omega
        have hrest : (newlinesFrom (offset + c.utf8Size) #[] text).toList.countP (· < offset + n)
            = 0 :=
          List.countP_eq_zero.2 fun m hm => by simpa using hnone m hm
        rw [hrest]
        split
        · next hnewline =>
          have hsize : c.utf8Size = 1 := by rw [hnewline]; rfl
          obtain rfl : n = 0 := by omega
          simp
        · rfl

/-- The offsets of the newlines of a text, in order. -/
structure LineIndex where
  newlines : Array Nat

namespace LineIndex

/-- The line index of a text. -/
def ofText (text : List Char) : LineIndex := ⟨newlinesFrom 0 #[] text⟩

/-- The number of offsets in front of `offset`, which is between `lo` and `hi`. -/
def countBelow (sorted : Array Nat) (offset lo hi : Nat) : Nat :=
  if lo < hi then
    let mid := (lo + hi) / 2
    if sorted.getD mid 0 < offset then countBelow sorted offset (mid + 1) hi
    else countBelow sorted offset lo mid
  else lo
termination_by hi - lo

/-- In a sorted array no entry up to a place is larger than the entry there, and none from there on
is smaller. -/
theorem getD_of_sorted {sorted : Array Nat} (h : sorted.toList.Pairwise (· < ·)) {i : Nat}
    (hi : i < sorted.size) : (∀ n ∈ sorted.toList.take (i + 1), n ≤ sorted.getD i 0) ∧
      ∀ n ∈ sorted.toList.drop i, sorted.getD i 0 ≤ n := by
  have hlength : i < sorted.toList.length := hi
  have hget : sorted.getD i 0 = sorted.toList[i] := by simp [Array.getD, hi]
  have hsplit : sorted.toList.take i ++ sorted.toList[i] :: sorted.toList.drop (i + 1)
      = sorted.toList := by
    rw [← List.drop_eq_getElem_cons hlength, List.take_append_drop]
  rw [← hsplit, List.pairwise_append, List.pairwise_cons] at h
  obtain ⟨-, ⟨habove, -⟩, hbelow⟩ := h
  rw [hget]
  constructor
  · intro n hn
    rw [List.take_succ_eq_append_getElem hlength, List.mem_append, List.mem_singleton] at hn
    rcases hn with hn | rfl
    · exact Nat.le_of_lt (hbelow n hn _ List.mem_cons_self)
    · exact Nat.le_refl _
  · intro n hn
    rw [List.drop_eq_getElem_cons hlength, List.mem_cons] at hn
    rcases hn with rfl | hn
    · exact Nat.le_refl _
    · exact Nat.le_of_lt (habove n hn)

/-- The offsets in front of `lo` are smaller and those from `hi` on are not, so the search ends at
their number. -/
theorem countBelow_eq {sorted : Array Nat} (h : sorted.toList.Pairwise (· < ·)) {offset lo hi : Nat}
    (hle : lo ≤ hi) (hhi : hi ≤ sorted.size) (hbelow : ∀ n ∈ sorted.toList.take lo, n < offset)
    (habove : ∀ n ∈ sorted.toList.drop hi, offset ≤ n) :
    countBelow sorted offset lo hi = sorted.toList.countP (· < offset) := by
  fun_induction countBelow sorted offset lo hi with
  | case1 lo hi hlt mid hmid ih =>
      refine ih (by omega) hhi (fun n hn => ?_) habove
      exact Nat.lt_of_le_of_lt ((getD_of_sorted h (by omega)).1 n hn) hmid
  | case2 lo hi hlt mid hmid ih =>
      refine ih (by omega) (by omega) hbelow fun n hn => ?_
      exact Nat.le_trans (Nat.le_of_not_lt hmid) ((getD_of_sorted h (by omega)).2 n hn)
  | case3 lo hi hlt =>
      obtain rfl : hi = lo := by omega
      have hfront : (sorted.toList.take hi).countP (· < offset) = hi := by
        rw [List.countP_eq_length.2 fun n hn => decide_eq_true (hbelow n hn), List.length_take,
          Array.length_toList, Nat.min_eq_left hhi]
      have hback : (sorted.toList.drop hi).countP (· < offset) = 0 :=
        List.countP_eq_zero.2 fun n hn hlt => Nat.not_lt.2 (habove n hn) (of_decide_eq_true hlt)
      rw [← List.take_append_drop hi sorted.toList, List.countP_append, hfront, hback, Nat.add_zero]

/-- The line, counted from 1, on which byte `offset` stands. -/
def lineOf (index : LineIndex) (offset : Nat) : Nat :=
  countBelow index.newlines offset 0 index.newlines.size + 1

/-- The table gives the lines that counting gives. -/
theorem lineOf_ofText (text : List Char) (offset : Nat) :
    (ofText text).lineOf offset = lineAt text offset := by
  have hsorted := pairwise_newlinesFrom 0 text
  have hcount := countP_newlinesFrom 0 offset text
  rw [Nat.zero_add] at hcount
  rw [lineOf, lineAt, ofText, countBelow_eq hsorted (Nat.zero_le _) (Nat.le_refl _) nofun ?_,
    hcount]
  rw [← Array.length_toList, List.drop_length]
  nofun

end LineIndex

end CodeAtlas.Text
