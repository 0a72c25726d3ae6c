/-!
# Byte offsets in a text

A text that is scanned is a list of characters, and a position in it is the number of bytes in
front of it in UTF-8. `dropBytes?` finds the text at a position, `slice` the text between two.
-/

namespace CodeAtlas.Text

/-- The number of bytes the characters take in UTF-8. -/
def byteLength (text : List Char) : Nat := text.foldl (fun n c => n + c.utf8Size) 0

/-- No characters have no bytes. -/
@[simp] theorem byteLength_nil : byteLength [] = 0 := rfl

/-- A sum of bytes that starts with some is these and the bytes of the text. -/
private theorem foldl_utf8Size (text : List Char) (n : Nat) :
    text.foldl (fun n c => n + c.utf8Size) n = n + byteLength text := by
  induction text generalizing n with
  | nil => rfl
  | cons c text ih =>
      rw [byteLength, List.foldl_cons, List.foldl_cons, ih, ih]
      omega

/-- A character in front adds its bytes. -/
@[simp] theorem byteLength_cons (c : Char) (rest : List Char) :
    byteLength (c :: rest) = c.utf8Size + byteLength rest := by
  rw [byteLength, List.foldl_cons, foldl_utf8Size]
  omega

/-- The bytes of two texts are added. -/
@[simp] theorem byteLength_append (a b : List Char) :
    byteLength (a ++ b) = byteLength a + byteLength b := by
  induction a with
  | nil => simp
  | cons c a ih => simp [ih, Nat.add_assoc]

/-- The text from byte `n` on, or `none` if `n` is past the end or inside a character. -/
def dropBytes? : Nat → List Char → Option (List Char)
  | 0, text => some text
  | _ + 1, [] => none
  | n + 1, c :: rest =>
      if c.utf8Size ≤ n + 1 then dropBytes? (n + 1 - c.utf8Size) rest else none

/-- The longest beginning of the text of at most `n` bytes. -/
def takeBytes (n : Nat) (text : List Char) : List Char := go n [] text
where
  /-- Adds the characters that fit to `taken`, which is in reverse. -/
  go (n : Nat) (taken : List Char) : List Char → List Char
    | [] => taken.reverse
    | c :: rest => if c.utf8Size ≤ n then go (n - c.utf8Size) (c :: taken) rest else taken.reverse

/-- What has been taken stands in front of what is still to be taken. -/
private theorem takeBytes_go (n : Nat) (taken text : List Char) :
    takeBytes.go n taken text = taken.reverse ++ takeBytes n text := by
  induction text generalizing n taken with
  | nil => simp [takeBytes, takeBytes.go]
  | cons c text ih =>
      simp only [takeBytes, takeBytes.go]
      split
      · rw [ih, ih _ [c]]
        simp
      · simp

/-- Nothing can be taken from an empty text. -/
@[simp] theorem takeBytes_nil (n : Nat) : takeBytes n [] = [] := rfl

/-- The first character is taken if there is room for it. -/
theorem takeBytes_cons (n : Nat) (c : Char) (rest : List Char) :
    takeBytes n (c :: rest) =
      if c.utf8Size ≤ n then c :: takeBytes (n - c.utf8Size) rest else [] := by
  rw [takeBytes, takeBytes.go]
  split
  · rw [takeBytes_go]
    rfl
  · rfl

/-- Behind the bytes of the first text stands the second. -/
theorem dropBytes?_byteLength_append (a b : List Char) :
    dropBytes? (byteLength a) (a ++ b) = some b := by
  induction a with
  | nil => cases b <;> rfl
  | cons c a ih =>
      have hc : 0 < c.utf8Size := Char.utf8Size_pos c
      obtain ⟨n, hn⟩ : ∃ n, c.utf8Size + byteLength a = n + 1 :=
        ⟨_, (Nat.succ_pred_eq_of_pos (by omega)).symm⟩
      rw [byteLength_cons, hn, List.cons_append, dropBytes?, if_pos (by omega)]
      rw [show n + 1 - c.utf8Size = byteLength a by omega, ih]

/-- The bytes of the first text are the first text. -/
theorem takeBytes_byteLength_append (a b : List Char) :
    takeBytes (byteLength a) (a ++ b) = a := by
  induction a with
  | nil =>
      cases b with
      | nil => rfl
      | cons c b => simp [takeBytes_cons, Nat.not_le.2 (Char.utf8Size_pos c)]
  | cons c a ih => simp [takeBytes_cons, ih]

/-- The text from byte `start` up to byte `stop`; empty if `start` is no position of the text. -/
def slice (text : List Char) (start stop : Nat) : List Char :=
  takeBytes (stop - start) ((dropBytes? start text).getD [])

/-- The part between two places is what stands there. -/
theorem slice_append (a b c : List Char) :
    slice (a ++ (b ++ c)) (byteLength a) (byteLength a + byteLength b) = b := by
  rw [slice, dropBytes?_byteLength_append, Option.getD_some, Nat.add_sub_cancel_left,
    takeBytes_byteLength_append]

/-- The text behind a character of one byte. -/
theorem slice_append_cons {c : Char} (hc : c.utf8Size = 1) (a b rest : List Char) :
    slice (a ++ c :: (b ++ rest)) (byteLength a + 1) (byteLength a + 1 + byteLength b) = b := by
  have h := slice_append (a ++ [c]) b rest
  rwa [byteLength_append, byteLength_cons, hc, byteLength_nil, List.append_assoc,
    List.singleton_append] at h

end CodeAtlas.Text
