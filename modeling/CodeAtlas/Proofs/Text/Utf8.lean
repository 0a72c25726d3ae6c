import CodeAtlas.Text.Utf8

/-!
# Reading the bytes of a text

The bytes of a text are read as its characters. For each number of bytes the first of them demands
what follows it, and the bytes that follow give the code point six bits at a time.
-/

namespace CodeAtlas.Text

/-! ## One character -/

/-- A character without more bytes is that of its first one. -/
theorem continueChar_zero (bits low high : Nat) (bytes : List UInt8) :
    continueChar 0 bits low high bytes = (some bits, bytes) := by
  cases bytes <;> rfl

/-- A byte that fits gives six bits more. -/
theorem continueChar_succ {more bits low high x : Nat} (hlow : low ≤ x) (hhigh : x ≤ high)
    (hx : x < 256) (bytes : List UInt8) :
    continueChar (more + 1) bits low high (UInt8.ofNat x :: bytes)
      = continueChar more (bits * 64 + (x - 0x80)) 0x80 0xBF bytes := by
  have hbyte : (UInt8.ofNat x).toNat = x := by
    rw [UInt8.toNat_ofNat']
    exact Nat.mod_eq_of_lt hx
  rw [continueChar, if_neg (Nat.succ_ne_zero more), hbyte, if_pos (by simp [hlow, hhigh])]
  rfl

/-- The first byte of a character of one byte. -/
theorem lead?_one {v : Nat} (h : v ≤ 0x7F) : lead? v = some ⟨0, v, 0x80, 0xBF⟩ := by
  rw [lead?, if_pos (by omega)]

/-- The first byte of a character of two bytes. -/
theorem lead?_two {n : Nat} (h : 2 ≤ n) (h' : n < 32) :
    lead? (n + 0xC0) = some ⟨1, n, 0x80, 0xBF⟩ := by
  rw [lead?, if_neg (by omega), if_neg (by omega), if_pos (by omega), Nat.add_sub_cancel]

/-- What the first of three bytes demands fits the second one. -/
theorem lead?_three {n m : Nat} (hn : n < 16) (hm : m < 64)
    (hsmall : 0x800 ≤ n * 4096 + m * 64 + 63)
    (hsurrogate : n * 64 + m < 0x360 ∨ 0x380 ≤ n * 64 + m) : ∃ low high,
    lead? (n + 0xE0) = some ⟨2, n, low, high⟩ ∧ low ≤ m + 0x80 ∧ m + 0x80 ≤ high := by
  by_cases hfirst : n = 0
  · subst hfirst
    exact ⟨0xA0, 0xBF, rfl, by omega, by omega⟩
  · by_cases hlast : n = 0xD
    · subst hlast
      exact ⟨0x80, 0x9F, rfl, by omega, by omega⟩
    · refine ⟨0x80, 0xBF, ?_, by omega, by omega⟩
      rw [lead?, if_neg (by omega), if_neg (by omega), if_neg (by omega),
        if_neg (by simpa using hfirst), if_neg (by rw [beq_iff_eq]; omega), if_pos (by omega),
        Nat.add_sub_cancel]

/-- What the first of four bytes demands fits the second one. -/
theorem lead?_four {n m : Nat} (hn : n < 5) (hm : m < 64) (hsmall : 0x10 ≤ n * 64 + m)
    (hlarge : n * 64 + m < 0x110) : ∃ low high,
    lead? (n + 0xF0) = some ⟨3, n, low, high⟩ ∧ low ≤ m + 0x80 ∧ m + 0x80 ≤ high := by
  by_cases hfirst : n = 0
  · subst hfirst
    exact ⟨0x90, 0xBF, rfl, by omega, by omega⟩
  · by_cases hlast : n = 4
    · subst hlast
      exact ⟨0x80, 0x8F, rfl, by omega, by omega⟩
    · refine ⟨0x80, 0xBF, ?_, by omega, by omega⟩
      rw [lead?, if_neg (by omega), if_neg (by omega), if_neg (by omega),
        if_neg (by rw [beq_iff_eq]; omega), if_neg (by rw [beq_iff_eq]; omega), if_neg (by omega),
        if_neg (by simpa using hfirst), if_pos (by omega), Nat.add_sub_cancel]

/-- A character is read from its first byte and those that continue it. -/
theorem decodeChar_of_lead {x : Nat} (hx : x < 256) {l : Lead} (hl : lead? x = some l) {v : Nat}
    {bytes rest : List UInt8} (h : continueChar l.more l.bits l.low l.high bytes = (some v, rest)) :
    decodeChar (UInt8.ofNat x) bytes = (some (Char.ofNat v), rest) := by
  have hbyte : (UInt8.ofNat x).toNat = x := by
    rw [UInt8.toNat_ofNat']
    exact Nat.mod_eq_of_lt hx
  rw [decodeChar, hbyte, hl]
  simp only [h]
  rfl

/-- A character of two bytes is read back. -/
theorem decodeChar_two {v : Nat} (h : 0x7F < v) (h' : v ≤ 0x7FF) (rest : List UInt8) :
    decodeChar (UInt8.ofNat (v / 64 % 0x20 + 0xC0)) (UInt8.ofNat (v % 0x40 + 0x80) :: rest)
      = (some (Char.ofNat v), rest) := by
  have hvalue : v / 64 % 0x20 * 64 + (v % 0x40 + 0x80 - 0x80) = v := by omega
  refine decodeChar_of_lead (by omega) (lead?_two (by omega) (by omega)) ?_
  dsimp only
  rw [continueChar_succ (by omega) (by omega) (by omega), continueChar_zero, hvalue]

/-- A character of three bytes is read back, if it is no surrogate. -/
theorem decodeChar_three {v : Nat} (h : 0x7FF < v) (h' : v ≤ 0xFFFF)
    (hsurrogate : v < 0xD800 ∨ 0xDFFF < v) (rest : List UInt8) :
    decodeChar (UInt8.ofNat (v / 4096 % 0x10 + 0xE0))
        (UInt8.ofNat (v / 64 % 0x40 + 0x80) :: UInt8.ofNat (v % 0x40 + 0x80) :: rest)
      = (some (Char.ofNat v), rest) := by
  obtain ⟨low, high, hlead, hlow, hhigh⟩ :=
    lead?_three (n := v / 4096 % 0x10) (m := v / 64 % 0x40) (by omega) (by omega) (by omega)
      (by omega)
  have hvalue : (v / 4096 % 0x10 * 64 + (v / 64 % 0x40 + 0x80 - 0x80)) * 64
      + (v % 0x40 + 0x80 - 0x80) = v := by omega
  refine decodeChar_of_lead (by omega) hlead ?_
  dsimp only
  rw [continueChar_succ hlow hhigh (by omega), continueChar_succ (by omega) (by omega) (by omega),
    continueChar_zero, hvalue]

/-- A character of four bytes is read back. -/
theorem decodeChar_four {v : Nat} (h : 0xFFFF < v) (h' : v < 0x110000) (rest : List UInt8) :
    decodeChar (UInt8.ofNat (v / 262144 % 0x08 + 0xF0))
        (UInt8.ofNat (v / 4096 % 0x40 + 0x80) :: UInt8.ofNat (v / 64 % 0x40 + 0x80)
          :: UInt8.ofNat (v % 0x40 + 0x80) :: rest)
      = (some (Char.ofNat v), rest) := by
  obtain ⟨low, high, hlead, hlow, hhigh⟩ :=
    lead?_four (n := v / 262144 % 0x08) (m := v / 4096 % 0x40) (by omega) (by omega) (by omega)
      (by omega)
  have hvalue : ((v / 262144 % 0x08 * 64 + (v / 4096 % 0x40 + 0x80 - 0x80)) * 64
      + (v / 64 % 0x40 + 0x80 - 0x80)) * 64 + (v % 0x40 + 0x80 - 0x80) = v := by omega
  refine decodeChar_of_lead (by omega) hlead ?_
  dsimp only
  rw [continueChar_succ hlow hhigh (by omega), continueChar_succ (by omega) (by omega) (by omega),
    continueChar_succ (by omega) (by omega) (by omega), continueChar_zero, hvalue]

/-- The bytes of a character are read as the character, whatever comes behind them. -/
theorem exists_decodeChar (c : Char) : ∃ b bytes, encodeChar c = b :: bytes
    ∧ ∀ rest, decodeChar b (bytes ++ rest) = (some c, rest) := by
  have hvalid : c.toNat < 0xD800 ∨ 0xDFFF < c.toNat ∧ c.toNat < 0x110000 := c.valid
  have hback : Char.ofNat c.toNat = c := Char.ofNat_toNat c
  have hval : c.val.toNat = c.toNat := rfl
  rw [encodeChar, String.utf8EncodeChar]
  simp only [hval]
  generalize c.toNat = v at hvalid hback
  subst hback
  by_cases h1 : v ≤ 0x7F
  · rw [if_pos h1]
    refine ⟨_, _, rfl, ?_⟩
    intro rest
    exact decodeChar_of_lead (by omega) (lead?_one h1) (continueChar_zero v 0x80 0xBF rest)
  · rw [if_neg h1]
    by_cases h2 : v ≤ 0x7FF
    · rw [if_pos h2]
      exact ⟨_, _, rfl, decodeChar_two (by omega) h2⟩
    · rw [if_neg h2]
      by_cases h3 : v ≤ 0xFFFF
      · rw [if_pos h3]
        exact ⟨_, _, rfl, decodeChar_three (by omega) h3 (by omega)⟩
      · rw [if_neg h3]
        exact ⟨_, _, rfl, decodeChar_four (by omega) (by omega)⟩

/-! ## Texts -/

/-- The bytes of a text are read back, behind what has been read before. -/
theorem decodeOnto_encode (read : List (Option Char)) (text : List Char) :
    decodeOnto read (encode text) = read.reverse ++ text.map some := by
  induction text generalizing read with
  | nil =>
      rw [encode, List.flatMap_nil, decodeOnto, List.map_nil, List.append_nil]
  | cons c text ih =>
      obtain ⟨b, bytes, hbytes, hchar⟩ := exists_decodeChar c
      have hencode : encode (c :: text) = b :: (bytes ++ encode text) := by
        rw [encode, List.flatMap_cons, hbytes]
        rfl
      rw [hencode, decodeOnto, hchar, ih, List.reverse_cons, List.append_assoc]
      rfl

/-- The bytes of a text are read as the text. -/
theorem decodeEach_encode (text : List Char) : decodeEach (encode text) = text.map some :=
  decodeOnto_encode [] text

end CodeAtlas.Text
