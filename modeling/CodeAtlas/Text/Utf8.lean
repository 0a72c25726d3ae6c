/-!
# Bytes and characters

A text is written in bytes by UTF-8. `decode` reads any bytes: where they are no characters, each
longest beginning of a character that is broken off becomes one replacement character. `decode?`
reads only bytes that are characters throughout. Both look at what `decodeEach` finds.
-/

namespace CodeAtlas.Text

/-- The bytes of a character. -/
def encodeChar (c : Char) : List UInt8 := String.utf8EncodeChar c

/-- The bytes of a text. -/
def encode (text : List Char) : List UInt8 := text.flatMap encodeChar

/-- What a first byte demands: how many bytes follow it, the bits it gives, and the bounds of the
byte behind it. -/
structure Lead where
  more : Nat
  bits : Nat
  low : Nat
  high : Nat

/-- What the byte `b` demands as the first of a character. -/
def lead? (b : Nat) : Option Lead :=
  if b < 0x80 then some ⟨0, b, 0x80, 0xBF⟩
  else if b < 0xC2 then none
  else if b < 0xE0 then some ⟨1, b - 0xC0, 0x80, 0xBF⟩
  else if b == 0xE0 then some ⟨2, 0, 0xA0, 0xBF⟩
  else if b == 0xED then some ⟨2, 0xD, 0x80, 0x9F⟩
  else if b < 0xF0 then some ⟨2, b - 0xE0, 0x80, 0xBF⟩
  else if b == 0xF0 then some ⟨3, 0, 0x90, 0xBF⟩
  else if b < 0xF4 then some ⟨3, b - 0xF0, 0x80, 0xBF⟩
  else if b == 0xF4 then some ⟨3, 4, 0x80, 0x8F⟩
  else none

/-- Reads `more` bytes behind a first one, the next of which is between `low` and `high`: the code
point, or `none` where a byte does not fit or is missing, and the bytes behind. -/
def continueChar (more bits low high : Nat) : List UInt8 → Option Nat × List UInt8
  | [] => if more = 0 then (some bits, []) else (none, [])
  | b :: bytes =>
      if more = 0 then (some bits, b :: bytes)
      else if low ≤ b.toNat && b.toNat ≤ high then
        continueChar (more - 1) (bits * 64 + (b.toNat - 0x80)) 0x80 0xBF bytes
      else (none, b :: bytes)

theorem length_continueChar (more bits low high : Nat) (bytes : List UInt8) :
    (continueChar more bits low high bytes).2.length ≤ bytes.length := by
  induction bytes generalizing more bits low high with
  | nil => unfold continueChar; split <;> simp
  | cons b bytes ih =>
      unfold continueChar
      split
      · simp
      · split
        · have := ih (more - 1) (bits * 64 + (b.toNat - 0x80)) 0x80 0xBF
          simp
          omega
        · simp

/-- The character that stands for bytes that are none. -/
def replacement : Char := Char.ofNat 0xFFFD

/-- Reads the first character: `none` if the bytes are broken there, and the bytes behind. -/
def decodeChar (b : UInt8) (bytes : List UInt8) : Option Char × List UInt8 :=
  match lead? b.toNat with
  | none => (none, bytes)
  | some l =>
      let (code?, rest) := continueChar l.more l.bits l.low l.high bytes
      (code?.map Char.ofNat, rest)

theorem length_decodeChar (b : UInt8) (bytes : List UInt8) :
    (decodeChar b bytes).2.length ≤ bytes.length := by
  unfold decodeChar
  split
  · simp
  · exact length_continueChar ..

/-- Reads bytes onto the characters `read`, which are in reverse. -/
def decodeOnto (read : List (Option Char)) : List UInt8 → List (Option Char)
  | [] => read.reverse
  | b :: bytes =>
      have := length_decodeChar b bytes
      decodeOnto ((decodeChar b bytes).1 :: read) (decodeChar b bytes).2
termination_by bytes => bytes.length

/-- The characters that the bytes write, and `none` where they write none. -/
def decodeEach (bytes : List UInt8) : List (Option Char) := decodeOnto [] bytes

/-- The characters that the bytes write, with replacements where they write none. -/
def decode (bytes : List UInt8) : List Char := (decodeEach bytes).map (·.getD replacement)

/-- The characters that the bytes write, if they write characters throughout. -/
def decode? (bytes : List UInt8) : Option (List Char) := (decodeEach bytes).mapM id

end CodeAtlas.Text
