import CodeAtlas.Text.Basic

/-!
# Tokens of a scanned text

Brackets inside string literals and comments do not count, so a text is cut into tokens before
its brackets are looked at: comments and literals are one token each, every other character is a
token of its own. `Lexis` says which comments and literals a language has, `Lexis.token?` takes
the first token off a text.
-/

namespace CodeAtlas

/-- What starts and what ends a comment. -/
structure Delimiters where
  lead : List Char
  tail : List Char
  tail_ne_nil : tail ≠ [] := by simp

/-- The lexical conventions that a scan needs. -/
structure Lexis where
  /-- The characters that open and close a string literal. -/
  quotes : List Char
  /-- What starts a comment that ends with its line. -/
  lineComments : List (List Char)
  /-- What starts and what ends a comment of any length. -/
  blockComment? : Option Delimiters

namespace Lexis

/-- Comments between a slash with a star and a star with a slash. -/
def starred : Delimiters := { lead := ['/', '*'], tail := ['*', '/'] }

/-- Slashes for comments and three kinds of quotes. -/
def slashed : Lexis := ⟨['"', '\'', Char.ofNat 96], [['/', '/']], some starred⟩

/-- Slashes for comments; a single quote opens no literal. -/
def rust : Lexis := ⟨['"'], [['/', '/']], some starred⟩

/-- A hash sign for comments. -/
def hash : Lexis := ⟨['"', '\''], [['#']], none⟩

/-- A hash sign or slashes for comments; only the double quote opens a literal. -/
def hcl : Lexis := ⟨['"'], [['#'], ['/', '/']], some starred⟩

/-- Two hyphens for comments. -/
def lua : Lexis := ⟨['"', '\''], [['-', '-']], none⟩

/-- No comments, and only the double quote. -/
def json : Lexis := ⟨['"'], [], none⟩

/-- Slashes or a hash sign for comments. -/
def php : Lexis := ⟨['"', '\''], [['/', '/'], ['#']], some starred⟩

end Lexis

namespace Text

/-- A token; comments and literals are given by their size in bytes. -/
inductive Token where
  | lineComment (size : Nat)
  | blockComment (size : Nat)
  | literal (size : Nat)
  | char (c : Char)
  deriving DecidableEq, Repr

/-- The bytes that a token takes. -/
def Token.size : Token → Nat
  | lineComment n | blockComment n | literal n => n
  | char c => c.utf8Size

/-- Whether a literal with this quote may go on behind the end of its line. -/
def spansLines (quote : Char) : Bool := quote == Char.ofNat 96 || quote == '"'

/-- Finds the end of a string literal, in the text behind its first quote: the number of bytes in
front of the end, added to `size`, and the text behind it. A backslash takes the next character
with it. A literal that may not span lines ends in front of the end of its line. -/
def literalEnd? (quote : Char) (size : Nat) : List Char → Option (Nat × List Char)
  | [] => none
  | ['\\'] => none
  | '\\' :: c :: text => literalEnd? quote (size + 1 + c.utf8Size) text
  | c :: text =>
      if c = quote then some (size + c.utf8Size, text)
      else if c = '\n' && !spansLines quote then some (size, c :: text)
      else literalEnd? quote (size + c.utf8Size) text

theorem length_le_of_literalEnd? {quote : Char} {size n : Nat} {text rest : List Char}
    (h : literalEnd? quote size text = some (n, rest)) : rest.length ≤ text.length := by
  fun_induction literalEnd? quote size text with
  | case1 => simp at h
  | case2 => simp at h
  | case3 _ _ _ ih => have := ih h; simp; omega
  | case4 => simp at h; simp [← h.2]
  | case5 => simp at h; simp [← h.2]
  | case6 => rename_i ih; have := ih h; simp; omega

/-- The end of a line: what ends a line comment. -/
def lineEnding (lead : List Char) : Delimiters := { lead, tail := ['\n'] }

/-- The end of the comment that the text starts with, if it does: its size and the text behind it.
A comment that never ends gives `some none`. -/
def comment? (d : Delimiters) (text : List Char) : Option (Option (Nat × List Char)) :=
  (after? d.lead text).map fun inside =>
    (cut? d.tail inside).map fun (front, rest) =>
      (byteLength d.lead + byteLength front + byteLength d.tail, rest)

/-- Takes the first token off a text. There is none in front of an empty text or one that starts
with a comment or literal without an end. -/
def token? (lexis : Lexis) (text : List Char) : Option (Token × List Char) :=
  match lexis.blockComment?.bind (comment? · text) with
  | some ending => ending.map fun (n, rest) => (.blockComment n, rest)
  | none =>
      match lexis.lineComments.findSome? fun lead => comment? (lineEnding lead) text with
      | some ending => ending.map fun (n, rest) => (.lineComment n, rest)
      | none =>
          match text with
          | [] => none
          | c :: rest =>
              if lexis.quotes.contains c then
                (literalEnd? c c.utf8Size rest).map fun (n, rest) => (.literal n, rest)
              else some (.char c, rest)

theorem length_lt_of_comment? {d : Delimiters} {text rest : List Char} {n : Nat}
    (h : comment? d text = some (some (n, rest))) : rest.length < text.length := by
  obtain ⟨inside, hi, hc⟩ := Option.map_eq_some_iff.1 h
  obtain ⟨⟨front, r⟩, hcut, he⟩ := Option.map_eq_some_iff.1 hc
  simp only [Prod.mk.injEq] at he
  obtain ⟨_, rfl⟩ := he
  have h₁ := after?_eq_some_iff.1 hi
  have h₂ := eq_append_of_cut? hcut
  have := List.length_pos_iff.2 d.tail_ne_nil
  simp [h₁, h₂]
  omega

/-- A token takes at least one character. -/
theorem length_lt_of_token? {lexis : Lexis} {text rest : List Char} {t : Token}
    (h : token? lexis text = some (t, rest)) : rest.length < text.length := by
  unfold token? at h
  split at h
  · next ending hb =>
    obtain ⟨⟨n, r⟩, rfl, he⟩ := Option.map_eq_some_iff.1 h
    obtain ⟨d, _, hd⟩ := Option.bind_eq_some_iff.1 hb
    simp only [Prod.mk.injEq] at he
    exact he.2 ▸ length_lt_of_comment? hd
  · split at h
    · next ending hl =>
      obtain ⟨⟨n, r⟩, rfl, he⟩ := Option.map_eq_some_iff.1 h
      obtain ⟨lead, _, hd⟩ := List.exists_of_findSome?_eq_some hl
      simp only [Prod.mk.injEq] at he
      exact he.2 ▸ length_lt_of_comment? hd
    · split at h
      · simp at h
      · next c r =>
        split at h
        · obtain ⟨⟨n, r'⟩, hr, he⟩ := Option.map_eq_some_iff.1 h
          simp only [Prod.mk.injEq] at he
          have := length_le_of_literalEnd? hr
          simp [← he.2]
          omega
        · simp at h
          simp [← h.2]

end Text

end CodeAtlas
