import CodeAtlas.Json.Reader

/-!
# Reading strings

What stands between the quotes of a string spells its characters one after the other: by itself,
by a letter behind a backslash, or by hexadecimal digits, two times four of them for a character
that does not fit into four. The reader reads exactly such texts.
-/

namespace CodeAtlas.Json

/-- What spells a character by hexadecimal digits. -/
inductive HexEscape : List Char → Char → Prop
  | one {a b c d : Char} {n : Nat} (h : hex4? a b c d = some n)
      (hlow : ¬ (0xDC00 ≤ n ∧ n < 0xE000)) (hhigh : ¬ (0xD800 ≤ n ∧ n < 0xDC00)) :
      HexEscape ['\\', 'u', a, b, c, d] (Char.ofNat n)
  | two {a b c d a' b' c' d' : Char} {n m : Nat} (h : hex4? a b c d = some n)
      (hhigh : 0xD800 ≤ n ∧ n < 0xDC00) (h' : hex4? a' b' c' d' = some m)
      (hlow : 0xDC00 ≤ m ∧ m < 0xE000) :
      HexEscape ['\\', 'u', a, b, c, d, '\\', 'u', a', b', c', d']
        (Char.ofNat (0x10000 + (n - 0xD800) * 0x400 + (m - 0xDC00)))

/-- What spells some characters between the quotes of a string. -/
inductive Spells : List Char → List Char → Prop
  | nil : Spells [] []
  | plain {c : Char} {s cs : List Char} (hquote : c ≠ '"') (hslash : c ≠ '\\')
      (hcontrol : 32 ≤ c.toNat) : Spells s cs → Spells (c :: s) (c :: cs)
  | letter {c d : Char} {s cs : List Char} (h : escapeOf? c = some d) :
      Spells s cs → Spells ('\\' :: c :: s) (d :: cs)
  | hex {u : List Char} {d : Char} {s cs : List Char} (h : HexEscape u d) :
      Spells s cs → Spells (u ++ s) (d :: cs)

/-- The hexadecimal digits. -/
def HexDigit (c : Char) : Prop :=
  (48 ≤ c.toNat ∧ c.toNat ≤ 57) ∨ (65 ≤ c.toNat ∧ c.toNat ≤ 70) ∨ (97 ≤ c.toNat ∧ c.toNat ≤ 102)

instance (c : Char) : Decidable (HexDigit c) := inferInstanceAs (Decidable (_ ∨ _))

/-- A character with a value is a hexadecimal digit. -/
theorem hexDigit_of_value {c : Char} {v : Nat} (h : hexDigitValue? c = some v) : HexDigit c := by
  rw [hexDigitValue?] at h
  split at h
  · next hd =>
    simp only [Char.isDigit, Bool.and_eq_true, decide_eq_true_eq, ge_iff_le,
      UInt32.le_iff_toNat_le] at hd
    exact .inl hd
  · split at h
    · next hd =>
      simp only [Bool.and_eq_true, decide_eq_true_eq, Char.le_def, UInt32.le_iff_toNat_le] at hd
      exact .inr (.inr hd)
    · split at h
      · next hd =>
        simp only [Bool.and_eq_true, decide_eq_true_eq, Char.le_def, UInt32.le_iff_toNat_le] at hd
        exact .inr (.inl hd)
      · cases h

/-- Four characters with a value are hexadecimal digits. -/
theorem hexDigits_of_hex4? {a b c d : Char} {n : Nat} (h : hex4? a b c d = some n) :
    HexDigit a ∧ HexDigit b ∧ HexDigit c ∧ HexDigit d := by
  obtain ⟨va, ha, h⟩ := Option.bind_eq_some_iff.1 h
  obtain ⟨vb, hb, h⟩ := Option.bind_eq_some_iff.1 h
  obtain ⟨vc, hc, h⟩ := Option.bind_eq_some_iff.1 h
  obtain ⟨vd, hd, h⟩ := Option.bind_eq_some_iff.1 h
  exact ⟨hexDigit_of_value ha, hexDigit_of_value hb, hexDigit_of_value hc, hexDigit_of_value hd⟩

/-- A hexadecimal digit is different from what is none. -/
theorem HexDigit.ne {c d : Char} (h : HexDigit c) (hd : ¬ HexDigit d) : c ≠ d := by
  rintro rfl
  exact hd h

/-- The characters of an escape. -/
theorem HexEscape.chars {u : List Char} {d : Char} (h : HexEscape u d) :
    ∀ c ∈ u, c = '\\' ∨ c = 'u' ∨ HexDigit c := by
  cases h with
  | one h =>
      obtain ⟨ha, hb, hc, hd⟩ := hexDigits_of_hex4? h
      intro c hc'
      simp only [List.mem_cons, List.not_mem_nil, or_false] at hc'
      rcases hc' with rfl | rfl | rfl | rfl | rfl | rfl
      all_goals simp [*]
  | two h hhigh h' =>
      obtain ⟨ha, hb, hc, hd⟩ := hexDigits_of_hex4? h
      obtain ⟨ha', hb', hc', hd'⟩ := hexDigits_of_hex4? h'
      intro c hmem
      simp only [List.mem_cons, List.not_mem_nil, or_false] at hmem
      rcases hmem with rfl | rfl | rfl | rfl | rfl | rfl | rfl | rfl | rfl | rfl | rfl | rfl
      all_goals simp [*]

/-- Nothing spells the empty string only. -/
theorem Spells.eq_nil {cs : List Char} (h : Spells [] cs) : cs = [] := by
  generalize hs : [] = s at h
  cases h with
  | nil => rfl
  | plain => cases hs
  | letter => cases hs
  | hex h =>
      obtain ⟨rfl, -⟩ := List.append_eq_nil_iff.1 hs.symm
      cases h

/-- A character that stands for nothing behind a backslash. -/
theorem ne_of_escapeOf? {c d : Char} (h : (escapeOf? c).isSome = true) (hd : escapeOf? d = none) :
    c ≠ d := by
  rintro rfl
  rw [hd] at h
  cases h

/-- A string goes on behind an escape of four digits with the character that it spells. -/
theorem readString?_hex {u : List Char} {d : Char} (h : HexEscape u d) (read rest : List Char) :
    readString? read (u ++ rest) = readString? (d :: read) rest := by
  cases h with
  | one h hlow hhigh =>
      simp only [List.cons_append, List.nil_append]
      rw [readString?, h]
      simp [hlow, hhigh]
  | two h hhigh h' hlow =>
      have hnot : ¬ 0xDC00 ≤ _ := Nat.not_le.2 hhigh.2
      simp only [List.cons_append, List.nil_append]
      rw [readString?, h]
      simp [hhigh, hnot, h', hlow]

/-- A string goes on behind an escape of one letter with the character that it spells. -/
theorem readString?_letter {c d : Char} (h : escapeOf? c = some d) (read rest : List Char) :
    readString? read ('\\' :: c :: rest) = readString? (d :: read) rest := by
  have hc : c ≠ 'u' := ne_of_escapeOf? (Option.isSome_of_eq_some h) rfl
  rw [readString?, h]
  rintro a b c' d' text hu
  exact absurd hu hc

/-- A string goes on behind a character that stands for itself. -/
theorem readString?_plain {c : Char} (hquote : c ≠ '"') (hslash : c ≠ '\\')
    (hcontrol : 32 ≤ c.toNat) (read rest : List Char) :
    readString? read (c :: rest) = readString? (c :: read) rest := by
  have hnot : (c.toNat < 32 || c == '\\') = false := by
    simp only [Bool.or_eq_false_iff, decide_eq_false_iff_not, beq_eq_false_iff_ne]
    exact ⟨Nat.not_lt.2 hcontrol, hslash⟩
  rw [readString?]
  · rw [hnot]
    rfl
  · exact hquote
  · rintro a b c' d text rfl
    exact absurd rfl hslash
  · rintro a b rfl
    exact absurd rfl hslash

/-- A spelling with a quote behind it is read as the string. -/
theorem readString?_spells {s cs : List Char} (h : Spells s cs) (read rest : List Char) :
    readString? read (s ++ '"' :: rest) = some (String.ofList (read.reverse ++ cs), rest) := by
  induction h generalizing read with
  | nil => rw [List.nil_append, readString?, List.append_nil]
  | plain hquote hslash hcontrol _ ih =>
      rw [List.cons_append, readString?_plain hquote hslash hcontrol, ih, List.reverse_cons,
        List.append_assoc, List.singleton_append]
  | letter h _ ih =>
      rw [List.cons_append, List.cons_append, readString?_letter h, ih, List.reverse_cons,
        List.append_assoc, List.singleton_append]
  | hex h _ ih =>
      rw [List.append_assoc, readString?_hex h, ih, List.reverse_cons, List.append_assoc,
        List.singleton_append]

/-- What the reader takes up to the closing quote spells what it returns. -/
theorem spells_of_readString? {read text rest : List Char} {str : String}
    (h : readString? read text = some (str, rest)) :
    ∃ s cs, text = s ++ '"' :: rest ∧ Spells s cs ∧ str = String.ofList (read.reverse ++ cs) := by
  have hpush : ∀ {d : Char} {read cs : List Char},
      (d :: read).reverse ++ cs = read.reverse ++ d :: cs := by
    intro d read cs
    rw [List.reverse_cons, List.append_assoc, List.singleton_append]
  fun_induction readString? read text with
  | case1 => cases h
  | case2 read text =>
      cases h
      exact ⟨[], [], rfl, .nil, by rw [List.append_nil]⟩
  | case3 => cases h
  | case4 => cases h
  | case5 => cases h
  | case6 read a b c d n hn hlow hhigh a' b' c' d' text m hm hlow' ih =>
      -- two escapes that make one character together
      obtain ⟨s, cs, rfl, hs, rfl⟩ := ih h
      simp only [Bool.and_eq_true, decide_eq_true_eq] at hhigh hlow'
      exact ⟨_, _, rfl, .hex (.two hn hhigh hm hlow') hs, by rw [hpush]⟩
  | case7 => cases h
  | case8 => cases h
  | case9 read a b c d text n hn hlow hhigh ih =>
      -- one escape that makes a character by itself
      obtain ⟨s, cs, rfl, hs, rfl⟩ := ih h
      simp only [Bool.and_eq_true, decide_eq_true_eq] at hlow hhigh
      exact ⟨_, _, rfl, .hex (.one hn hlow hhigh) hs, by rw [hpush]⟩
  | case10 read c text _ d hd ih =>
      -- an escape of one letter
      obtain ⟨s, cs, rfl, hs, rfl⟩ := ih h
      exact ⟨_, _, rfl, .letter hd hs, by rw [hpush]⟩
  | case11 => cases h
  | case12 => cases h
  | case13 read c text hquote _ _ hplain ih =>
      obtain ⟨s, cs, rfl, hs, rfl⟩ := ih h
      simp only [Bool.or_eq_true, decide_eq_true_eq, beq_iff_eq, not_or, Nat.not_lt] at hplain
      exact ⟨_, _, rfl, .plain hquote hplain.2 hplain.1 hs, by rw [hpush]⟩

end CodeAtlas.Json
