import CodeAtlas.Proofs.Reply.Mend
import CodeAtlas.Proofs.Text.Balanced
import CodeAtlas.Reply.Items

/-!
# Regions

The region that an opening bracket starts ends where the text of a list or a record ends that starts
there, whatever brackets and quotes its strings hold. If this text is cut off, the region goes to
the end. Brackets in the prose before it start regions too, but the repair does not make documents
of them.
-/

namespace CodeAtlas.Reply

open Text
open Json (Spells HexEscape HexDigit Blank Form isSpace isNumberChar)

/-! ## Tokens -/

/-- A literal goes on behind a character that neither ends it nor escapes. -/
theorem literalEnd?_plain {c : Char} (hquote : c ≠ '"') (hslash : c ≠ '\\') (size : Nat)
    (rest : List Char) :
    literalEnd? '"' size (c :: rest) = literalEnd? '"' (size + c.utf8Size) rest := by
  rw [literalEnd?_cons hslash, if_neg hquote, if_neg (by simp [spansLines])]

/-- A literal goes on behind a hexadecimal digit. -/
theorem literalEnd?_hexDigit {c : Char} (h : HexDigit c) (size : Nat) (rest : List Char) :
    literalEnd? '"' size (c :: rest) = literalEnd? '"' (size + c.utf8Size) rest :=
  literalEnd?_plain (h.ne (by decide)) (h.ne (by decide)) size rest

theorem utf8Size_backslash : Char.utf8Size '\\' = 1 := rfl

/-- A literal goes on behind an escape of four digits. -/
theorem literalEnd?_hexEscape {u : List Char} {d : Char} (h : HexEscape u d) (size : Nat)
    (rest : List Char) :
    literalEnd? '"' size (u ++ rest) = literalEnd? '"' (size + byteLength u) rest := by
  cases h with
  | one h =>
      obtain ⟨ha, hb, hc, hd⟩ := Json.hexDigits_of_hex4? h
      simp only [List.cons_append, List.nil_append, literalEnd?_escape, literalEnd?_hexDigit ha,
        literalEnd?_hexDigit hb, literalEnd?_hexDigit hc, literalEnd?_hexDigit hd]
      simp [utf8Size_backslash, Nat.add_assoc]
  | two h _ h' =>
      obtain ⟨ha, hb, hc, hd⟩ := Json.hexDigits_of_hex4? h
      obtain ⟨ha', hb', hc', hd'⟩ := Json.hexDigits_of_hex4? h'
      simp only [List.cons_append, List.nil_append, literalEnd?_escape, literalEnd?_hexDigit ha,
        literalEnd?_hexDigit hb, literalEnd?_hexDigit hc, literalEnd?_hexDigit hd,
        literalEnd?_hexDigit ha', literalEnd?_hexDigit hb', literalEnd?_hexDigit hc',
        literalEnd?_hexDigit hd']
      simp [utf8Size_backslash, Nat.add_assoc]

/-- A literal ends at a quote. -/
theorem literalEnd?_quote (size : Nat) (rest : List Char) :
    literalEnd? '"' size ('"' :: rest) = some (size + 1, rest) := by
  rw [literalEnd?_cons (by decide), if_pos rfl]
  rfl

/-- A literal does not end in what spells characters. -/
theorem literalEnd?_spells_append {s cs : List Char} (h : Spells s cs) (size : Nat)
    (rest : List Char) :
    literalEnd? '"' size (s ++ rest) = literalEnd? '"' (size + byteLength s) rest := by
  induction h generalizing size with
  | nil => rw [List.nil_append, byteLength_nil, Nat.add_zero]
  | plain hquote hslash _ _ ih =>
      rw [List.cons_append, literalEnd?_plain hquote hslash, ih]
      simp [Nat.add_assoc]
  | letter _ _ ih =>
      rw [List.cons_append, List.cons_append, literalEnd?_escape, ih]
      simp [utf8Size_backslash, Nat.add_assoc]
  | hex h _ ih =>
      rw [List.append_assoc, literalEnd?_hexEscape h, ih]
      simp [Nat.add_assoc]

/-- A literal goes on to the first quote that is not spelled. -/
theorem literalEnd?_spells {s cs : List Char} (h : Spells s cs) (size : Nat) (rest : List Char) :
    literalEnd? '"' size (s ++ '"' :: rest) = some (size + byteLength s + 1, rest) := by
  rw [literalEnd?_spells_append h, literalEnd?_quote]

/-- A character other than a quote is a token. -/
theorem token?_char {c : Char} (h : c ≠ '"') (rest : List Char) :
    token? .json (c :: rest) = some (.char c, rest) := by
  have hquote : Lexis.json.quotes.contains c = false := by simp [Lexis.json, h]
  show (if Lexis.json.quotes.contains c then _ else some (Token.char c, rest)) = _
  rw [hquote]
  rfl

/-- A quote starts a literal. -/
theorem token?_quote (text : List Char) : token? .json ('"' :: text)
    = (literalEnd? '"' 1 text).map fun p => (Token.literal p.1, p.2) := rfl

/-- A spelling in quotes is a literal. -/
theorem token?_quoted {s cs : List Char} (h : Spells s cs) (rest : List Char) :
    token? .json ('"' :: (s ++ '"' :: rest))
      = some (.literal (byteLength ('"' :: (s ++ ['"']))), rest) := by
  have hquote : Char.utf8Size '"' = 1 := rfl
  rw [token?_quote, literalEnd?_spells h]
  simp only [Option.map_some, byteLength_cons, byteLength_append, byteLength_nil, hquote,
    Nat.add_assoc, Nat.add_zero]

/-- A token that a text starts with is the first whatever follows. -/
theorem token?_append {t : Token} {text rest : List Char} (h : token? .json text = some (t, rest))
    (s : List Char) : token? .json (text ++ s) = some (t, rest ++ s)
      ∧ byteLength text = t.size + byteLength rest := by
  cases text with
  | nil => cases h
  | cons c text =>
      by_cases hc : c = '"'
      · subst hc
        rw [token?_quote] at h
        obtain ⟨⟨n, rest'⟩, hend, heq⟩ := Option.map_eq_some_iff.1 h
        obtain ⟨rfl, rfl⟩ := Prod.mk.injEq .. ▸ heq
        obtain ⟨inside, rfl, rfl, hmore⟩ := exists_of_literalEnd? hend
        rw [List.cons_append, token?_quote, List.append_assoc, hmore, byteLength_cons,
          byteLength_append]
        exact ⟨rfl, (Nat.add_assoc ..).symm⟩
      · rw [token?_char hc] at h
        obtain ⟨rfl, rfl⟩ := Prod.mk.injEq .. ▸ Option.some.inj h
        rw [List.cons_append, token?_char hc, byteLength_cons]
        exact ⟨rfl, rfl⟩

/-! ## Closing brackets -/

/-- The bracket that closes another is found behind a text as if the text were not there. -/
def Passes (opener closer : Char) (s : List Char) : Prop :=
  ∀ depth offset rest, 0 < depth →
    closerFrom? .json opener closer depth offset (s ++ rest)
      = closerFrom? .json opener closer depth (offset + byteLength s) rest

section
variable {opener closer : Char}

theorem passes_nil : Passes opener closer [] := fun _ _ _ _ => rfl

/-- The search passes over two texts if it does over both. -/
theorem Passes.append {a s : List Char} (ha : Passes opener closer a)
    (hs : Passes opener closer s) :
    Passes opener closer (a ++ s) := by
  intro depth offset rest hdepth
  rw [List.append_assoc, ha depth offset _ hdepth, hs depth _ rest hdepth, byteLength_append,
    Nat.add_assoc]

/-- The search passes over a character that is no quote and none of the brackets. -/
theorem passes_char {c : Char} (hquote : c ≠ '"') (hopen : c ≠ opener) (hclose : c ≠ closer) :
    Passes opener closer [c] := by
  intro depth offset rest _
  rw [List.singleton_append, closerFrom?_token (token?_char hquote rest),
    if_neg (by simpa using hopen), if_neg (by simpa using hclose)]
  simp [Token.size]

/-- The search passes over a spelling in quotes. -/
theorem passes_quoted {s cs : List Char} (h : Spells s cs) :
    Passes opener closer ('"' :: (s ++ ['"'])) := by
  intro depth offset rest _
  rw [List.cons_append, List.append_assoc, List.singleton_append,
    closerFrom?_token (token?_quoted h rest), if_neg nofun, if_neg nofun]
  rfl

/-- From the bracket in front the search goes on at depth zero. -/
theorem findBalanced_head (rest : List Char) :
    findBalanced .json opener closer (opener :: rest) 0
      = closerFrom? .json opener closer 0 0 (opener :: rest) := by
  rw [findBalanced]
  exact if_pos rfl

/-- A closing bracket that a text has is the one whatever follows. -/
theorem closerFrom?_append {depth offset stop : Nat} {text : List Char}
    (h : closerFrom? .json opener closer depth offset text = some stop) (s : List Char) :
    closerFrom? .json opener closer depth offset (text ++ s) = some stop
      ∧ stop < offset + byteLength text := by
  fun_induction closerFrom? .json opener closer depth offset text with
  | case1 => cases h
  | case2 depth offset text rest ht _ ih =>
      obtain ⟨htoken, hsize⟩ := token?_append ht s
      obtain ⟨hstop, hlt⟩ := ih _ h
      rw [closerFrom?_token htoken, if_pos rfl]
      exact ⟨hstop, by omega⟩
  | case3 depth offset text rest hlast ht hne _ =>
      obtain ⟨htoken, hsize⟩ := token?_append ht s
      obtain rfl := Option.some.inj h
      have hpos : 0 < (Token.char closer).size := Char.utf8Size_pos closer
      rw [closerFrom?_token htoken, if_neg hne, if_pos rfl, if_pos hlast]
      exact ⟨rfl, by omega⟩
  | case4 depth offset text rest hdeep ht _ hne ih =>
      obtain ⟨htoken, hsize⟩ := token?_append ht s
      obtain ⟨hstop, hlt⟩ := ih _ h
      rw [closerFrom?_token htoken, if_neg hne, if_pos rfl, if_neg hdeep]
      exact ⟨hstop, by omega⟩
  | case5 depth offset text t rest ht _ hopen hclose ih =>
      obtain ⟨htoken, hsize⟩ := token?_append ht s
      obtain ⟨hstop, hlt⟩ := ih _ h
      rw [closerFrom?_token htoken, if_neg hopen, if_neg hclose]
      exact ⟨hstop, by omega⟩

end

/-! ## Documents -/

/-- The brackets of lists and of records. -/
theorem closerOf?_eq_some_iff {opener closer : Char} : closerOf? opener = some closer
    ↔ opener = '[' ∧ closer = ']' ∨ opener = '\x7b' ∧ closer = '\x7d' := by
  constructor
  · intro h
    rw [closerOf?.eq_def] at h
    split at h
    · exact .inl ⟨rfl, (Option.some.inj h).symm⟩
    · exact .inr ⟨rfl, (Option.some.inj h).symm⟩
    · cases h
  · rintro (⟨rfl, rfl⟩ | ⟨rfl, rfl⟩)
    · rfl
    · rfl

/-- Only the brackets of lists and records have one that closes them. -/
theorem closerOf?_eq_none {c : Char} (hlist : c ≠ '[') (hrecord : c ≠ '\x7b') :
    closerOf? c = none := by
  refine Option.eq_none_iff_forall_ne_some.2 fun closer h => ?_
  rcases closerOf?_eq_some_iff.1 h with ⟨h, -⟩ | ⟨h, -⟩
  · exact hlist h
  · exact hrecord h

section
variable {opener closer : Char} (hpair : closerOf? opener = some closer)
include hpair

/-- The search passes over neutral text. -/
theorem passes_of_neutral {s : List Char} (h : ∀ c ∈ s, Neutral c) : Passes opener closer s := by
  induction s with
  | nil => exact passes_nil
  | cons c s ih =>
      obtain ⟨⟨hquote, hlist, hlist', hrecord, hrecord'⟩, hs⟩ := List.forall_mem_cons.1 h
      refine Passes.append (passes_char hquote ?_ ?_) (ih hs)
      · rcases closerOf?_eq_some_iff.1 hpair with ⟨rfl, -⟩ | ⟨rfl, -⟩
        · exact hlist
        · exact hrecord
      · rcases closerOf?_eq_some_iff.1 hpair with ⟨-, rfl⟩ | ⟨-, rfl⟩
        · exact hlist'
        · exact hrecord'

/-- The search passes over a neutral character. -/
theorem passes_singleton {c : Char} (hc : Neutral c) : Passes opener closer [c] :=
  passes_of_neutral hpair (List.forall_mem_singleton.2 hc)

/-- The search passes over white space. -/
theorem passes_blank {b : List Char} (hb : Blank b) : Passes opener closer b :=
  passes_of_neutral hpair fun c hc => neutral_of_isSpace (hb c hc)

/-- Brackets are no quotes, the two of a pair are different, and each has one byte. -/
theorem ne_of_closerOf? :
    opener ≠ '"' ∧ closer ≠ '"' ∧ closer ≠ opener ∧ opener.utf8Size = 1 ∧ closer.utf8Size = 1 := by
  rcases closerOf?_eq_some_iff.1 hpair with ⟨rfl, rfl⟩ | ⟨rfl, rfl⟩
  · decide
  · decide

/-- A pair of brackets is passed within another, and is the one that is looked for in front of
all. -/
theorem closerFrom?_brackets {s : List Char} (h : Passes opener closer s) (depth offset : Nat)
    (rest : List Char) : closerFrom? .json opener closer depth offset
    (opener :: (s ++ closer :: rest))
      = if depth = 0 then some (offset + byteLength (opener :: s))
        else closerFrom? .json opener closer depth (offset + byteLength (opener :: (s ++ [closer])))
          rest := by
  obtain ⟨hopen, hclose, hne, hsize, hsize'⟩ := ne_of_closerOf? hpair
  have hother : Token.char closer ≠ .char opener := fun heq => hne (Token.char.inj heq)
  have hlength : byteLength (opener :: (s ++ [closer])) = 1 + (byteLength s + 1) := by
    rw [byteLength_cons, byteLength_append, byteLength_cons, byteLength_nil, hsize, hsize']
  rw [closerFrom?_token (token?_char hopen _), if_pos rfl, h _ _ _ (Nat.succ_pos depth),
    closerFrom?_token (token?_char hclose _), if_neg hother, if_pos rfl, hlength,
      byteLength_cons, hsize]
  show (if depth + 1 ≤ 1 then some (offset + opener.utf8Size + byteLength s)
    else closerFrom? .json opener closer depth
      (offset + opener.utf8Size + byteLength s + closer.utf8Size)
      rest) = _
  rw [hsize, hsize']
  by_cases hdepth : depth = 0
  · rw [if_pos hdepth, if_pos (by omega), Nat.add_assoc]
  · rw [if_neg hdepth, if_neg (by omega), Nat.add_assoc, Nat.add_assoc]

/-- The brackets of the other kind. -/
theorem ne_of_closerOf?_other {o c : Char} (hpair' : closerOf? o = some c) (hother : o ≠ opener) :
    o ≠ closer ∧ c ≠ opener ∧ c ≠ closer := by
  rcases closerOf?_eq_some_iff.1 hpair with ⟨rfl, rfl⟩ | ⟨rfl, rfl⟩
  all_goals
    rcases closerOf?_eq_some_iff.1 hpair' with ⟨rfl, rfl⟩ | ⟨rfl, rfl⟩
    all_goals first | exact absurd rfl hother | decide

/-- A pair of brackets is passed, of whichever kind it is. -/
theorem Passes.brackets {o c : Char} (hpair' : closerOf? o = some c) {s : List Char}
    (h : Passes opener closer s) : Passes opener closer (o :: (s ++ [c])) := by
  by_cases hsame : o = opener
  · subst hsame
    obtain rfl : c = closer := Option.some.inj (hpair'.symm.trans hpair)
    intro depth offset rest hdepth
    rw [List.cons_append, List.append_assoc, List.singleton_append, closerFrom?_brackets hpair h,
      if_neg (Nat.ne_of_gt hdepth)]
  · obtain ⟨hocloser, hcopener, hccloser⟩ := ne_of_closerOf?_other hpair hpair' hsame
    obtain ⟨hopen, hclose, -⟩ := ne_of_closerOf? hpair'
    exact (passes_char hopen hsame hocloser).append
      (h.append (passes_char hclose hcopener hccloser))

/-- Every part of a document is passed. -/
theorem passes_text {n : Nat} {form : Form} {s : List Char} (h : Json.Text n form s) :
    Passes opener closer s := by
  have hcolon : Passes opener closer [':'] := passes_singleton hpair (by simp [Neutral])
  have hcomma : Passes opener closer [','] := passes_singleton hpair (by simp [Neutral])
  induction h with
  | null | yes | no => exact passes_of_neutral hpair (by simp [Neutral])
  | num h =>
      exact passes_of_neutral hpair fun c hc =>
        neutral_of_isNumberChar ((Json.isNumberChar_of_readNumber? h).2 c hc)
  | str h => exact passes_quoted h
  | arr _ ih => exact ih.brackets hpair rfl
  | obj _ ih => exact ih.brackets hpair rfl
  | item _ ih => exact ih
  | @member n j k cs b b' s hk hb hb' _ ih =>
      have hvalue := hcolon.append ((passes_blank hpair hb').append ih)
      have hmember := (passes_quoted hk).append ((passes_blank hpair hb).append hvalue)
      simpa using hmember
  | nil hb => exact passes_blank hpair hb
  | cons hb hb' _ _ ih ihm =>
      exact (passes_blank hpair hb).append (ih.append ((passes_blank hpair hb').append ihm))
  | last => exact passes_nil
  | comma _ ih => exact hcomma.append ih

/-! ## Regions -/

/-- A bracket at the end has one byte. -/
theorem byteLength_brackets (s : List Char) :
    byteLength (opener :: (s ++ [closer])) = byteLength (opener :: s) + 1 := by
  obtain ⟨-, -, -, -, hsize⟩ := ne_of_closerOf? hpair
  rw [← List.cons_append, byteLength_append]
  exact congrArg (byteLength (opener :: s) + ·) ((byteLength_cons closer []).trans hsize)

/-- A region ends with the bracket that closes its first. -/
theorem regionAt?_brackets {s : List Char} (h : Passes opener closer s) (rest : List Char) :
    regionAt? (opener :: (s ++ closer :: rest)) = some (opener :: (s ++ [closer])) := by
  have htake := takeBytes_byteLength_append (opener :: (s ++ [closer])) rest
  rw [List.cons_append, List.append_assoc, List.singleton_append, byteLength_brackets hpair]
    at htake
  rw [regionAt?, hpair, Option.map_some, findBalanced_head,
    closerFrom?_brackets hpair h, if_pos rfl, Nat.zero_add]
  exact congrArg some htake

/-- A region that is cut off in front of the bracket that closes its first goes to the end. -/
theorem regionAt?_cut {s p rest : List Char} (h : Passes opener closer s)
    (hsplit : opener :: (s ++ [closer]) = opener :: p ++ rest) (hrest : rest ≠ []) :
    regionAt? (opener :: p) = some (opener :: p) := by
  have hnone : closerFrom? .json opener closer 0 0 (opener :: p) = none := by
    refine Option.eq_none_iff_forall_ne_some.2 fun stop hstop => ?_
    obtain ⟨hwhole, hlt⟩ := closerFrom?_append hstop rest
    rw [← hsplit, closerFrom?_brackets hpair h, if_pos rfl] at hwhole
    have hlength := congrArg byteLength hsplit
    rw [byteLength_brackets hpair, byteLength_append] at hlength
    have hpos : 0 < byteLength rest := by
      obtain ⟨c, rest, rfl⟩ := List.exists_cons_of_ne_nil hrest
      rw [byteLength_cons]
      exact Nat.add_pos_left (Char.utf8Size_pos c) _
    have hstop := Option.some.inj hwhole
    omega
  rw [regionAt?, hpair, Option.map_some, findBalanced_head, hnone]

/-! ## Documents between brackets -/

/-- What stands between the brackets of a document are entries. -/
theorem exists_entries {n : Nat} {j : Json} {s : List Char}
    (h : Json.Text n (.value j) (opener :: (s ++ [closer]))) :
    ∃ m keyed es, Json.Text m (.entries keyed es) s := by
  have hne : ∀ {d : Char}, closerOf? d = none → opener ≠ d := by
    rintro d hd rfl
    rw [hd] at hpair
    cases hpair
  have hinner : ∀ {s' : List Char} {d : Char}, s ++ [closer] = s' ++ [d] → s = s' :=
    fun heq => (List.append_inj' heq rfl).1
  generalize htext : opener :: (s ++ [closer]) = text at h
  cases h with
  | null => exact absurd (List.cons.inj htext).1 (hne rfl)
  | yes => exact absurd (List.cons.inj htext).1 (hne rfl)
  | no => exact absurd (List.cons.inj htext).1 (hne rfl)
  | num h =>
      have hchar := (Json.isNumberChar_of_readNumber? h).2 opener (htext ▸ List.mem_cons_self)
      obtain ⟨-, hlist, -, hrecord, -⟩ := neutral_of_isNumberChar hchar
      exact absurd rfl (hne (closerOf?_eq_none hlist hrecord))
  | str => exact absurd (List.cons.inj htext).1 (hne rfl)
  | arr h =>
      obtain rfl := hinner (List.cons.inj htext).2
      exact ⟨_, _, _, h⟩
  | obj h =>
      obtain rfl := hinner (List.cons.inj htext).2
      exact ⟨_, _, _, h⟩

/-- No white space is around a document that starts and ends with brackets. -/
theorem passes_of_read {j : Json} {s : List Char}
    (h : Json.parseChars? (opener :: (s ++ [closer])) = some j) : Passes opener closer s := by
  have hspace : isSpace opener = false ∧ isSpace closer = false := by
    rcases closerOf?_eq_some_iff.1 hpair with ⟨rfl, rfl⟩ | ⟨rfl, rfl⟩
    · exact ⟨rfl, rfl⟩
    · exact ⟨rfl, rfl⟩
  obtain ⟨j', hread, -⟩ := Option.map_eq_some_iff.1 h
  obtain ⟨b, text, b', hsplit, hb, htext, hb'⟩ := Json.readChars?_eq_some_iff.1 hread
  have hfront : b = [] := by
    cases b with
    | nil => rfl
    | cons c b =>
        obtain rfl := (List.cons.inj hsplit).1
        exact absurd (hb _ List.mem_cons_self) (hspace.1 ▸ Bool.false_ne_true)
  have hback : b' = [] := by
    rcases List.eq_nil_or_concat b' with rfl | ⟨b', c, rfl⟩
    · rfl
    · rw [List.concat_eq_append, ← List.append_assoc, ← List.append_assoc, ← List.cons_append]
        at hsplit
      obtain rfl := List.singleton_inj.1 (List.append_inj' hsplit rfl).2
      rw [List.concat_eq_append] at hb'
      have hclose := hb' _ (List.mem_append_right _ List.mem_cons_self)
      exact absurd hclose (hspace.2 ▸ Bool.false_ne_true)
  rw [hfront, hback, List.nil_append, List.append_nil] at hsplit
  rw [← hsplit] at htext
  obtain ⟨m, keyed, es, hentries⟩ := exists_entries hpair htext
  exact passes_text hpair hentries

/-! ## Prose -/

/-- The repair leaves brackets with neither brackets nor quotes between them. -/
theorem repair_group {s : List Char} (hs : ∀ c ∈ s, Neutral c) :
    repair (opener :: (s ++ [closer])) = opener :: (s ++ [closer]) := by
  have hstate : openings (opener :: (s ++ [closer])) = outside [] := by
    have hopen : (outside []).step opener = outside [opener] := by
      rcases closerOf?_eq_some_iff.1 hpair with ⟨rfl, -⟩ | ⟨rfl, -⟩
      · rfl
      · rfl
    have hclose : (outside [opener]).step closer = outside [] := by
      rcases closerOf?_eq_some_iff.1 hpair with ⟨-, rfl⟩ | ⟨-, rfl⟩
      · rfl
      · rfl
    show (opener :: (s ++ [closer])).foldl Openings.step (outside []) = _
    rw [List.foldl_cons, List.foldl_append, hopen, foldl_neutral hs, List.foldl_cons, hclose]
    rfl
  have hlast : closer = ']' ∨ closer = '\x7d' ∨ closer = '[' ∨ closer = '\x7b' := by
    rcases closerOf?_eq_some_iff.1 hpair with ⟨-, hc⟩ | ⟨-, hc⟩
    · exact .inl hc
    · exact .inr (.inl hc)
  have hmend : mend (opener :: (s ++ [closer])) = opener :: (s ++ [closer]) := by
    rw [mend_outside (by rw [hstate]; rfl), ← List.cons_append, finish_closed hlast]
  rw [repair_eq, hmend, closeBrackets, hstate]
  exact List.append_nil _

/-- Brackets that are no document are none behind the repair. -/
theorem parse?_group {s : List Char} (hs : ∀ c ∈ s, Neutral c)
    (h : Json.parseChars? (opener :: (s ++ [closer])) = none) :
    parse? (opener :: (s ++ [closer])) = none := by
  rw [parse?, h, repair_group hpair hs]
  exact h

end

/-- Texts without opening brackets but for some pairs that are no documents, with neither brackets
nor quotes between them. -/
inductive Prose : List Char → Prop
  | nil : Prose []
  | char {c : Char} {q : List Char} (hc : closerOf? c = none) (hq : Prose q) : Prose (c :: q)
  | group {opener closer : Char} {w q : List Char} (hpair : closerOf? opener = some closer)
      (hw : ∀ c ∈ w, Neutral c) (hjson : Json.parseChars? (opener :: (w ++ [closer])) = none)
      (hq : Prose q) : Prose (opener :: (w ++ closer :: q))

/-- No region starts at a character that is no opening bracket. -/
theorem regions_cons_of_none {c : Char} (hc : closerOf? c = none) (rest : List Char) :
    regions (c :: rest) = regions rest := by
  rw [regions, regionAt?, hc]
  rfl

/-- No region starts in text without opening brackets. -/
theorem regions_append {a : List Char} (ha : ∀ c ∈ a, closerOf? c = none) (rest : List Char) :
    regions (a ++ rest) = regions rest := by
  induction a with
  | nil => rfl
  | cons c a ih =>
      obtain ⟨hc, ha⟩ := List.forall_mem_cons.1 ha
      rw [List.cons_append, regions_cons_of_none hc, ih ha]

/-- The regions of prose come first, and none of them is a document. -/
theorem Prose.regions {q : List Char} (hq : Prose q) (rest : List Char) :
    ∃ front, Reply.regions (q ++ rest) = front ++ Reply.regions rest
      ∧ ∀ r ∈ front, parse? r = none := by
  induction hq with
  | nil => exact ⟨[], rfl, List.forall_mem_nil _⟩
  | char hc _ ih =>
      obtain ⟨front, hregions, hfront⟩ := ih
      exact ⟨front, (regions_cons_of_none hc _).trans hregions, hfront⟩
  | @group opener closer w q hpair hw hjson _ ih =>
      obtain ⟨front, hregions, hfront⟩ := ih
      have hregion := regionAt?_brackets hpair (passes_of_neutral hpair hw) (q ++ rest)
      have hinner : ∀ c ∈ w, closerOf? c = none := by
        intro c hc
        obtain ⟨-, hlist, -, hrecord, -⟩ := hw c hc
        exact closerOf?_eq_none hlist hrecord
      have hcloser : closerOf? closer = none := by
        rcases closerOf?_eq_some_iff.1 hpair with ⟨-, rfl⟩ | ⟨-, rfl⟩
        · rfl
        · rfl
      refine ⟨(opener :: (w ++ [closer])) :: front, ?_, List.forall_mem_cons.2 ⟨?_, hfront⟩⟩
      · rw [List.cons_append, List.append_assoc, List.cons_append, Reply.regions, hregion,
          regions_append hinner, regions_cons_of_none hcloser, hregions]
        rfl
      · exact parse?_group hpair hw hjson

/-- The first region of a text that holds a list or a record is that of this document, if no bracket
opens in front of it, and what there is of the document, if the text is cut off in it. If pairs of
brackets that are no documents come in front, the first region that is a document is still this
one. -/
theorem first_region_of_text {opener closer : Char} (hpair : closerOf? opener = some closer)
    {t u : List Char} (ht : t = opener :: (u ++ [closer])) {j : Json}
    (hread : Json.parseChars? t = some j) (q s : List Char) :
    ('[' ∉ q → '\x7b' ∉ q → (regions (q ++ (t ++ s))).head? = some t
        ∧ ∀ p, p <+: t → p ≠ [] → p ≠ t → (regions (q ++ p)).head? = some p)
      ∧ (Prose q → (∃ front back, regions (q ++ (t ++ s)) = front ++ t :: back
          ∧ ∀ r ∈ front, parse? r = none)
        ∧ parse? t = some j ∧ findInRegions? parse? (q ++ (t ++ s)) = some j) := by
  subst ht
  have hpasses := passes_of_read hpair hread
  have hregions : regions (opener :: (u ++ [closer]) ++ s)
      = (opener :: (u ++ [closer])) :: regions (u ++ closer :: s) := by
    rw [List.cons_append, List.append_assoc, List.singleton_append, regions,
      regionAt?_brackets hpair hpasses s]
    rfl
  constructor
  · -- without brackets in front the first region begins at the opener, whole or cut off
    intro hlist hrecord
    have hq : ∀ c ∈ q, closerOf? c = none := fun c hc =>
      closerOf?_eq_none (fun h => hlist (h ▸ hc)) fun h => hrecord (h ▸ hc)
    refine ⟨by rw [regions_append hq, hregions]; rfl, fun p hp hne hwhole => ?_⟩
    obtain ⟨rest, hsplit⟩ := hp
    cases p with
    | nil => exact absurd rfl hne
    | cons c p =>
        obtain rfl : c = opener := (List.cons.inj hsplit).1
        have hrest : rest ≠ [] := by
          rintro rfl
          rw [List.append_nil] at hsplit
          exact hwhole hsplit
        rw [regions_append hq, regions, regionAt?_cut hpair hpasses hsplit.symm hrest]
        rfl
  · -- prose has regions that do not read, and the first that does is the value
    intro hq
    have hparse : parse? (opener :: (u ++ [closer])) = some j := by rw [parse?, hread]
    obtain ⟨front, hfront, hnone⟩ := hq.regions (opener :: (u ++ [closer]) ++ s)
    rw [hregions] at hfront
    refine ⟨⟨front, _, hfront, hnone⟩, hparse, ?_⟩
    rw [findInRegions?_eq, hfront, List.findSome?_append, List.findSome?_eq_none_iff.2 hnone,
      Option.none_or, List.findSome?_cons, hparse]

/-- A string that holds a bracket and a quote, behind pairs of brackets in prose, and cut off within
it. -/
theorem first_region_of_text_prose :
    let t := ['[', '"', ']', '\\', '"', '"', ',', '\x7b', '\x7d', ']']
    let q := ['a', '[', '1', '-', '2', ']', '\x7b', 'x', '\x7d', ':']
    findInRegions? parse? (q ++ (t ++ [']', '['])) = some (.arr [.str "]\"", .obj []])
      ∧ (regions (['a', ':'] ++ (t ++ ['[']))).head? = some t
      ∧ (regions (['a', ':'] ++ t.take 4)).head? = some (t.take 4) := by
  intro t q
  have hread : Json.parseChars? t = some (.arr [.str "]\"", .obj []]) := rfl
  have hrange : ∀ c ∈ ['1', '-', '2'], Neutral c := by simp [Neutral]
  have hname : ∀ c ∈ ['x'], Neutral c := by simp [Neutral]
  have hprose : Prose q :=
    .char rfl (.group rfl hrange (by decide) (.group rfl hname (by decide) (.char rfl .nil)))
  have hpair : closerOf? '[' = some ']' := rfl
  have ht : t = '[' :: (['"', ']', '\\', '"', '"', ',', '\x7b', '\x7d'] ++ [']']) := rfl
  obtain ⟨-, -, hfind⟩ := (first_region_of_text hpair ht hread q [']', '[']).2 hprose
  obtain ⟨hfirst, hcut⟩ :=
    (first_region_of_text hpair ht hread ['a', ':'] ['[']).1 (by decide) (by decide)
  exact ⟨hfind, hfirst, hcut (t.take 4) (List.take_prefix 4 t) (by decide) (by decide)⟩

end CodeAtlas.Reply
