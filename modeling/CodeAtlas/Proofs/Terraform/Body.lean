import CodeAtlas.Proofs.Terraform.Header
import CodeAtlas.Proofs.Text.Splitting

/-!
# What a body assigns

The lines of a body fall into pieces, in any order: lines that assign nothing, values on one line,
nested blocks and values over several lines, and here-documents. One lemma for each kind of piece
says what its lines add to the attributes and that the lines behind it are read as those of a body
again. By induction on the pieces, each of them but the first kind gives one attribute, whatever a
nested block or a here-document looks like inside.
-/

namespace CodeAtlas.Source.Terraform

open Pattern Unicode CharSet Text

/-! ## The brackets of a line -/

/-- The characters that start comments and literals. -/
def starters : List Char := ['"', '#', '/']

/-- The brackets that count. -/
def brackets : List Char := ['(', '[', '\x7b', ')', ']', '\x7d']

/-- What is no bracket does not change the depth. -/
theorem nesting_of_not_mem {c : Char} (h : c ∉ brackets) : nesting false none c = 0 := by
  rw [nesting.eq_def]
  split <;> first | rfl | exact absurd (by decide) h

/-- A character that starts nothing is a token of its own. -/
theorem token?_hcl {c : Char} (h : c ∉ starters) (rest : List Char) :
    token? .hcl (c :: rest) = some (.char c, rest) := by
  have hblock : ¬ OpensBlock .hcl (c :: rest) := by
    rintro ⟨d, hd, hlead⟩
    cases hd
    obtain rfl := (List.cons_prefix_cons.1 hlead).1
    exact h (by decide)
  have hline : ¬ OpensLine .hcl (c :: rest) := by
    rintro ⟨lead, hlead, hstart⟩
    rcases List.mem_cons.1 hlead with rfl | hlead
    · obtain rfl := (List.cons_prefix_cons.1 hstart).1
      exact h (by decide)
    · obtain rfl := List.mem_singleton.1 hlead
      obtain rfl := (List.cons_prefix_cons.1 hstart).1
      exact h (by decide)
  have hquote : Lexis.hcl.quotes.contains c = false := by
    rw [← Bool.not_eq_true, List.contains_iff_mem]
    intro hmem
    obtain rfl := List.mem_singleton.1 hmem
    exact h (by decide)
  rw [token?_cons hblock hline, hquote]
  rfl

/-- The depth behind a text in which no comment and no literal starts. -/
def weight (depth : Int) (text : List Char) : Int :=
  text.foldl (fun depth c => depth + nesting false none c) depth

/-- Over text that starts no string or comment the depth changes by the weight of the text. -/
theorem depthDeltaFrom_append {front : List Char} (h : ∀ c ∈ front, c ∉ starters) (depth : Int)
    (rest : List Char) :
    depthDeltaFrom .hcl depth (front ++ rest) = depthDeltaFrom .hcl (weight depth front) rest := by
  induction front generalizing depth with
  | nil => rfl
  | cons c front ih =>
      obtain ⟨hc, hfront⟩ := List.forall_mem_cons.1 h
      rw [List.cons_append, depthDeltaFrom.eq_def, token?_hcl hc]
      exact ih hfront _

/-- A line without strings and comments opens what it weighs. -/
theorem opened_eq_weight {line : List Char} (h : ∀ c ∈ line, c ∉ starters) :
    opened line = weight 0 line := by
  have hline := depthDeltaFrom_append h 0 []
  have hnil : ∀ depth : Int, depthDeltaFrom .hcl depth [] = depth := by
    intro depth
    rw [depthDeltaFrom.eq_def]
    rfl
  rw [List.append_nil, hnil] at hline
  exact hline

/-- A character that starts nothing and is no bracket. -/
def IsPlain (c : Char) : Prop := c ∉ starters ∧ c ∉ brackets

/-- Characters apart from starters and brackets are plain. -/
theorem isPlain_of {p : Char → Prop} (h : ∀ d ∈ starters ++ brackets, ¬ p d) {c : Char} (hc : p c) :
    IsPlain c :=
  ⟨fun hmem => h c (List.mem_append_left _ hmem) hc,
    fun hmem => h c (List.mem_append_right _ hmem) hc⟩

/-- A character of a word is plain. -/
theorem isPlain_of_isWordChar {c : Char} (h : isWordChar c = true) : IsPlain c := by
  have hall : (starters ++ brackets).all (fun d => decide (Within gapRanges d.toNat)) = true := by
    decide +kernel
  refine isPlain_of (p := (isWordChar · = true)) (fun d hd hword => ?_) h
  rw [not_isWordChar_of_within (of_decide_eq_true (List.all_eq_true.1 hall d hd))] at hword
  cases hword

/-- White space is plain. -/
theorem isPlain_of_isBlank {c : Char} (h : isBlank c = true) : IsPlain c := by
  have hall : (starters ++ brackets).all isPrinted = true := by decide
  refine isPlain_of (p := (isBlank · = true)) (fun d hd hblank => ?_) h
  rw [isBlank_of_isPrinted (List.all_eq_true.1 hall d hd)] at hblank
  cases hblank

/-- The characters of a name are plain. -/
theorem isPlain_of_isName {name : List Char} (h : IsName name) : ∀ c ∈ name, IsPlain c := by
  cases name with
  | nil => cases h
  | cons c cs =>
      refine List.forall_mem_cons.2 ⟨?_, fun d hd => ?_⟩
      · rcases h.1 with hc | rfl
        · exact isPlain_of_isWordChar (isWordChar_of_isAlpha hc)
        · exact isPlain_of_isWordChar isWordChar_underscore
      · rcases h.2 d hd with hd | rfl
        · exact isPlain_of_isWordChar hd
        · exact ⟨by decide, by decide⟩

/-- A text of letters is a name. -/
theorem isName_of_isAlpha {c : Char} {cs : List Char} (h : (c :: cs).all Char.isAlpha = true) :
    IsName (c :: cs) := by
  obtain ⟨hc, hcs⟩ := List.forall_mem_cons.1 (List.all_eq_true.1 h)
  exact ⟨.inl hc, fun d hd => .inl (isWordChar_of_isAlpha (hcs d hd))⟩

/-- Plain text weighs nothing. -/
theorem weight_plain {text : List Char} (h : ∀ c ∈ text, IsPlain c) (depth : Int) :
    weight depth text = depth := by
  induction text generalizing depth with
  | nil => rfl
  | cons c text ih =>
      obtain ⟨hc, htext⟩ := List.forall_mem_cons.1 h
      show weight (depth + nesting false none c) text = depth
      rw [nesting_of_not_mem hc.2, Int.add_zero, ih htext]

/-- A plain line opens nothing. -/
theorem opened_plain {line : List Char} (h : ∀ c ∈ line, IsPlain c) : opened line = 0 := by
  rw [opened_eq_weight fun c hc => (h c hc).1, weight_plain h]

/-- What starts a comment up to the end of the line holds no newline. -/
theorem hcl_lines : ∀ lead ∈ Lexis.hcl.lineComments, '\n' ∉ lead :=
  Lexis.newline_not_mem_lead .hcl (by simp [Lexis.all])

/-- What starts a comment up to the end of the line starts no other comment. -/
theorem not_opensBlock_lead {lead : List Char} (hlead : lead ∈ Lexis.hcl.lineComments)
    (text : List Char) :
    ¬ OpensBlock .hcl (lead ++ text) := by
  rintro ⟨d, hd, hstart⟩
  cases hd
  rcases List.mem_cons.1 hlead with rfl | hlead
  · exact absurd (List.cons_prefix_cons.1 hstart).1 (by decide)
  · obtain rfl := List.mem_singleton.1 hlead
    exact absurd (List.cons_prefix_cons.1 (List.cons_prefix_cons.1 hstart).2).1 (by decide)

/-- A comment of any length is one token. -/
theorem takes_blockComment {text : List Char} (htext : ¬ ['*', '/'] <:+: text) (rest : List Char) :
    Takes .hcl ('/' :: '*' :: (text ++ '*' :: '/' :: rest))
      (.blockComment (byteLength ('/' :: '*' :: (text ++ ['*', '/'])))) rest := by
  have hfirst : ∀ a b, text = a ++ b → b ≠ [] → ¬ ['*', '/'] <+: b ++ ('*' :: '/' :: rest) := by
    rintro a b rfl hb hstart
    match b, hb, hstart with
    | [c], _, hstart =>
        exact absurd (List.cons_prefix_cons.1 (List.cons_prefix_cons.1 hstart).2).1 (by decide)
    | c :: d :: b, _, hstart =>
        obtain ⟨hc, hstart⟩ := List.cons_prefix_cons.1 hstart
        obtain ⟨hd, -⟩ := List.cons_prefix_cons.1 hstart
        exact htext ⟨a, b, by simp [← hc, ← hd]⟩
  exact .blockComment (d := Lexis.starred) rfl hfirst

/-- A comment up to the end of its line ends what counts. -/
theorem depthDeltaFrom_lineComment {lead : List Char} (hlead : lead ∈ Lexis.hcl.lineComments)
    {text : List Char} (htext : '\n' ∉ text) (delta : Int) :
    depthDeltaFrom .hcl delta (lead ++ text) = delta := by
  rw [depthDeltaFrom.eq_def,
    token?_of_unended hcl_lines (.lineComment (not_opensBlock_lead hlead text) hlead htext)]

/-- A comment of any length counts for nothing. -/
theorem depthDeltaFrom_blockComment {text : List Char} (htext : ¬ ['*', '/'] <:+: text)
    (delta : Int) (rest : List Char) :
    depthDeltaFrom .hcl delta ('/' :: '*' :: (text ++ '*' :: '/' :: rest))
      = depthDeltaFrom .hcl delta rest := by
  rw [depthDeltaFrom.eq_def, token?_of_takes hcl_lines (takes_blockComment htext rest)]

/-! ## The lines of a body -/

/-- A line that assigns nothing: it is blank or holds one comment. -/
inductive Filler : List Char → Prop
  | blank {b : List Char} (hb : AllBlank b) : Filler b
  | lineComment {b lead text : List Char} (hb : AllBlank b)
    (hlead : lead = ['#'] ∨ lead = ['/', '/']) :
      Filler (b ++ (lead ++ text))
  | blockComment {b text b' : List Char} (hb : AllBlank b) (htext : ¬ ['*', '/'] <:+: text)
    (hb' : AllBlank b') :
      Filler (b ++ ('/' :: '*' :: (text ++ '*' :: '/' :: b')))

/-- A line that opens the nested block of a name: the name has a value in front of the end of the
line, or labels and a brace. -/
inductive Opener : List Char → List Char → Prop
  | value {b name b' rest : List Char} (hb : AllBlank b) (hname : IsName name) (hb' : AllBlank b') :
      Opener name (b ++ (name ++ (b' ++ '=' :: rest)))
  | block {b name labels b' rest : List Char} (hb : AllBlank b) (hname : IsName name)
    (hlabels : Labels labels)
      (hb' : AllBlank b') : Opener name (b ++ (name ++ (labels ++ (b' ++ '\x7b' :: rest))))

/-- At a depth, some lines keep brackets open, and a last line closes all of them. -/
inductive Closes : Int → List (List Char) → List Char → Prop
  | last {depth : Int} {last : List Char} (h : depth + opened last = 0) : Closes depth [] last
  | line {depth : Int} {line last : List Char} {inner : List (List Char)}
    (hopen : 0 < depth + opened line)
      (h : Closes (depth + opened line) inner last) : Closes depth (line :: inner) last

/-- The attributes that lines assign, piece by piece; the first line has number `n`. -/
inductive Assigns : Nat → List (List Char) → List Attribute → Prop
  | nil (n : Nat) : Assigns n [] []
  /-- A line that assigns nothing. -/
  | filler {n : Nat} {line : List Char} {lines : List (List Char)} {attributes : List Attribute}
      (hline : Filler line) (h : Assigns (n + 1) lines attributes) : Assigns n
        (line :: lines) attributes
  /-- A value on one line. -/
  | value {n : Nat} {b name b' rest : List Char} {lines : List (List Char)}
    {attributes : List Attribute}
      (hb : AllBlank b) (hname : IsName name) (hb' : AllBlank b')
      (hflat : opened (b ++ (name ++ (b' ++ '=' :: rest))) = 0)
        (hvalue : ¬ OpensDocument (trim rest))
      (h : Assigns (n + 1) lines attributes) :
      Assigns n ((b ++ (name ++ (b' ++ '=' :: rest))) :: lines)
        (⟨String.ofList name, String.ofList (trim rest), n, false⟩ :: attributes)
  /-- A nested block, or a value over several lines. -/
  | nested {n : Nat} {name line last : List Char} {inner lines : List (List Char)}
    {attributes : List Attribute}
      (hline : Opener name line) (hopen : 0 < opened line)
        (hinner : Closes (opened line) inner last)
      (h : Assigns (n + inner.length + 2) lines attributes) :
      Assigns n (line :: (inner ++ last :: lines))
        (⟨String.ofList name, String.ofList (['\n'].intercalate inner), n, true⟩ :: attributes)
  /-- A here-document, up to the line with its tag. -/
  | document {n : Nat} {b name b' rest dash tag last : List Char} {inner lines : List (List Char)}
      {attributes : List Attribute} (hb : AllBlank b) (hname : IsName name) (hb' : AllBlank b')
      (hvalue : trim rest = '<' :: '<' :: (dash ++ tag)) (hdash : IsDash dash) (hne : tag ≠ [])
      (htag : ∀ c ∈ tag, isWordChar c = true) (hinner : ∀ line ∈ inner, trim line ≠ tag)
        (hlast : trim last = tag)
      (h : Assigns (n + inner.length + 2) lines attributes) :
      Assigns n ((b ++ (name ++ (b' ++ '=' :: rest))) :: (inner ++ last :: lines))
        (⟨String.ofList name, String.ofList (trim rest), n, false⟩ :: attributes)

/-- A blank line or one that is a comment opens nothing. -/
theorem opened_filler {line : List Char} (h : Filler line) (hline : '\n' ∉ line) :
    opened line = 0 := by
  have hfront : ∀ {b : List Char}, AllBlank b → ∀ rest,
      depthDeltaFrom .hcl 0 (b ++ rest) = depthDeltaFrom .hcl 0 rest := by
    intro b hb rest
    have hplain : ∀ c ∈ b, IsPlain c := fun c hc => isPlain_of_isBlank (hb c hc)
    rw [depthDeltaFrom_append fun c hc => (hplain c hc).1, weight_plain hplain]
  cases h with
  | blank hb => exact opened_plain fun c hc => isPlain_of_isBlank (hb c hc)
  | @lineComment b lead text hb hlead =>
      have hmem : lead ∈ Lexis.hcl.lineComments := by
        rcases hlead with rfl | rfl
        · exact List.mem_cons_self
        · exact List.mem_cons_of_mem _ List.mem_cons_self
      have htext : '\n' ∉ text := fun h => hline (by simp [h])
      exact (hfront hb _).trans (depthDeltaFrom_lineComment hmem htext 0)
  | @blockComment b text b' hb htext hb' =>
      exact (hfront hb _).trans ((depthDeltaFrom_blockComment htext 0 b').trans
        (opened_plain fun c hc => isPlain_of_isBlank (hb' c hc)))

/-- A blank line or one that is a comment is the header of no attribute. -/
theorem ofLine?_filler {line : List Char} (h : Filler line) : Header.ofLine? line = none := by
  refine ofLine?_eq_none fun c hc => ?_
  cases h with
  | blank hb =>
      have htrim := trimStart_append_blank hb []
      rw [List.append_nil] at htrim
      rw [htrim] at hc
      cases hc
  | @lineComment b lead text hb hlead =>
      rcases hlead with rfl | rfl
      · rw [List.cons_append, trimStart_blank_cons hb (isBlank_of_isPrinted (by decide))] at hc
        cases hc
        decide
      · rw [List.cons_append, trimStart_blank_cons hb (isBlank_of_isPrinted (by decide))] at hc
        cases hc
        decide
  | blockComment hb _ _ =>
      rw [trimStart_blank_cons hb (isBlank_of_isPrinted (by decide))] at hc
      cases hc
      decide

/-- The line that starts a here-document opens no bracket. -/
theorem opened_document {b name b' rest dash tag : List Char} (hb : AllBlank b)
    (hname : IsName name) (hb' : AllBlank b') (hvalue : trim rest = '<' :: '<' :: (dash ++ tag))
    (hdash : IsDash dash) (htag : ∀ c ∈ tag, isWordChar c = true) :
    opened (b ++ (name ++ (b' ++ '=' :: rest))) = 0 := by
  obtain ⟨a, a', hsplit, ha, ha', -, -⟩ := exists_trim rest
  rw [hvalue] at hsplit
  have hdash' : ∀ c ∈ dash, IsPlain c := by
    rcases hdash with rfl | rfl
    · nofun
    · exact List.forall_mem_singleton.2 ⟨by decide, by decide⟩
  have hrest : ∀ c ∈ rest, IsPlain c := by
    rw [hsplit]
    simp only [List.forall_mem_append, List.forall_mem_cons]
    exact ⟨fun c hc => isPlain_of_isBlank (ha c hc),
      ⟨⟨by decide, by decide⟩, ⟨by decide, by decide⟩, hdash',
      fun c hc => isPlain_of_isWordChar (htag c hc)⟩, fun c hc => isPlain_of_isBlank (ha' c hc)⟩
  refine opened_plain ?_
  simp only [List.forall_mem_append, List.forall_mem_cons]
  exact ⟨fun c hc => isPlain_of_isBlank (hb c hc), isPlain_of_isName hname,
    fun c hc => isPlain_of_isBlank (hb' c hc), ⟨by decide, by decide⟩, hrest⟩

/-! ## Steps -/

/-- A here-document ends with the first line that is its tag. -/
theorem attributesFrom_document {tag last : List Char} {inner : List (List Char)}
    (hinner : ∀ line ∈ inner, trim line ≠ tag) (hlast : trim last = tag) (n : Nat)
    (lines : List (List Char)) :
    attributesFrom (.document (String.ofList tag)) n (inner ++ last :: lines) =
      attributesFrom (.among 0) (n + inner.length + 1) lines := by
  induction inner generalizing n with
  | nil =>
      rw [List.nil_append, attributesFrom, String.toList_ofList, if_pos hlast]
      rfl
  | cons line inner ih =>
      obtain ⟨hline, hinner⟩ := List.forall_mem_cons.1 hinner
      rw [List.cons_append, attributesFrom, String.toList_ofList, if_neg hline, ih hinner,
        List.length_cons]
      congr 1
      omega

/-- A nested block ends with the first line behind which no bracket is open. -/
theorem attributesFrom_nested {depth : Int} {inner : List (List Char)} {last : List Char}
    (h : Closes depth inner last) (name : String) (start n : Nat)
    (before lines : List (List Char)) :
    attributesFrom (.nested name start depth before) n (inner ++ last :: lines) =
      nestedAttribute name start (inner.reverse ++ before) ::
        attributesFrom (.among 0) (n + inner.length + 1) lines := by
  induction h generalizing n before with
  | last h =>
      rw [List.nil_append, attributesFrom, h, if_neg (by decide)]
      rfl
  | @line depth line last inner hopen h ih =>
      rw [List.cons_append, attributesFrom, if_pos hopen, ih, List.reverse_cons, List.append_assoc,
        List.length_cons]
      congr 2
      omega

/-- A blank line or one that is a comment is passed over among attributes. -/
theorem attributesFrom_filler {line : List Char} (h : Filler line) (hline : '\n' ∉ line) (n : Nat)
    (lines : List (List Char)) :
    attributesFrom (.among 0) n (line :: lines) = attributesFrom (.among 0) (n + 1) lines := by
  rw [attributesFrom, if_pos rfl, ofLine?_filler h, opened_filler h hline]
  rfl

/-- A line whose header has a value, and that opens no bracket. -/
theorem attributesFrom_value {line : List Char} {name value : String}
    (hheader : Header.ofLine? line = some ⟨name, some value⟩) (hflat : opened line = 0) (n : Nat)
    (lines : List (List Char)) : attributesFrom (.among 0) n (line :: lines) =
      ⟨name, value, n, false⟩ :: attributesFrom (behindValue value) (n + 1) lines := by
  rw [attributesFrom, if_pos rfl, hheader]
  dsimp only
  rw [hflat, if_neg (by decide)]

/-- A line with a header that opens brackets. -/
theorem attributesFrom_opener {line : List Char} {header : Header}
    (hheader : Header.ofLine? line = some header) (hopen : 0 < opened line) (n : Nat)
    (lines : List (List Char)) :
    attributesFrom (.among 0) n (line :: lines) =
      attributesFrom (.nested header.name n (opened line) []) (n + 1) lines := by
  rw [attributesFrom, if_pos rfl, hheader]
  dsimp only
  rw [if_pos hopen]

/-- A line that opens an item is read as its header. -/
theorem ofLine?_opener {name line : List Char} (h : Opener name line) (hline : '\n' ∉ line) :
    ∃ value?, Header.ofLine? line = some ⟨String.ofList name, value?⟩ := by
  cases h with
  | value hb hname hb' => exact ⟨_, ofLine?_value hb hname hb' hline⟩
  | block hb hname hlabels hb' => exact ⟨_, ofLine?_nested hb hname hlabels hb'⟩

/-- The line that starts a here-document. -/
theorem attributesFrom_start {b name b' rest dash tag : List Char} (hb : AllBlank b)
    (hname : IsName name) (hb' : AllBlank b') (hvalue : trim rest = '<' :: '<' :: (dash ++ tag))
    (hdash : IsDash dash) (hne : tag ≠ []) (htag : ∀ c ∈ tag, isWordChar c = true)
    (hline : '\n' ∉ b ++ (name ++ (b' ++ '=' :: rest))) (n : Nat) (lines : List (List Char)) :
    attributesFrom (.among 0) n ((b ++ (name ++ (b' ++ '=' :: rest))) :: lines) =
      ⟨String.ofList name, String.ofList (trim rest), n, false⟩ ::
        attributesFrom (.document (String.ofList tag)) (n + 1) lines := by
  have hheader := ofLine?_value hb hname hb' hline
  have hflat := opened_document hb hname hb' hvalue hdash htag
  have hdocument := @documentTag?_document _ _ [] hdash hne htag nofun
  rw [List.append_nil] at hdocument
  rw [attributesFrom_value hheader hflat, behindValue, hvalue, hdocument]

/-! ## Bodies -/

/-- The attributes found in lines start with those that the pieces of the first lines assign. -/
theorem attributesFrom_append {n : Nat} {lines : List (List Char)} {attributes : List Attribute}
    (h : Assigns n lines attributes) (hlines : ∀ line ∈ lines, '\n' ∉ line)
    (more : List (List Char)) :
    attributesFrom (.among 0) n (lines ++ more)
      = attributes ++ attributesFrom (.among 0) (n + lines.length) more := by
  induction h with
  | nil n => rfl
  | filler hline h ih =>
      -- each item is read as a whole, and the number of the line goes on behind it
      obtain ⟨hnewline, hlines⟩ := List.forall_mem_cons.1 hlines
      rw [List.cons_append, attributesFrom_filler hline hnewline, ih hlines, List.length_cons,
        Nat.add_right_comm _ 1, Nat.add_assoc]
  | value hb hname hb' hflat hvalue h ih =>
      obtain ⟨hnewline, hlines⟩ := List.forall_mem_cons.1 hlines
      have hheader := ofLine?_value hb hname hb' hnewline
      rw [List.cons_append, attributesFrom_value hheader hflat, behindValue,
        documentTag?_eq_none hvalue, ih hlines, List.length_cons, Nat.add_right_comm _ 1,
          Nat.add_assoc]
      rfl
  | @nested n _ _ last inner lines _ hline hopen hinner h ih =>
      -- a nested value takes its opening line, its inner lines and its closing line
      simp only [List.forall_mem_cons, List.forall_mem_append] at hlines
      obtain ⟨value?, hheader⟩ := ofLine?_opener hline hlines.1
      have hlength : n + (inner.length + (lines.length + 1) + 1)
          = n + inner.length + 2 + lines.length := by omega
      rw [List.cons_append, List.append_assoc, List.cons_append,
        attributesFrom_opener hheader hopen, attributesFrom_nested hinner, List.append_nil,
          nestedAttribute, List.reverse_reverse, Nat.add_right_comm _ 1,
        ih hlines.2.2.2, List.length_cons, List.length_append, List.length_cons, hlength]
      rfl
  | @document n _ _ _ _ _ _ last inner lines _ hb hname hb' hvalue hdash hne htag hinner
    hlast h ih =>
      simp only [List.forall_mem_cons, List.forall_mem_append] at hlines
      have hlength : n + (inner.length + (lines.length + 1) + 1)
          = n + inner.length + 2 + lines.length := by omega
      rw [List.cons_append, List.append_assoc, List.cons_append,
        attributesFrom_start hb hname hb' hvalue hdash hne htag hlines.1,
          attributesFrom_document hinner hlast,
        Nat.add_right_comm _ 1, ih hlines.2.2.2, List.length_cons, List.length_append,
          List.length_cons, hlength]
      rfl

/-- The attributes found in lines are those that their pieces assign. -/
theorem attributesFrom_of_assigns {n : Nat} {lines : List (List Char)} {attributes : List Attribute}
    (h : Assigns n lines attributes) (hlines : ∀ line ∈ lines, '\n' ∉ line) :
    attributesFrom (.among 0) n lines = attributes := by
  have hall := attributesFrom_append h hlines []
  have hend : attributesFrom (.among 0) (n + lines.length) [] = [] := rfl
  rwa [List.append_nil, hend, List.append_nil] at hall

/-- The attributes of a body are those that the pieces of its lines assign. -/
theorem attributesOf_of_assigns {body : List Char} {n : Nat} {attributes : List Attribute}
    (h : Assigns n (lines body) attributes) : attributesOf body n = attributes :=
  attributesFrom_of_assigns h fun _ hline => newline_not_mem_of_mem_lines hline

/-- A body with a comment, a nested block and a here-document has the attributes around the texts in
them. -/
theorem attributesOf_of_assigns_document :
    attributesOf "# a = 1\ntags = \x7b\n  b = 2\n\x7d\ndoc = <<-EOT\nc = 3\n EOT\nend = 4\n".toList
      1 =
      [⟨"tags", "  b = 2", 2, true⟩, ⟨"doc", "<<-EOT", 5, false⟩, ⟨"end", "4", 8, false⟩] := by
  have hlines : lines
      "# a = 1\ntags = \x7b\n  b = 2\n\x7d\ndoc = <<-EOT\nc = 3\n EOT\nend = 4\n".toList =
      ["# a = 1", "tags = \x7b", "  b = 2", "\x7d", "doc = <<-EOT", "c = 3", " EOT", "end = 4"].map
        String.toList := by
    decide
  -- the items are read from the last to the first, as each goes on to what is behind it
  have hend : Assigns 8 ["end = 4".toList] [⟨"end", "4", 8, false⟩] := by
    have htrim : trim " 4".toList = ['4'] := trim_space_cons (s := ['4']) rfl rfl
    have hflat : opened "end = 4".toList = 0 :=
      (opened_eq_weight (by simp [starters])).trans (by decide)
    have hvalue : ¬ OpensDocument (trim " 4".toList) := by
      rintro ⟨dash, c, rest, h, -⟩
      cases htrim.symm.trans h
    have hassigns := @Assigns.value 8 [] "end".toList [' '] " 4".toList [] [] nofun
      (isName_of_isAlpha (by decide)) allBlank_space hflat hvalue (.nil _)
    rwa [htrim] at hassigns
  have hdocument : Assigns 5 (["doc = <<-EOT", "c = 3", " EOT", "end = 4"].map String.toList)
      [⟨"doc", "<<-EOT", 5, false⟩, ⟨"end", "4", 8, false⟩] := by
    have htrim : trim " <<-EOT".toList = "<<-EOT".toList :=
      trim_space_cons (s := "<<-EOT".toList) rfl rfl
    have htag : ∀ d ∈ "EOT".toList, isWordChar d = true := fun d hd =>
      isWordChar_of_isAlpha
        (List.all_eq_true.1 (by decide : "EOT".toList.all Char.isAlpha = true) d hd)
    have hinner : ∀ line ∈ ["c = 3".toList], trim line ≠ "EOT".toList := by
      refine List.forall_mem_singleton.2 ?_
      rw [trim_of_printed rfl rfl]
      decide
    have hassigns := @Assigns.document 5 [] "doc".toList [' '] " <<-EOT".toList ['-'] "EOT".toList
      " EOT".toList ["c = 3".toList] ["end = 4".toList] _ nofun (isName_of_isAlpha (by decide))
      allBlank_space htrim (.inr rfl) (by decide) htag hinner
        (trim_space_cons (s := "EOT".toList) rfl rfl) hend
    rwa [htrim] at hassigns
  have htags : Assigns 2
      (["tags = \x7b", "  b = 2", "\x7d", "doc = <<-EOT", "c = 3", " EOT", "end = 4"].map
        String.toList)
      [⟨"tags", "  b = 2", 2, true⟩, ⟨"doc", "<<-EOT", 5, false⟩, ⟨"end", "4", 8, false⟩] := by
    have hopener : Opener "tags".toList "tags = \x7b".toList :=
      @Opener.value [] "tags".toList [' '] " \x7b".toList nofun (isName_of_isAlpha (by decide))
        allBlank_space
    have hopen : opened "tags = \x7b".toList = 1 :=
      (opened_eq_weight (by simp [starters])).trans (by decide)
    have hflat : opened "  b = 2".toList = 0 :=
      (opened_eq_weight (by simp [starters])).trans (by decide)
    have hclose : opened "\x7d".toList = -1 :=
      (opened_eq_weight (by simp [starters])).trans (by decide)
    have hcloses : Closes (opened "tags = \x7b".toList) ["  b = 2".toList] "\x7d".toList := by
      rw [hopen]
      exact .line (by rw [hflat]; decide) (.last (by rw [hflat, hclose]; decide))
    exact .nested hopener (by rw [hopen]; decide) hcloses hdocument
  refine attributesOf_of_assigns ?_
  rw [hlines]
  exact .filler (@Filler.lineComment [] ['#'] " a = 1".toList nofun (.inl rfl)) htags

/-- A here-document goes on to the end if no line is its tag. -/
theorem attributesFrom_unended {tag : List Char} {lines : List (List Char)}
    (h : ∀ line ∈ lines, trim line ≠ tag) (n : Nat) :
    attributesFrom (.document (String.ofList tag)) n lines = [] := by
  induction lines generalizing n with
  | nil => rfl
  | cons line lines ih =>
      obtain ⟨hline, hlines⟩ := List.forall_mem_cons.1 h
      rw [attributesFrom, String.toList_ofList, if_neg hline, ih hlines]

/-- The tag of this document is read up to its hyphen, so the document does not end. -/
theorem attributesOf_hyphenTag :
    attributesOf "x = <<END-X\ntext\nEND-X\ny = 1\n".toList 1 = [⟨"x", "<<END-X", 1, false⟩] := by
  have hlines : lines "x = <<END-X\ntext\nEND-X\ny = 1\n".toList =
      "x = <<END-X".toList :: ["text", "END-X", "y = 1"].map String.toList := by decide
  have htrim : trim " <<END-X".toList = "<<END-X".toList :=
    trim_space_cons (s := "<<END-X".toList) rfl rfl
  have hheader : Header.ofLine? "x = <<END-X".toList = some ⟨"x", some "<<END-X"⟩ := by
    have hline := @ofLine?_value [] "x".toList [' '] " <<END-X".toList nofun
      (isName_of_isAlpha (by decide)) allBlank_space (by decide)
    rwa [htrim] at hline
  have hflat : opened "x = <<END-X".toList = 0 :=
    (opened_eq_weight (by simp [starters])).trans (by decide)
  have hword : ∀ d ∈ "END".toList, isWordChar d = true := fun d hd =>
    isWordChar_of_isAlpha
      (List.all_eq_true.1 (by decide : "END".toList.all Char.isAlpha = true) d hd)
  have htag : documentTag? "<<END-X" = some (String.ofList "END".toList) := by
    refine @documentTag?_document [] "END".toList "-X".toList (.inl rfl) (by decide) hword ?_
    intro d hd
    cases hd
    exact not_isWordChar_hyphen
  have hends : ∀ line ∈ ["text", "END-X", "y = 1"].map String.toList, trim line ≠ "END".toList := by
    simp only [List.map_cons, List.map_nil, List.forall_mem_cons]
    refine ⟨?_, ?_, ?_, nofun⟩ <;>
      · rw [trim_of_printed rfl rfl]
        decide
  rw [attributesOf, hlines, attributesFrom_value hheader hflat, behindValue, htag]
  dsimp only
  rw [attributesFrom_unended hends]

end CodeAtlas.Source.Terraform
