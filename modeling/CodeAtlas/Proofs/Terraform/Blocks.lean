import CodeAtlas.Proofs.Pattern.Finding
import CodeAtlas.Proofs.Terraform.Body
import CodeAtlas.Proofs.Terraform.Headings
import CodeAtlas.Proofs.Text.Balanced

/-!
# The blocks of a file

A file is written as lines and blocks one below the other. The headings of its blocks are found by a
pattern that looks at the start of every line, and their bodies by the brace that closes the one of
the heading. So the blocks found are those that the file is written with, in order and with the
bodies they are written with, if the braces of every body balance and no other line starts a
heading: what looks like a heading in a body is passed over with the body.
-/

namespace CodeAtlas.Source.Terraform

open Pattern Unicode CharSet Text

/-! ## Labels -/

/-- The labels are the texts in quotes. -/
theorem labels_labelsText (labels : List Label) :
    (quotedLabel.findAll (labelsText labels)).map (·.text 1) = labels.map fun l =>
      String.ofList l.content := by
  have hsteady : quotedNode.Steady :=
    ⟨trivial, ⟨regular_unquotedChars, fun _ => rfl⟩, trivial, trivial⟩
  -- a label begins at a quote, so nothing matches in a gap
  have hnone : ∀ {p : Place} {c : Char} {rest : List Char}, p.rest = c :: rest → c ≠ '"' →
      quotedNode.ways p = [] := by
    intro p c rest hp hc
    refine List.eq_nil_iff_forall_not_mem.2 fun v hv => ?_
    obtain ⟨w, hw, -⟩ := mem_andThen.1 hv
    have hquote := hp.symm.trans (mem_ways_text hw)
    exact hc (List.cons.inj hquote).1
  -- one match for each label, by induction on the labels from any place
  have hfinds : ∀ {labels : List Label} {p : Place}, p.rest = labelsText labels →
      ∃ fs, Finds quotedNode p fs ∧
      (fs.map (ofNode quotedNode).toMatch).map (·.text 1) = labels.map fun l =>
        String.ofList l.content := by
    intro labels
    induction labels with
    | nil => exact fun hp => ⟨[], .done hp, rfl⟩
    | cons l labels ih =>
        intro p hp
        have hsplit : p.rest = l.gap ++ (['"'] ++ (l.content ++ (['"'] ++ labelsText labels))) := by
          rw [hp]
          simp [labelsText, Label.text]
        have h1 := Place.rest_behind hsplit
        have h2 := Place.rest_behind h1
        have h3 := Place.rest_behind h2
        obtain ⟨fs, hfs, hlabels⟩ := ih (Place.rest_behind h3)
        have hcontent := @head_group 1 none _ _ _ _ (head_ways_star h2
          (fun d hd => contains_unquotedChars.2 fun heq => l.unquoted (heq ▸ hd)) fun d hd => by
            cases hd
            rw [← Bool.not_eq_true, contains_unquotedChars]
            exact not_not_intro rfl)
        have hclose := @head_rowWays (.text ['"']) [] _ _ _ _ [] (by rw [ways_text h3]; rfl) rfl
        have hway := @head_rowWays (.text ['"']) _ _ _ _ [] _ (by rw [ways_text h1]; rfl)
          (head_rowWays hcontent hclose)
        -- the gap is passed, and behind it the quoted text is taken
        refine ⟨_, finds_of_front hsplit (fun b c hbc hc => ?_) (.take hway hfs), ?_⟩
        · obtain ⟨d, c, rfl⟩ := List.exists_cons_of_ne_nil hc
          rw [hbc, List.append_assoc] at hsplit
          refine hnone (Place.rest_behind hsplit) ?_
          rcases l.isGap d (hbc ▸ List.mem_append_right _ List.mem_cons_self) with rfl | rfl
            <;> decide
        · rw [List.map_cons, List.map_cons, hlabels, List.map_cons]
          have htext : ∀ f : Found, f.start.rest
              = ['"'] ++ (l.content ++ (['"'] ++ labelsText labels)) →
              f.saves.lookup 2 = some (f.start.offset + byteLength ['"']) →
              f.saves.lookup 3 = some (f.start.offset + byteLength ['"'] + byteLength l.content) →
              ((ofNode quotedNode).toMatch f).text 1 = String.ofList l.content := by
            intro f hrest hstart hstop
            rw [Match.text,
              @group?_toMatch (ofNode quotedNode) f 1 (by decide) _ _ _ hrest hstart hstop]
            rfl
          refine congrArg (· :: _)
            (htext _ h1 (congrArg some (Place.offset_behind _ _)) (congrArg some ?_))
          rw [Place.offset_behind, Place.offset_behind]
  obtain ⟨fs, hfs, hlabels⟩ := hfinds (p := .start (labelsText labels)) rfl
  rw [quotedLabel_eq, findAll_ofNode hsteady rfl hfs, hlabels]

/-! ## Files -/

/-- A block as it is written. -/
structure Declaration where
  heading : Heading
  body : List Char

/-- A block as it stands in a text, from its heading to its brace. -/
def Declaration.text (d : Declaration) : List Char := d.heading.text ++ (d.body ++ ['\x7d'])

/-- A line of a file outside of blocks, or a block with the rest of the line on which it ends. -/
inductive Piece where
  | line (text : List Char)
  | block (d : Declaration) (tail : List Char)

/-- A piece of a file as it stands in a text, without the newline. -/
def Piece.text : Piece → List Char
  | .line text => text
  | .block d tail => d.text ++ tail

/-- The declaration that a piece of a file is, if it is a block. -/
def Piece.declaration? : Piece → Option Declaration
  | .line _ => none
  | .block d _ => some d

/-- The text of pieces one below the other. -/
def render (pieces : List Piece) : List Char := ['\n'].intercalate (pieces.map Piece.text)

/-- The text that pieces add below others. -/
def below (pieces : List Piece) : List Char := pieces.flatMap fun p => '\n' :: p.text

/-- A file starts with its first piece, and the others stand below. -/
theorem render_cons (p : Piece) (pieces : List Piece) :
    render (p :: pieces) = p.text ++ below pieces := by
  induction pieces generalizing p with
  | nil => simp [render, below]
  | cons q pieces ih =>
      have hmore := ih q
      rw [render, List.map_cons] at hmore
      rw [render, List.map_cons, List.map_cons, List.intercalate_cons_cons, hmore,
        List.append_assoc]
      rfl

/-- A text is cut into tokens up to what stands behind it, whatever follows. -/
def CutsUp (text next : List Char) (ts : List Token) : Prop :=
  ∀ rest, Cuts .hcl (text ++ (next ++ rest)) ts (next ++ rest)

/-- Tokens close only braces that they have opened, and all of these. -/
structure Nested (ts : List Token) : Prop where
  open_all : ∀ us, us <+: ts → 0 ≤ excess '\x7b' '\x7d' us
  closed : excess '\x7b' '\x7d' ts = 0

/-- The braces of a text balance, up to what stands behind it. -/
def Balanced (text next : List Char) : Prop := ∃ ts, CutsUp text next ts ∧ Nested ts

section
variable {front mid mid' back next : List Char} {ts us : List Token}

/-- A text that is cut up in front of another is cut into the same tokens there. -/
theorem CutsUp.cuts (h : CutsUp front next ts) {rest : List Char} (hnext : next <+: rest) :
    Cuts .hcl (front ++ rest) ts rest := by
  obtain ⟨back, rfl⟩ := hnext
  exact h back

/-- Behind some of the tokens of a text the others are those of the rest. -/
theorem CutsUp.exists_behind (h : CutsUp (front ++ back) next us) (hfront : CutsUp front back ts) :
    ∃ vs, us = ts ++ vs ∧ CutsUp back next vs := by
  have hcuts : ∀ rest, ∃ vs, us = ts ++ vs ∧ Cuts .hcl (back ++ (next ++ rest)) vs (next ++ rest) :=
    fun rest => by
    have hall := h rest
    rw [List.append_assoc] at hall
    refine (hfront (next ++ rest)).exists_behind hcl_lines hall ?_
    rw [@List.length_append _ back]
    exact Nat.le_add_left _ _
  obtain ⟨vs, hvs, -⟩ := hcuts []
  refine ⟨vs, hvs, fun rest => ?_⟩
  obtain ⟨ws, hws, hrest⟩ := hcuts rest
  rwa [List.append_cancel_left (hvs.symm.trans hws)]

/-- Tokens that open and close the same braces may be put in place of others. -/
theorem Nested.replace {vs vs' : List Token} (h : Nested (ts ++ (vs ++ us))) (hvs : Nested vs)
    (hvs' : Nested vs') :
    Nested (ts ++ (vs' ++ us)) := by
  -- both parts leave as many braces open as there were in front of them
  have hbehind : ∀ ws, excess '\x7b' '\x7d' (ts ++ (vs' ++ ws))
      = excess '\x7b' '\x7d' (ts ++ (vs ++ ws)) := by
    intro ws
    rw [excess_append, excess_append vs', hvs'.closed, excess_append, excess_append vs, hvs.closed]
  refine ⟨fun ws hws => ?_, (hbehind us).trans h.closed⟩
  rcases prefix_append_cases hws with hws | ⟨ws, rfl, hmid⟩
  · exact h.open_all ws (hws.trans (List.prefix_append _ _))
  · rcases prefix_append_cases hmid with hws | ⟨ws, rfl, hback⟩
    · have hfront := h.open_all ts (List.prefix_append _ _)
      have hinside := hvs'.open_all ws hws
      rw [excess_append]
      omega
    · rw [hbehind]
      refine h.open_all _ ?_
      rw [List.prefix_append_right_inj, List.prefix_append_right_inj]
      exact hback

/-- A part of a text whose braces balance may be replaced by another one. -/
theorem Balanced.replace {lead : List Char} (h : Balanced (front ++ (mid ++ back)) next)
    (hfront : CutsUp front lead ts) (hmid : Balanced mid []) (hmid' : Balanced mid' [])
    (hlead : lead <+: mid) (hlead' : lead <+: mid') :
    Balanced (front ++ (mid' ++ back)) next := by
  obtain ⟨all, hall, hnested⟩ := h
  obtain ⟨vs, hvs, hnestedvs⟩ := hmid
  obtain ⟨vs', hvs', hnestedvs'⟩ := hmid'
  obtain ⟨ws, rfl, hws⟩ := hall.exists_behind fun rest => by
    rw [List.append_assoc]
    exact hfront.cuts (hlead.trans (List.prefix_append _ _))
  obtain ⟨us, rfl, hus⟩ := hws.exists_behind fun rest => hvs.cuts List.nil_prefix
  refine ⟨ts ++ (vs' ++ us), fun rest => ?_, hnested.replace hnestedvs hnestedvs'⟩
  rw [List.append_assoc, List.append_assoc]
  exact (hfront.cuts (hlead'.trans (List.prefix_append _ _))).append
    ((hvs'.cuts List.nil_prefix).append (hus rest))

/-- Brackets that are nested stay so behind each other. -/
theorem Nested.append (hts : Nested ts) (hus : Nested us) : Nested (ts ++ us) := by
  refine ⟨fun ws hws => ?_, by rw [excess_append, hts.closed, hus.closed]; rfl⟩
  rcases prefix_append_cases hws with hws | ⟨ws, rfl, hbehind⟩
  · exact hts.open_all ws hws
  · rw [excess_append, hts.closed]
    have hle := hus.open_all ws hbehind
    omega

/-- Balanced texts behind each other are balanced. -/
theorem Balanced.append (hfront : Balanced front []) (hback : Balanced back next) :
    Balanced (front ++ back) next := by
  obtain ⟨ts, hts, hnested⟩ := hfront
  obtain ⟨us, hus, hnested'⟩ := hback
  refine ⟨ts ++ us, fun rest => ?_, hnested.append hnested'⟩
  rw [List.append_assoc]
  exact (hts.cuts List.nil_prefix).append (hus rest)

/-- Tokens that are no braces. -/
theorem nested_of_forall (h : ∀ t ∈ ts, t ≠ .char '\x7b' ∧ t ≠ .char '\x7d') : Nested ts := by
  have hzero : ∀ us, us ⊆ ts → excess '\x7b' '\x7d' us = 0 := by
    intro us hus
    rw [excess, List.count_eq_zero_of_not_mem fun hmem => (h _ (hus hmem)).1 rfl,
      List.count_eq_zero_of_not_mem fun hmem => (h _ (hus hmem)).2 rfl]
    rfl
  exact ⟨fun us hus => Int.le_of_eq (hzero us hus.subset).symm, hzero ts (List.Subset.refl _)⟩

/-- Whether a character is no brace and starts no comment and no literal. -/
def isFlat (c : Char) : Bool := !('\x7b' :: '\x7d' :: starters).contains c

/-- A character is flat if it is no brace and starts no string or comment. -/
theorem isFlat_iff {c : Char} : isFlat c = true ↔ c ∉ '\x7b' :: '\x7d' :: starters := by
  rw [isFlat, Bool.not_eq_true', ← Bool.not_eq_true, List.contains_iff_mem]

/-- A text in which no comment and no literal starts and no brace stands. -/
theorem balanced_flat {text : List Char} (hflat : text.all isFlat = true) : Balanced text next := by
  have h : ∀ c ∈ text, c ∉ '\x7b' :: '\x7d' :: starters :=
    fun c hc => isFlat_iff.1 (List.all_eq_true.1 hflat c hc)
  clear hflat
  refine ⟨text.map .char, fun rest => ?_, nested_of_forall fun t ht => ?_⟩
  · induction text with
    | nil => exact .nil _
    | cons c text ih =>
        obtain ⟨hc, htext⟩ := List.forall_mem_cons.1 h
        have hstart : c ∉ starters := fun hmem =>
          hc (List.mem_cons_of_mem _ (List.mem_cons_of_mem _ hmem))
        exact .cons (takes_of_token? (token?_hcl hstart _)) (ih htext)
  · obtain ⟨c, hc, rfl⟩ := List.mem_map.1 ht
    refine ⟨fun heq => h c hc ?_, fun heq => h c hc ?_⟩
    · rw [Token.char.inj heq]
      exact List.mem_cons_self
    · rw [Token.char.inj heq]
      exact List.mem_cons_of_mem _ List.mem_cons_self

end

/-- No heading that begins in a line of a text goes on behind the end of the line. -/
def Lined (text : List Char) : Prop := ∀ line ∈ splitChar '\n' text, ¬ InLabel line

/-- A text of two parts with a newline between them is free of headings that go on if both parts
are. -/
theorem lined_append_cons {front back : List Char} :
    Lined (front ++ '\n' :: back) ↔ Lined front ∧ Lined back := by
  rw [Lined, splitChar_append_cons, List.forall_mem_append]
  rfl

/-- Lines and blocks are read as what they are: a line is no heading and starts none, the braces of
a body balance, and no heading begins in a body and ends behind it. -/
inductive Piece.Sound : Piece → Prop
  | line {text : List Char} (hline : '\n' ∉ text) (hlabel : ¬ InLabel text)
      (hheading : ∀ h : Heading, ¬ h.text <+: text) : Sound (.line text)
  | block {d : Declaration} {tail : List Char} (hbody : Balanced d.body ['\x7d'])
    (hlined : Lined d.body)
      (htail : '\n' ∉ tail) : Sound (.block d tail)

/-- Whether a line starts with the word of a block. -/
def startsBlock (line : List Char) : Bool :=
  kinds.any fun kind => kind.word.isPrefixOf (line.dropWhile fun c => c == ' ' || c == '\t')

/-- A line that starts with a word of a kind behind a gap may start a block. -/
theorem startsBlock_word {indent : List Char} (h : IsGap indent) (kind : BlockKind)
    (rest : List Char) :
    startsBlock (indent ++ (kind.word ++ rest)) = true := by
  have hindent : ∀ c ∈ indent, (c == ' ' || c == '\t') = true := by
    intro c hc
    rcases h c hc with rfl | rfl <;> rfl
  have hword : (kind.word ++ rest).dropWhile (fun c => c == ' ' || c == '\t')
      = kind.word ++ rest := by
    obtain ⟨c, cs, hcs⟩ := List.exists_cons_of_ne_nil (word_ne_nil kind)
    have hc := head_word kind rest c (by rw [hcs]; rfl)
    rw [hcs, List.cons_append, List.dropWhile_cons_of_neg]
    simp [hc.1, hc.2]
  rw [startsBlock, List.dropWhile_append_of_pos hindent, hword]
  exact List.any_eq_true.2 ⟨kind, mem_kinds kind,
    List.isPrefixOf_iff_prefix.2 (List.prefix_append _ _)⟩

/-- No label begins in a line that may not start a block. -/
theorem not_inLabel_of_startsBlock {line : List Char} (h : startsBlock line = false) :
    ¬ InLabel line := by
  rintro ⟨indent, kind, labels, gap, content, hindent, -, -, -, rfl⟩
  rw [startsBlock_word hindent] at h
  cases h

/-- A line that starts with no word of a block is read as what it is. -/
theorem sound_line {line : List Char} (hline : '\n' ∉ line) (h : startsBlock line = false) :
    (Piece.line line).Sound := by
  refine .line hline (not_inLabel_of_startsBlock h) ?_
  rintro heading ⟨rest, rfl⟩
  rw [Heading.text, List.append_assoc, List.append_assoc,
    startsBlock_word heading.isGap_indent] at h
  cases h

theorem sound_empty : (Piece.line []).Sound := sound_line nofun (by decide)

/-- A text is free of headings that go on if none of its lines may start a block. -/
theorem lined_of_startsBlock {text : List Char}
    (h : ∀ line ∈ splitChar '\n' text, startsBlock line = false) :
    Lined text := fun line hline => not_inLabel_of_startsBlock (h line hline)

/-- A file with some text. -/
def configuration (rel : String) (content : List Char) : SourceFile where
  rel
  name := "main.tf"
  extension := "tf"
  content

/-- A block of a file is what is written. -/
structure IsWritten (file : String) (b : Block) (d : Declaration) : Prop where
  kind_eq : b.kind = d.heading.kind
  labels_eq : b.labels = d.heading.labels.map fun l => String.ofList l.content
  file_eq : b.file = file
  body_eq : b.body = d.body
  attributes_eq : ∃ n, b.attributes = attributesOf d.body n

/-! ## The block of a heading -/

/-- A kind of block is known by its word. -/
theorem ofWord?_word (kind : BlockKind) :
    BlockKind.ofWord? (String.ofList kind.word) = some kind := by
  cases kind <;> rfl

/-- A heading up to its brace. -/
def Heading.stem (h : Heading) : List Char :=
  h.indent ++ (h.kind.word ++ (labelsText h.labels ++ h.gap))

theorem Heading.text_eq (h : Heading) : h.text = h.stem ++ ['\x7b'] := by simp [text, stem]

/-- The brace that closes a body stands behind it. -/
theorem findBalanced_body {body : List Char} (h : Balanced body ['\x7d']) (front rest : List Char) :
    findBalanced .hcl '\x7b' '\x7d' (front ++ '\x7b' :: (body ++ '\x7d' :: rest)) (byteLength front)
      = some (byteLength front + (1 + byteLength body)) := by
  obtain ⟨ts, hcuts, hnested⟩ := h
  have hopen := takes_of_token? (token?_hcl (c := '\x7b') (by decide) (body ++ '\x7d' :: rest))
  have hclose := takes_of_token? (token?_hcl (c := '\x7d') (by decide) rest)
  have hall : Cuts .hcl ('\x7b' :: (body ++ '\x7d' :: rest))
      ((.char '\x7b' :: ts) ++ [.char '\x7d']) rest :=
    .cons hopen ((hcuts rest).append (.cons hclose (.nil rest)))
  have hshort : Shortest '\x7b' '\x7d' (.char '\x7b' :: ts) (.char '\x7d') := by
    refine (shortest_iff (by decide)).2 ⟨?_, fun us hus => ?_⟩
    · rw [excess_append, hnested.closed]
      decide
    · have hle := hnested.open_all us hus
      omega
  have hbytes : bytesOf (.char '\x7b' :: ts) = 1 + byteLength body := by
    obtain ⟨part, hpart, hsize⟩ := (hcuts rest).exists_append
    rw [bytesOf_cons, List.append_cancel_right hpart, hsize]
    rfl
  exact (findBalanced_eq_some_iff (by simp [Lexis.all]) rfl).2
    ⟨front, _, _, _, rest, rfl, rfl, rfl, hall, hshort, by rw [hbytes]⟩

/-- What is found at a heading. -/
def Heading.found (h : Heading) (p : Place) : Found :=
  ⟨p, p.behind h.text, (1, (p.behind h.text).offset) ::
    ([(5, p.offset + byteLength h.indent + byteLength h.kind.word
      + byteLength (labelsText h.labels)),
        (4, p.offset + byteLength h.indent + byteLength h.kind.word),
      (3, p.offset + byteLength h.indent + byteLength h.kind.word),
        (2, p.offset + byteLength h.indent)] ++
      [(0, p.offset)])⟩

section
variable {h : Heading} {p : Place} {rest : List Char} (hrest : p.rest = h.text ++ rest)
include hrest

/-- The match of a heading has the word of its kind. -/
theorem Heading.textOf_kind :
    (blockHeader.toMatch (h.found p)).textOf "kind" = String.ofList h.kind.word := by
  have hsplit : (h.found p).start.rest = h.indent ++ (h.kind.word ++
      (labelsText h.labels ++ (h.gap ++ '\x7b' :: rest))) := by
    refine hrest.trans ?_
    simp [Heading.text]
  exact textOf_found (i := 1) (by rw [blockHeader_eq]; rfl) (by rw [blockHeader_eq]; decide)
    hsplit rfl rfl

/-- The match of a heading has its labels. -/
theorem Heading.textOf_labels :
    (blockHeader.toMatch (h.found p)).textOf "labels" = String.ofList (labelsText h.labels) := by
  have hsplit : (h.found p).start.rest = (h.indent ++ h.kind.word) ++
      (labelsText h.labels ++ (h.gap ++ '\x7b' :: rest)) := by
    refine hrest.trans ?_
    simp [Heading.text]
  have hbytes : p.offset + byteLength h.indent + byteLength h.kind.word =
      p.offset + byteLength (h.indent ++ h.kind.word) := by rw [byteLength_append, Nat.add_assoc]
  exact textOf_found (i := 2) (by rw [blockHeader_eq]; rfl) (by rw [blockHeader_eq]; decide) hsplit
    (congrArg some hbytes) (congrArg some (congrArg (· + _) hbytes))

end

/-- A heading that is found opens the block whose body stands behind it, and the search goes on
behind the brace that closes the body. -/
theorem blocksFrom_heading {f : SourceFile} {index : LineIndex} {front rest : List Char}
    {d : Declaration} (hcontent : f.content = front ++ (d.text ++ rest))
    (hbody : Balanced d.body ['\x7d']) {start : Nat} (hstart : start ≤ byteLength front)
    (more : List Match) :
    ∃ b, IsWritten f.rel b d ∧
      blocksFrom f index start
        (blockHeader.toMatch (d.heading.found ((Place.start f.content).behind front)) :: more) =
        b :: blocksFrom f index (byteLength (front ++ d.text)) more := by
  obtain ⟨h, body⟩ := d
  have hrest : ((Place.start f.content).behind front).rest
      = h.text ++ (body ++ '\x7d' :: rest) := by
    refine (Place.rest_behind (p := .start f.content) hcontent).trans ?_
    simp [Declaration.text]
  have hoffset : ((Place.start f.content).behind front).offset = byteLength front :=
    (Place.offset_behind _ _).trans (Nat.zero_add _)
  generalize (Place.start f.content).behind front = p at hrest hoffset ⊢
  have hstop : (p.behind h.text).offset = byteLength (front ++ h.stem) + 1 := by
    rw [Place.offset_behind, hoffset, h.text_eq, ← byteLength_append, ← List.append_assoc,
      byteLength_append]
    rfl
  have hsplit : f.content = (front ++ h.stem) ++ '\x7b' :: (body ++ '\x7d' :: rest) := by
    rw [hcontent]
    simp [Declaration.text, Heading.text_eq]
  -- the closing brace is found behind the body, so the slice between the two is the body
  have hfound := findBalanced_body hbody (front ++ h.stem) rest
  rw [← hsplit] at hfound
  have hslice : slice f.content (byteLength (front ++ h.stem) + 1)
      (byteLength (front ++ h.stem) + (1 + byteLength body)) = body := by
    rw [hsplit, ← Nat.add_assoc]
    exact slice_append_cons rfl _ body _
  refine ⟨blockOf f index h.kind (blockHeader.toMatch (h.found p))
      (byteLength (front ++ h.stem) + (1 + byteLength body)),
    ⟨rfl, ?_, rfl, ?_, ?_⟩, ?_⟩
  · rw [blockOf, Heading.textOf_labels hrest, String.toList_ofList]
    exact labels_labelsText h.labels
  · show slice f.content (p.behind h.text).offset _ = _
    rw [hstop, hslice]
  · refine ⟨index.lineOf (p.behind h.text).offset, ?_⟩
    show attributesOf (slice f.content (p.behind h.text).offset _)
      (index.lineOf (p.behind h.text).offset) = _
    rw [hstop, hslice]
  · have hbrace : (p.behind h.text).offset - 1 = byteLength (front ++ h.stem) := by
      rw [hstop, Nat.add_sub_cancel]
    have hle : ¬ p.offset < start := by
      rw [hoffset]
      exact Nat.not_lt.2 hstart
    have hend : byteLength (front ++ h.stem) + (1 + byteLength body) + 1 =
        byteLength (front ++ Declaration.text ⟨h, body⟩) := by
      simp [Declaration.text, Heading.text_eq, show '\x7b'.utf8Size = 1 from rfl,
        show '\x7d'.utf8Size = 1 from rfl]
      omega
    have hstart' : (blockHeader.toMatch (h.found p)).start = p.offset := rfl
    have hstop' : (blockHeader.toMatch (h.found p)).stop = (p.behind h.text).offset := rfl
    rw [blocksFrom, Heading.textOf_kind hrest, ofWord?_word, hstart', if_neg hle, hstop', hbrace,
      hfound, ← hend]

/-- Headings that start in front of where the search goes on open no block. -/
theorem blocksFrom_skip {f : SourceFile} {index : LineIndex} {start : Nat} {found : List Match}
    (h : ∀ m ∈ found, m.start < start) (more : List Match) :
    blocksFrom f index start (found ++ more) = blocksFrom f index start more := by
  induction found with
  | nil => rfl
  | cons m found ih =>
      obtain ⟨hm, hfound⟩ := List.forall_mem_cons.1 h
      rw [List.cons_append, blocksFrom, if_pos hm, ih hfound]

/-! ## The blocks of a text -/

/-- A place in a text is at the start of a line if it is the first one or behind a newline. -/
theorem startsLine_behind {text front rest : List Char} (htext : text = front ++ rest) :
    StartsLine ((Place.start text).behind front) ↔ front = [] ∨ ∃ a, front = a ++ ['\n'] := by
  rcases List.eq_nil_or_concat front with rfl | ⟨a, c, rfl⟩
  · exact ⟨fun _ => .inl rfl, fun _ => .inl rfl⟩
  · rw [List.concat_eq_append] at htext ⊢
    have hrest : ((Place.start text).behind a).rest = c :: rest :=
      Place.rest_behind (p := .start text) (by rw [htext, List.append_assoc]; rfl)
    have hne : ((Place.start text).behind (a ++ [c])).offset ≠ 0 := by
      have hpos := c.utf8Size_pos
      rw [Place.offset_behind, byteLength_append, byteLength_cons]
      omega
    have hbefore : ((Place.start text).behind (a ++ [c])).before = c := by
      rw [Place.behind_append, ← Place.next_eq hrest]
      rfl
    rw [StartsLine, hbefore]
    refine ⟨fun h => .inr ⟨a, ?_⟩, ?_⟩
    · rw [h.resolve_left hne]
    · rintro (hnil | ⟨b, hb⟩)
      · exact absurd hnil (by simp)
      · exact .inr (List.cons.inj (List.append_inj' hb rfl).2).1

/-- A heading starts with a gap or a letter. -/
theorem Heading.head_ne {h : Heading} {text rest : List Char} (htext : h.text ++ rest = text) :
    text.head? ≠ some '\n' := by
  intro hhead
  obtain ⟨text, rfl⟩ := List.head?_eq_some_iff.1 hhead
  have hforeign : IsForeign '\n' := ⟨by decide, by decide⟩
  have hsplit : h.indent ++ (h.kind.word ++ (labelsText h.labels ++ (h.gap ++ '\x7b' :: rest))) =
      [] ++ '\n' :: text := by
    rw [List.nil_append, ← htext]
    simp [Heading.text]
  obtain ⟨u, hu, hword⟩ := exists_behind hsplit (hforeign.not_mem_gap h.isGap_indent)
  obtain ⟨v, hv, -⟩ := exists_behind hword (hforeign.not_mem_word h.kind)
  rw [hv] at hu
  exact word_ne_nil h.kind (List.append_eq_nil_iff.1 (List.append_eq_nil_iff.1 hu.symm).2).1

/-- A heading in a text that ends or goes on with a foreign character is a part of the text, or the
text is inside a label. -/
theorem Heading.prefix_or_inLabel {h : Heading} {text rest rest' : List Char}
    (hrest : h.text ++ rest = text ++ rest') (hnext : ∀ c, rest'.head? = some c → IsForeign c) :
    h.text <+: text ∨ InLabel text := by
  rcases List.append_eq_append_iff.1 hrest with ⟨u, htext, -⟩ | ⟨u, htext, hu⟩
  · exact .inl ⟨u, htext.symm⟩
  · cases u with
    | nil => exact .inl ⟨[], htext.symm ▸ by simp⟩
    | cons c u => exact .inr (Heading.inLabel (hnext c (by rw [hu]; rfl)) htext)

/-- The matches from a place on give the blocks of declarations. -/
structure Yields (f : SourceFile) (index : LineIndex) (p : Place) (found : List Found)
    (ds : List Declaration) :
    Prop where
  finds : Finds headingNode p found
  blocks : ∀ start ≤ p.offset, List.Forall₂ (IsWritten f.rel)
    (blocksFrom f index start (found.map blockHeader.toMatch)) ds

theorem steady_headingNode : headingNode.Steady := ⟨trivial, steady_headingItems⟩

/-- No heading is read at a place that is not the start of a line. -/
theorem ways_heading_eq_nil {text front rest : List Char} (htext : text = front ++ rest)
    (hne : front ≠ []) (hlast : ∀ a, front ≠ a ++ ['\n']) :
    headingNode.ways ((Place.start text).behind front) = [] := by
  refine List.eq_nil_iff_forall_not_mem.2 fun v hv => ?_
  rcases (startsLine_behind htext).1 (mem_ways_heading hv).1 with hnil | ⟨a, ha⟩
  · exact hne hnil
  · exact hlast a ha

/-- If no heading is found at a place, none is found in the rest of the line. -/
theorem finds_tail {text front tail rest : List Char} (htext : text = front ++ (tail ++ rest))
    (htail : '\n' ∉ tail) (hfront : headingNode.ways ((Place.start text).behind front) = [])
    {found : List Found} (h : Finds headingNode ((Place.start text).behind (front ++ tail)) found) :
    Finds headingNode ((Place.start text).behind front) found := by
  rw [Place.behind_append] at h
  refine finds_of_front (Place.rest_behind (p := .start text) htext) (fun b c hbc hc => ?_) h
  rcases List.eq_nil_or_concat b with rfl | ⟨b, d, rfl⟩
  · exact hfront
  · rw [List.concat_eq_append] at hbc ⊢
    rw [← Place.behind_append, ← List.append_assoc]
    refine @ways_heading_eq_nil _ _ (c ++ rest) (by rw [htext, hbc]; simp) (by simp) fun a ha => ?_
    obtain rfl := (List.cons.inj (List.append_inj' ha rfl).2).1
    exact htail (by simp [hbc])

/-- What stands behind a piece. -/
def IsBelow (rest : List Char) : Prop := ∀ c, rest.head? = some c → c = '\n'

theorem isForeign_newline : IsForeign '\n' := ⟨by decide, by decide⟩

/-- What stands below the pieces of a file is foreign to headings. -/
theorem IsBelow.isForeign {rest : List Char} (h : IsBelow rest) :
    ∀ c, rest.head? = some c → IsForeign c :=
  fun c hc => h c hc ▸ isForeign_newline

/-- The first line of a text. -/
theorem exists_line (text : List Char) : ∃ line rest, text = line ++ rest ∧ IsBelow rest ∧
    line ∈ splitChar '\n' text := by
  by_cases hmem : '\n' ∈ text
  · obtain ⟨line, rest, rfl, hline⟩ := List.eq_append_cons_of_mem hmem
    refine ⟨line, '\n' :: rest, rfl, fun c hc => by cases hc; rfl, ?_⟩
    rw [splitChar_append_cons, splitChar_of_not_mem hline]
    exact List.mem_cons_self
  · refine ⟨text, [], (List.append_nil _).symm, nofun, ?_⟩
    rw [splitChar_of_not_mem hmem]
    exact List.mem_cons_self

theorem isForeign_brace : IsForeign '\x7d' := ⟨by decide, by decide⟩

/-- A heading that begins in a body ends there. -/
theorem ends_in_body {text front body rest : List Char}
    (htext : text = front ++ ((body ++ ['\x7d']) ++ rest)) (hfront : front ≠ [])
    (hlast : ∀ a, front ≠ a ++ ['\n']) (hbody : Lined body) {b c : List Char}
    (hbc : body ++ ['\x7d'] = b ++ c) (hc : c ≠ []) :
    ∀ v ∈ headingNode.ways (((Place.start text).behind front).behind b), rest <:+ v.1.rest := by
  intro v hv
  rw [← Place.behind_append] at hv
  obtain ⟨hline, h, hv⟩ := mem_ways_heading hv
  have hsplit : text = (front ++ b) ++ (c ++ rest) := by rw [htext, hbc]; simp
  rw [Place.rest_behind (p := .start text) hsplit] at hv
  obtain ⟨c, d, rfl⟩ := (List.eq_nil_or_concat c).resolve_left hc
  rw [List.concat_eq_append] at hbc hsplit hv
  rw [← List.append_assoc] at hbc
  obtain ⟨hbody', hd⟩ := List.append_inj' hbc rfl
  obtain rfl := (List.cons.inj hd).1
  -- a line of the body starts there
  obtain ⟨a, rfl⟩ : ∃ a, b = a ++ ['\n'] := by
    rcases (startsLine_behind hsplit).1 hline with hnil | ⟨a, ha⟩
    · exact absurd (List.append_eq_nil_iff.1 hnil).1 hfront
    · rcases List.eq_nil_or_concat b with rfl | ⟨b, e, rfl⟩
      · rw [List.append_nil] at ha
        exact absurd ha (hlast a)
      · rw [List.concat_eq_append, ← List.append_assoc] at ha
        obtain rfl := (List.cons.inj (List.append_inj' ha rfl).2).1
        exact ⟨b, List.concat_eq_append⟩
  obtain ⟨line, more, rfl, hmore, hmem⟩ := exists_line c
  have hlabel : ¬ InLabel line := by
    refine hbody line ?_
    rw [hbody', List.append_assoc, List.singleton_append, splitChar_append_cons]
    exact List.mem_append_right _ hmem
  have hv' : h.text ++ v.1.rest = line ++ (more ++ ('\x7d' :: rest)) := by
    rw [← hv]
    simp
  have hnext : ∀ d, (more ++ ('\x7d' :: rest)).head? = some d → IsForeign d := by
    intro d hd
    cases more with
    | nil =>
        cases hd
        exact isForeign_brace
    | cons e more =>
        cases hd
        rw [hmore d rfl]
        exact isForeign_newline
  obtain ⟨u, hu⟩ := (Heading.prefix_or_inLabel hv' hnext).resolve_right hlabel
  rw [← hu, List.append_assoc] at hv'
  rw [List.append_cancel_left hv']
  exact ⟨u ++ (more ++ ['\x7d']), by simp⟩

section
variable {f : SourceFile} {index : LineIndex} {front rest : List Char} {found : List Found}
  {ds : List Declaration}

/-- A line gives no block. -/
theorem yields_line {line : List Char} (hrest : IsBelow rest) (hsound : (Piece.line line).Sound)
    (hcontent : f.content = front ++ (line ++ rest))
    (h : Yields f index ((Place.start f.content).behind (front ++ line)) found ds) :
    Yields f index ((Place.start f.content).behind front) found ds := by
  cases hsound with
  | line hline hlabel hheading =>
      refine ⟨finds_tail hcontent hline ?_ h.finds,
        fun start hle => h.blocks start (Nat.le_trans hle ?_)⟩
      · refine List.eq_nil_iff_forall_not_mem.2 fun v hv => ?_
        obtain ⟨-, h, htext⟩ := mem_ways_heading hv
        have hplace := Place.rest_behind (p := .start f.content) hcontent
        rcases Heading.prefix_or_inLabel (htext.symm.trans hplace) hrest.isForeign with hin | hin
        · exact hheading h hin
        · exact hlabel hin
      · rw [Place.offset_behind, Place.offset_behind, byteLength_append]
        omega

/-- A block gives itself, and no heading in its body gives another. -/
theorem yields_block (hstart : StartsLine ((Place.start f.content).behind front)) {d : Declaration}
    {tail : List Char} (hsound : (Piece.block d tail).Sound)
    (hcontent : f.content = front ++ (d.text ++ (tail ++ rest)))
    (h : Yields f index ((Place.start f.content).behind (front ++ (d.text ++ tail))) found ds) :
    ∃ found, Yields f index ((Place.start f.content).behind front) found (d :: ds) := by
  cases hsound with
  | block hbody hlined htail =>
      have hsplit : f.content = (front ++ d.heading.text)
          ++ ((d.body ++ ['\x7d']) ++ (tail ++ rest)) := by
        rw [hcontent]
        simp [Declaration.text]
      have hhead : (front ++ d.heading.text) ++ (d.body ++ ['\x7d']) = front ++ d.text := by
        simp [Declaration.text]
      have hoffset : ∀ a, ((Place.start f.content).behind a).offset = byteLength a := fun a =>
        (Place.offset_behind _ a).trans (Nat.zero_add _)
      have hlast : ∀ a, front ++ d.heading.text ≠ a ++ ['\n'] := by
        intro a ha
        rw [Heading.text_eq, ← List.append_assoc] at ha
        cases (List.append_inj' ha rfl).2
      have hne : front ++ d.heading.text ≠ [] := by
        rw [Heading.text_eq]
        simp
      -- behind the closing brace no heading starts on the same line
      have hbrace : headingNode.ways ((Place.start f.content).behind (front ++ d.text)) = [] := by
        refine @ways_heading_eq_nil _ _ (tail ++ rest) (by rw [hcontent, List.append_assoc]) ?_
          fun a ha => ?_
        · rw [← hhead]
          simp
        · rw [← hhead, ← List.append_assoc] at ha
          cases (List.append_inj' ha rfl).2
      have htailed := finds_tail (by rw [hcontent, List.append_assoc]) htail hbrace
        (by rw [List.append_assoc]; exact h.finds)
      rw [← hhead, Place.behind_append] at htailed
      obtain ⟨ms, hms, hinside⟩ := exists_finds_front steady_headingNode rfl
        (Place.rest_behind (p := .start f.content) hsplit)
        (fun b c hbc hc => ends_in_body hsplit hne hlast hlined hbc hc) htailed
      rw [Place.behind_append] at hms
      refine ⟨d.heading.found ((Place.start f.content).behind front) :: (ms ++ found),
        .take (@head_ways_heading _ hstart _ (d.body ++ '\x7d' :: (tail ++ rest)) ?_) hms,
          fun start hle => ?_⟩
      · refine (Place.rest_behind (p := .start f.content) hcontent).trans ?_
        simp [Declaration.text]
      · rw [hoffset] at hle
        obtain ⟨b, hb, hblocks⟩ := @blocksFrom_heading _ index _ _ _ hcontent hbody _ hle
          ((ms ++ found).map blockHeader.toMatch)
        have hskip : ∀ m ∈ ms.map blockHeader.toMatch, m.start < byteLength (front ++ d.text) := by
          intro m hm
          obtain ⟨m, hmem, rfl⟩ := List.mem_map.1 hm
          have hlt := (hinside m hmem).2
          rw [hoffset, ← byteLength_append, hhead] at hlt
          exact hlt
        rw [List.map_cons, hblocks, List.map_append, blocksFrom_skip hskip]
        refine .cons hb (h.blocks _ ?_)
        rw [hoffset, ← List.append_assoc, byteLength_append (front ++ d.text)]
        exact Nat.le_add_right _ _

/-- A piece gives its block, if it is one. -/
theorem yields_piece (hstart : StartsLine ((Place.start f.content).behind front))
    (hrest : IsBelow rest) {p : Piece} (hsound : p.Sound)
    (hcontent : f.content = front ++ (p.text ++ rest))
    (h : Yields f index ((Place.start f.content).behind (front ++ p.text)) found ds) :
    ∃ found, Yields f index ((Place.start f.content).behind front) found
      (p.declaration?.toList ++ ds) := by
  cases p with
  | line line => exact ⟨found, yields_line hrest hsound hcontent h⟩
  | block d tail =>
      exact yields_block hstart hsound (by rw [hcontent, Piece.text, List.append_assoc]) h

end

/-- What stands below a piece of a file is nothing or a new line. -/
theorem isBelow_below (pieces : List Piece) : IsBelow (below pieces) := by
  cases pieces with
  | nil => nofun
  | cons p pieces =>
      intro c hc
      cases hc
      rfl

/-- The blocks of pieces that stand below others. -/
theorem exists_yields {f : SourceFile} {index : LineIndex} {front : List Char} {pieces : List Piece}
    (hsound : ∀ p ∈ pieces, p.Sound) (hcontent : f.content = front ++ below pieces) :
    ∃ found, Yields f index ((Place.start f.content).behind front) found
      (pieces.filterMap Piece.declaration?) := by
  induction pieces generalizing front with
  | nil => exact ⟨[], .done (Place.rest_behind (p := .start f.content) hcontent), fun _ _ => .nil⟩
  | cons p pieces ih =>
      obtain ⟨hp, hpieces⟩ := List.forall_mem_cons.1 hsound
      have hsplit : f.content = (front ++ ['\n']) ++ (p.text ++ below pieces) := by
        rw [hcontent]
        simp [below]
      have hrest := Place.rest_behind (p := .start f.content) hcontent
      obtain ⟨found, hfound⟩ := @ih ((front ++ ['\n']) ++ p.text) hpieces
        (by rw [hsplit, ← List.append_assoc])
      obtain ⟨found, hfound⟩ :=
        yields_piece ((startsLine_behind hsplit).2 (.inr ⟨front, rfl⟩)) (isBelow_below pieces)
        hp hsplit hfound
      -- the newline in front of the piece begins no heading, so the search goes past it
      have hnone : headingNode.ways ((Place.start f.content).behind front) = [] := by
        refine List.eq_nil_iff_forall_not_mem.2 fun v hv => ?_
        obtain ⟨-, h, htext⟩ := mem_ways_heading hv
        exact Heading.head_ne (htext.symm.trans hrest) rfl
      have hds : (p :: pieces).filterMap Piece.declaration? =
          p.declaration?.toList ++ pieces.filterMap Piece.declaration? := by
        cases p <;> rfl
      rw [hds]
      refine ⟨found, .skip hrest hnone ?_,
        fun start hle => hfound.blocks start (Nat.le_trans hle ?_)⟩
      · rw [← Place.behind_append]
        exact hfound.finds
      · rw [Place.offset_behind, Place.offset_behind, byteLength_append]
        omega

/-- The blocks of a file are those that it is written with. -/
theorem blocksOf_render {f : SourceFile} {pieces : List Piece}
    (hcontent : f.content = render pieces) (hsound : ∀ p ∈ pieces, p.Sound) :
    List.Forall₂ (IsWritten f.rel) (blocksOf f) (pieces.filterMap Piece.declaration?) := by
  obtain ⟨found, hfound⟩ : ∃ found, Yields f (.ofText f.content) (.start f.content) found
      (pieces.filterMap Piece.declaration?) := by
    cases pieces with
    | nil => exact ⟨[], .done hcontent, fun _ _ => .nil⟩
    | cons p pieces =>
        obtain ⟨hp, hpieces⟩ := List.forall_mem_cons.1 hsound
        rw [render_cons] at hcontent
        obtain ⟨found, hfound⟩ := @exists_yields f (.ofText f.content) _ _ hpieces hcontent
        have hds : (p :: pieces).filterMap Piece.declaration? =
            p.declaration?.toList ++ pieces.filterMap Piece.declaration? := by
          cases p <;> rfl
        rw [hds]
        exact @yields_piece _ _ [] _ _ _ (.inl rfl) (isBelow_below pieces) p hp hcontent hfound
  have hall := findAll_ofNode steady_headingNode rfl hfound.finds
  have hpattern : ofNode headingNode = blockHeader := blockHeader_eq.symm
  rw [hpattern] at hall
  rw [blocksOf, hall]
  exact hfound.blocks 0 (Nat.zero_le _)

/-- Two lists that are related item by item have the same images if related items have. -/
theorem map_eq_of_forall₂ {α β γ : Type} {f : α → γ} {g : β → γ} {l : List α} {m : List β}
    (h : List.Forall₂ (fun a b => f a = g b) l m) : l.map f = m.map g := by
  rw [← List.forall₂_eq_eq_eq, List.forall₂_map_left_iff, List.forall₂_map_right_iff]
  exact h

/-- The bodies found in a file are those that it is written with. -/
theorem bodies_render {f : SourceFile} {pieces : List Piece} (hcontent : f.content = render pieces)
    (hsound : ∀ p ∈ pieces, p.Sound) :
    (blocksOf f).map Block.body = (pieces.filterMap Piece.declaration?).map Declaration.body :=
  map_eq_of_forall₂ ((blocksOf_render hcontent hsound).imp fun _ _ h => h.body_eq)

/-! ## Another body for a block -/

/-- A file but for the body of one of its blocks. -/
structure Frame where
  above : List Piece
  heading : Heading
  /-- The rest of the line on which the block ends. -/
  tail : List Char
  beneath : List Piece

namespace Frame
variable (t : Frame) {body body' : List Char}

/-- The pieces of a file with another body in its frame. -/
def pieces (body : List Char) : List Piece :=
  t.above ++ .block ⟨t.heading, body⟩ t.tail :: t.beneath

/-- The declarations of a file are those above the block, the block itself, and those beneath. -/
theorem declarations_pieces (body : List Char) : (t.pieces body).filterMap Piece.declaration? =
    t.above.filterMap Piece.declaration?
      ++ (⟨t.heading, body⟩ :: t.beneath.filterMap Piece.declaration?) := by
  rw [pieces, List.filterMap_append]
  rfl

variable {t}

/-- A body whose braces balance, and out of which no heading goes, may be put in place of
another. -/
theorem sound (hsound : ∀ p ∈ t.pieces body, p.Sound)
    (hbalanced : Balanced body ['\x7d'] → Balanced body' ['\x7d'])
    (hlined : Lined body → Lined body') : ∀ p ∈ t.pieces body', p.Sound := by
  obtain ⟨habove, hsound⟩ := List.forall_mem_append.1 hsound
  obtain ⟨hblock, hbeneath⟩ := List.forall_mem_cons.1 hsound
  refine List.forall_mem_append.2 ⟨habove, List.forall_mem_cons.2 ⟨?_, hbeneath⟩⟩
  cases hblock with
  | block hbody hline htail => exact .block (hbalanced hbody) (hlined hline) htail

end Frame

end CodeAtlas.Source.Terraform
