import CodeAtlas.Proofs.Terraform.Header
import CodeAtlas.Source.Terraform.Block

/-!
# The headings of blocks

A block starts with a word, labels in quotes and a brace. The pattern for this is read as a row of
nodes. It has a way where a heading stands at the start of a line, which takes the heading, and none
anywhere else. A label may hold whatever is no quote, a newline too; but every other part of a
heading is made of few characters, so that a heading that goes on behind the end of a line does so
inside a label.
-/

namespace CodeAtlas.Source.Terraform

open Pattern Unicode CharSet Text

/-! ## Patterns -/

/-- The word with which a block starts. -/
def BlockKind.word : BlockKind → List Char
  | .resource => "resource".toList
  | .data => "data".toList
  | .module => "module".toList
  | .inputVariable => "variable".toList
  | .output => "output".toList
  | .locals => "locals".toList
  | .terraform => "terraform".toList
  | .provider => "provider".toList

/-- All kinds of blocks. -/
def kinds : List BlockKind :=
  [.resource, .data, .module, .inputVariable, .output, .locals, .terraform, .provider]

/-- The list of kinds has every kind of block. -/
theorem mem_kinds (kind : BlockKind) : kind ∈ kinds := by cases kind <;> decide

/-- Spaces and tabs. -/
def gapChars : CharSet := .unions [.ofSorted [(0x9, 0x9)], .ofSorted [(0x20, 0x20)]]

/-- A space and a tab are regular sets. -/
theorem regular_gapChars_parts : ∀ s ∈ [CharSet.ofSorted [(0x9, 0x9)], .ofSorted [(0x20, 0x20)]],
    s.Regular := by
  simp only [List.forall_mem_cons]
  exact ⟨regular_range (Nat.le_refl _), regular_range (Nat.le_refl _), nofun⟩

/-- The set of a space and a tab is regular. -/
theorem regular_gapChars : gapChars.Regular := (regular_unions regular_gapChars_parts).1

/-- The set of a space and a tab is built from points that are in range. -/
theorem built_gapChars : Built 60 (· ≤ topCodePoint) gapChars :=
  .unions <| .cons (built_range (by decide) (by decide))
    <| .cons (built_range (by decide) (by decide)) .nil

/-- Between the words of a heading there may be spaces and tabs. -/
theorem contains_gapChars {c : Char} : gapChars.contains c = true ↔ c = ' ' ∨ c = '\t' := by
  have htab : (ofSorted [(0x9, 0x9)]).contains c = true ↔ c = '\t' := contains_ofSorted_self '\t' c
  have hspace : (ofSorted [(0x20, 0x20)]).contains c = true ↔ c = ' ' :=
    contains_ofSorted_self ' ' c
  rw [gapChars, contains_unions regular_gapChars_parts, List.any_cons, List.any_cons, List.any_nil,
    Bool.or_false, Bool.or_eq_true, htab, hspace, or_comm]

/-- A label in quotes behind a gap. -/
def gappedLabel : Node :=
  .row [.plus true gapChars, .text ['"'], .star true unquotedChars, .text ['"']]

/-- The word of any kind of block. -/
def wordNode : Node := .choice (kinds.map fun kind => .text kind.word)

/-- The node that reads the kind of a block. -/
def kindNode : Node := .group 1 (some "kind") wordNode

/-- The node that reads the labels of a block. -/
def labelsNode : Node := .group 2 (some "labels") (.repeated 0 none true gappedLabel)

/-- What the pattern for headings reads behind the start of a line. -/
def headingItems : List Node :=
  [.star true gapChars, kindNode, labelsNode, .star true gapChars, .text ['\x7b']]

/-- The node that reads a quoted label. -/
def quotedNode : Node := .row [.text ['"'], .group 1 none (.star true unquotedChars), .text ['"']]

/-- How a gap is written. -/
def gapPhrase : Phrase := .bracketed false (.union [.char ⟨' ', false⟩, .char ⟨'\t', false⟩])

/-- The phrase for what stands in a label. -/
def contentPhrase : Phrase := .repeated 0 none false (.bracketed true (.char ⟨'"', false⟩))

/-- The phrase of the pattern for headings. -/
def headingPhrase : Phrase :=
  .row [.switches ⟨[.multiLine], []⟩, .anchor .lineStart, .repeated 0 none false gapPhrase,
    .capture 1 (some "kind") (.choice (kinds.map fun kind => .row (kind.word.map glyph))),
    .capture 2 (some "labels") (.repeated 0 none false (.scoped {} (.row
      [.repeated 1 none false gapPhrase, glyph '"', contentPhrase, glyph '"']))),
    .repeated 0 none false gapPhrase, .char ⟨'\x7b', true⟩]

/-- The phrase of the pattern for a quoted label. -/
def quotedPhrase : Phrase := .row [glyph '"', .capture 1 none contentPhrase, glyph '"']

/-- The set of a space and a tab stands for itself in a node. -/
theorem ofSet_gapChars : Node.ofSet gapChars false = .one gapChars false :=
  ofSet_eq regular_gapChars (c := ' ') (d := '\t') (contains_gapChars.2 (.inl rfl))
    (contains_gapChars.2 (.inr rfl)) (by decide) false

/-- The phrase for headings means its items, at the start of any line. -/
theorem meaning_heading :
    headingPhrase.meaning? {} = some (.row (.look .lineStart :: headingItems),
      { multiLine := true }) := by
  show some (Node.ofRow [.empty, .look .lineStart,
    Node.ofRepeat 0 none true (Node.ofSet gapChars false), kindNode,
      .group 2 (some "labels") (Node.ofRepeat 0 none true (Node.ofRow
        [Node.ofRepeat 1 none true (Node.ofSet gapChars false), .text ['"'],
          Node.ofRepeat 0 none true (Node.ofSet unquotedChars false), .text ['"']])),
      Node.ofRepeat 0 none true (Node.ofSet gapChars false), .text ['\x7b']],
        ({ multiLine := true } : Flags)) = _
  rw [ofSet_gapChars, ofSet_unquotedChars]
  rfl

/-- The phrase for a quoted label means its node. -/
theorem meaning_quoted : quotedPhrase.meaning? {} = some (quotedNode, {}) := by
  show some (Node.ofRow [.text ['"'],
    .group 1 none (Node.ofRepeat 0 none true (Node.ofSet unquotedChars false)), .text ['"']],
      ({} : Flags)) = _
  rw [ofSet_unquotedChars]
  rfl

/-- A space or a tab makes a small node. -/
theorem rough_gapChars : (Node.one gapChars false).rough ≤ 20000 :=
  Nat.le_trans (rough_one_le built_gapChars false) (by decide)

/-- The pattern for headings finds what its items read. -/
theorem blockHeader_eq : blockHeader = ofNode (.row (.look .lineStart :: headingItems)) := by
  refine ofString_eq rfl (by decide +kernel) meaning_heading ?_
  have hword : wordNode.rough ≤ 100000 := by decide +kernel
  simp only [headingItems, kindNode, labelsNode, gappedLabel, Node.star, Node.plus, rough_row,
    rough_group, rough_repeated, rough_look, roughAll, List.length_singleton,
      show maxMemory = 10485760 from rfl]
  have hgap := rough_gapChars
  have hunquoted := rough_unquotedChars
  generalize (Node.one gapChars false).rough = a at hgap ⊢
  generalize wordNode.rough = b at hword ⊢
  generalize (Node.one unquotedChars false).rough = c at hunquoted ⊢
  omega

/-- The pattern for a quoted label finds what its node reads. -/
theorem quotedLabel_eq : quotedLabel = ofNode quotedNode := by
  refine ofString_eq rfl (by decide +kernel) meaning_quoted ?_
  simp only [quotedNode, Node.star, rough_row, rough_group, rough_repeated, roughAll,
    List.length_singleton, show maxMemory = 10485760 from rfl]
  have hunquoted := rough_unquotedChars
  generalize (Node.one unquotedChars false).rough = a at hunquoted ⊢
  omega

/-! ## Headings -/

/-- Spaces and tabs, or nothing. -/
def IsGap (gap : List Char) : Prop := ∀ c ∈ gap, c = ' ' ∨ c = '\t'

/-- A label in quotes, with the gap in front of it. -/
structure Label where
  gap : List Char
  content : List Char
  gap_ne_nil : gap ≠ []
  isGap : IsGap gap
  unquoted : '"' ∉ content

/-- A label as it stands in a text, with the gap in front of it. -/
def Label.text (l : Label) : List Char := l.gap ++ '"' :: (l.content ++ ['"'])

/-- Labels as they stand in a text. -/
def labelsText (labels : List Label) : List Char := labels.flatMap Label.text

/-- The heading of a block: a word, labels and a brace. -/
structure Heading where
  indent : List Char
  kind : BlockKind
  labels : List Label
  gap : List Char
  isGap_indent : IsGap indent
  isGap_gap : IsGap gap

/-- A heading as it stands in a text, up to the brace. -/
def Heading.text (h : Heading) : List Char :=
  h.indent ++ (h.kind.word ++ (labelsText h.labels ++ (h.gap ++ ['\x7b'])))

/-- A heading without indent, with one space in front of its brace. -/
def spacedHeading (kind : BlockKind) (labels : List Label) : Heading where
  indent := []
  kind
  labels
  gap := [' ']
  isGap_indent := nofun
  isGap_gap := List.forall_mem_singleton.2 (.inl rfl)

/-- A label behind one space. -/
def spacedLabel (content : String) (h : '"' ∉ content.toList) : Label where
  gap := [' ']
  content := content.toList
  gap_ne_nil := by decide
  isGap := List.forall_mem_singleton.2 (.inl rfl)
  unquoted := h

/-- The text goes from the start of a heading to a place inside one of its labels. -/
def InLabel (text : List Char) : Prop :=
  ∃ (indent : List Char) (kind : BlockKind) (labels : List Label) (gap content : List Char),
    IsGap indent ∧ gap ≠ [] ∧ IsGap gap ∧ '"' ∉ content ∧
      text = indent ++ (kind.word ++ (labelsText labels ++ (gap ++ '"' :: content)))

/-- A character that stands nowhere in a heading but inside a label. -/
def IsForeign (c : Char) : Prop := c ∉ [' ', '\t', '"', '\x7b'] ∧ c.isAlpha = false

/-- The word of a kind of block has letters only. -/
theorem isAlpha_word (kind : BlockKind) : ∀ c ∈ kind.word, c.isAlpha = true := by
  refine List.all_eq_true.1 ?_
  cases kind <;> decide

/-- A character foreign to headings stands in no gap. -/
theorem IsForeign.not_mem_gap {c : Char} (hc : IsForeign c) {gap : List Char} (h : IsGap gap) :
    c ∉ gap := by
  intro hmem
  rcases h c hmem with rfl | rfl <;> exact hc.1 (by decide)

/-- A character foreign to headings stands in no word of a kind. -/
theorem IsForeign.not_mem_word {c : Char} (hc : IsForeign c) (kind : BlockKind) :
    c ∉ kind.word := by
  intro hmem
  have halpha := isAlpha_word kind c hmem
  rw [hc.2] at halpha
  cases halpha

/-- A text in front of a character goes behind a part that does not have the character. -/
theorem exists_behind {a b s t : List Char} {c : Char} (h : a ++ b = s ++ c :: t) (hc : c ∉ a) :
    ∃ u, s = a ++ u ∧ b = u ++ c :: t := by
  rcases List.append_eq_append_iff.1 h with ⟨u, hs, hb⟩ | ⟨u, ha, hb⟩
  · exact ⟨u, hs, hb⟩
  · cases u with
    | nil => exact ⟨[], by rw [ha, List.append_nil, List.append_nil], hb.symm⟩
    | cons d u =>
        cases hb
        exact absurd (ha ▸ List.mem_append_right _ List.mem_cons_self) hc

/-- A character foreign to headings is not a quote. -/
theorem IsForeign.ne_quote {c : Char} (hc : IsForeign c) : c ≠ '"' := by
  rintro rfl
  exact hc.1 (by decide)

/-- A foreign character among labels and what stands behind them is inside a label or behind the
labels. -/
theorem inside_or_behind {labels : List Label} {rest s t : List Char} {c : Char} (hc : IsForeign c)
    (h : labelsText labels ++ rest = s ++ c :: t) :
    (∃ (done : List Label) (gap content : List Char), gap ≠ [] ∧ IsGap gap ∧ '"' ∉ content ∧
      s = labelsText done ++ (gap ++ '"' :: content)) ∨
    ∃ u, s = labelsText labels ++ u ∧ rest = u ++ c :: t := by
  induction labels generalizing s with
  | nil => exact .inr ⟨s, rfl, h⟩
  | cons l labels ih =>
      have htext : labelsText (l :: labels) ++ rest =
          l.gap ++ '"' :: (l.content ++ '"' :: (labelsText labels ++ rest)) := by
        simp [labelsText, Label.text]
      obtain ⟨_ | ⟨d, u⟩, rfl, hbehind⟩ :=
        exists_behind (htext.symm.trans h) (hc.not_mem_gap l.isGap)
      · exact absurd (List.cons.inj hbehind).1.symm hc.ne_quote
      · obtain ⟨rfl, hinside⟩ := List.cons.inj hbehind
        rcases List.append_eq_append_iff.1 hinside with ⟨_ | ⟨d, v⟩, rfl, hmore⟩ | ⟨v, hcontent, -⟩
        · exact absurd (List.cons.inj hmore).1.symm hc.ne_quote
        · -- the label ends in front of the character
          obtain ⟨rfl, hbehind'⟩ := List.cons.inj hmore
          rcases ih hbehind' with ⟨done, gap, content, hne, hgap, hunquoted, rfl⟩ | ⟨v, rfl, hrest⟩
          · exact .inl ⟨l :: done, gap, content, hne, hgap, hunquoted,
              by simp [labelsText, Label.text]⟩
          · exact .inr ⟨v, by simp [labelsText, Label.text], hrest⟩
        · have hunquoted : '"' ∉ u := fun hmem =>
            l.unquoted (hcontent ▸ List.mem_append_left _ hmem)
          exact .inl ⟨[], l.gap, u, l.gap_ne_nil, l.isGap, hunquoted, rfl⟩

/-- A foreign character behind the start of a heading is inside a label or behind what is said
here. -/
theorem inLabel_or_behind {indent gap rest s t : List Char} {kind : BlockKind}
    {labels : List Label} {c : Char} (hindent : IsGap indent) (hgap : IsGap gap) (hc : IsForeign c)
    (h : indent ++ (kind.word ++ (labelsText labels ++ (gap ++ rest))) = s ++ c :: t) :
    InLabel s ∨ ∃ u, s = indent ++ (kind.word ++ (labelsText labels ++ (gap ++ u)))
      ∧ rest = u ++ c :: t := by
  obtain ⟨s₁, rfl, h₁⟩ := exists_behind h (hc.not_mem_gap hindent)
  obtain ⟨s₂, rfl, h₂⟩ := exists_behind h₁ (hc.not_mem_word kind)
  rcases inside_or_behind hc h₂ with ⟨done, gap', content, hne, hgap', hcontent, rfl⟩ | ⟨s₃, rfl,
    h₃⟩
  · exact .inl ⟨indent, kind, done, gap', content, hindent, hne, hgap', hcontent, rfl⟩
  · obtain ⟨u, rfl, hrest⟩ := exists_behind h₃ (hc.not_mem_gap hgap)
    exact .inr ⟨u, rfl, hrest⟩

/-- A character foreign to headings stands in a heading only within a label. -/
theorem Heading.inLabel {h : Heading} {s t : List Char} {c : Char} (hc : IsForeign c)
    (htext : h.text = s ++ c :: t) :
    InLabel s := by
  rcases inLabel_or_behind h.isGap_indent h.isGap_gap hc htext with hs | ⟨u, -, hu⟩
  · exact hs
  · obtain rfl : c = '\x7b' := by
      have hmem : c ∈ ['\x7b'] := hu ▸ List.mem_append_right _ List.mem_cons_self
      exact List.mem_singleton.1 hmem
    exact absurd (by decide) hc.1

/-- A part of a heading that ends in a label and goes over a foreign character was in the label
before it. -/
theorem InLabel.of_foreign {s t : List Char} {c : Char} (h : InLabel (s ++ c :: t))
    (hc : IsForeign c) : InLabel s := by
  obtain ⟨indent, kind, labels, gap, content, hindent, hne, hgap, hcontent, htext⟩ := h
  rcases inLabel_or_behind hindent hgap hc htext.symm with hs | ⟨u, rfl, hu⟩
  · exact hs
  · cases u with
    | nil =>
        cases hu
        exact absurd (by decide) hc.1
    | cons d u =>
        obtain ⟨rfl, rfl⟩ := List.cons.inj hu
        exact ⟨indent, kind, labels, gap, u, hindent, hne, hgap,
          fun hmem => hcontent (List.mem_append_left _ hmem), rfl⟩

/-! ## Where headings are found -/

/-- A line starts at a place. -/
def StartsLine (p : Place) : Prop := p.offset = 0 ∨ p.before = '\n'

/-- What the node for kinds reads is the word of a kind. -/
theorem mem_ways_word {p : Place} {v : Way} (h : v ∈ wordNode.ways p) :
    ∃ kind : BlockKind, p.rest = kind.word ++ v.1.rest := by
  obtain ⟨a, ha, hv⟩ := mem_choiceWays h
  obtain ⟨kind, -, rfl⟩ := List.mem_map.1 ha
  exact ⟨kind, mem_ways_text hv⟩

theorem word_ne_nil (kind : BlockKind) : kind.word ≠ [] := by cases kind <;> decide

/-- No two kinds of block have words with the same first letter. -/
theorem eq_of_head_word {kind kind' : BlockKind} (h : kind.word.head? = kind'.word.head?) :
    kind = kind' := by
  cases kind <;> cases kind' <;> first | rfl | exact absurd h (by decide)

/-- The first way to read a kind takes its word. -/
theorem head_ways_word {p : Place} {kind : BlockKind} {rest : List Char}
    (h : p.rest = kind.word ++ rest) :
    (wordNode.ways p).head? = some (p.behind kind.word, []) := by
  have hother : ∀ kind' : BlockKind, kind' ≠ kind → (Node.text kind'.word).ways p = [] := by
    intro kind' hne
    refine List.eq_nil_iff_forall_not_mem.2 fun v hv => hne (eq_of_head_word ?_)
    have hhead := congrArg List.head? (h.symm.trans (mem_ways_text hv))
    rw [List.head?_append_of_ne_nil _ (word_ne_nil kind),
      List.head?_append_of_ne_nil _ (word_ne_nil kind')] at hhead
    exact hhead.symm
  have hchoice : ∀ ks : List BlockKind, kind ∈ ks →
      (choiceWays (ks.map fun kind => .text kind.word) p).head?
        = some (p.behind kind.word, []) := by
    intro ks hmem
    induction ks with
    | nil => cases hmem
    | cons k ks ih =>
        rw [List.map_cons, choiceWays]
        by_cases hk : k = kind
        · rw [hk, ways_text h]
          rfl
        · rw [hother k hk, List.nil_append]
          exact ih ((List.mem_cons.1 hmem).resolve_left (Ne.symm hk))
  exact hchoice kinds (mem_kinds kind)

/-- What the node for a label behind a gap reads does not depend on what stands in front. -/
theorem steady_gappedLabel : gappedLabel.Steady :=
  ⟨⟨regular_gapChars, fun _ => rfl⟩, trivial, ⟨regular_unquotedChars, fun _ => rfl⟩,
    trivial, trivial⟩

/-- The node for a label behind a gap takes characters away. -/
theorem takes_gappedLabel : Pattern.Takes gappedLabel.ways :=
  (gappedLabel.opens steady_gappedLabel).takes

/-- What the items for headings read does not depend on what stands in front. -/
theorem steady_headingItems : AllSteady headingItems := by
  have hword : wordNode.Steady := by
    simp only [wordNode, kinds, List.map_cons, List.map_nil, AllSteady, Node.Steady, and_true]
  simp only [headingItems, kindNode, labelsNode, Node.star, AllSteady, Node.Steady, and_true]
  exact ⟨⟨regular_gapChars, fun _ => rfl⟩, hword, ⟨steady_gappedLabel, fun _ => rfl⟩,
    regular_gapChars, fun _ => rfl⟩

/-- A text of spaces and tabs is a gap. -/
theorem isGap_of_contains {cs : List Char} (h : ∀ c ∈ cs, gapChars.contains c = true) : IsGap cs :=
  fun c hc => contains_gapChars.1 (h c hc)

/-- A text of what may stand in a label has no quote. -/
theorem unquoted_of_contains {cs : List Char}
    (h : ∀ c ∈ cs, unquotedChars.contains c = true) : '"' ∉ cs :=
  fun hmem => contains_unquotedChars.1 (h _ hmem) rfl

/-- A way of a label takes a label. -/
theorem mem_ways_gappedLabel {p : Place} {v : Way} (h : v ∈ gappedLabel.ways p) :
    ∃ l : Label, p.rest = l.text ++ v.1.rest := by
  obtain ⟨w, hw, u, hu, rfl⟩ := mem_andThen.1 h
  obtain ⟨x, hx, y, hy, rfl⟩ := mem_andThen.1 hu
  obtain ⟨z, hz, t, ht, rfl⟩ := mem_andThen.1 hy
  obtain ⟨e, he, e', he', rfl⟩ := mem_andThen.1 ht
  obtain rfl := List.mem_singleton.1 he'
  obtain ⟨c, cs, hgap, hgapped⟩ := mem_ways_plus hw
  obtain ⟨content, hcontent, hunquoted, -⟩ := mem_ways_star hz
  refine ⟨⟨c :: cs, content, List.cons_ne_nil _ _, isGap_of_contains hgapped,
    unquoted_of_contains hunquoted⟩, ?_⟩
  rw [hgap, mem_ways_text hx, hcontent, mem_ways_text he]
  simp [Label.text]

/-- The ways of the loop over labels take labels. -/
theorem mem_ways_labels {p : Place} {v : Way}
    (h : v ∈ (Node.repeated 0 none true gappedLabel).ways p) :
    ∃ labels, p.rest = labelsText labels ++ v.1.rest := by
  have hloop : (Node.repeated 0 none true gappedLabel).ways p = loop true gappedLabel.ways p :=
    andThen_singleton p _
  rw [hloop] at h
  clear hloop
  induction hlength : p.rest.length using Nat.strongRecOn generalizing p v with
  | ind n ih =>
      rw [loop_eq takes_gappedLabel, if_pos rfl] at h
      rcases List.mem_append.1 h with h | h
      · obtain ⟨w, hw, u, hu, rfl⟩ := mem_andThen.1 h
        obtain ⟨l, hl⟩ := mem_ways_gappedLabel hw
        obtain ⟨labels, hlabels⟩ := ih _ (hlength ▸ takes_gappedLabel p w hw) hu rfl
        refine ⟨l :: labels, ?_⟩
        rw [hl, hlabels]
        simp [labelsText]
      · rw [List.mem_singleton.1 h]
        exact ⟨[], rfl⟩

/-- The pattern of headings. -/
def headingNode : Node := .row (.look .lineStart :: headingItems)

/-- A way of the pattern takes a heading at the start of a line. -/
theorem mem_ways_heading {p : Place} {v : Way} (h : v ∈ headingNode.ways p) :
    StartsLine p ∧ ∃ h : Heading, p.rest = h.text ++ v.1.rest := by
  obtain ⟨w₁, hw₁, u₁, hu₁, rfl⟩ := mem_andThen.1 h
  obtain ⟨w₂, hw₂, u₂, hu₂, rfl⟩ := mem_andThen.1 hu₁
  obtain ⟨w₃, hw₃, u₃, hu₃, rfl⟩ := mem_andThen.1 hu₂
  obtain ⟨w₄, hw₄, u₄, hu₄, rfl⟩ := mem_andThen.1 hu₃
  obtain ⟨w₅, hw₅, u₅, hu₅, rfl⟩ := mem_andThen.1 hu₄
  obtain ⟨w₆, hw₆, u₆, hu₆, rfl⟩ := mem_andThen.1 hu₅
  obtain rfl := List.mem_singleton.1 hu₆
  -- a heading begins where a line does
  have hline : StartsLine p ∧ w₁ = (p, []) := by
    rw [Node.ways, Look.holds] at hw₁
    split at hw₁
    · next hholds =>
      rw [Bool.or_eq_true, beq_iff_eq, beq_iff_eq] at hholds
      exact ⟨hholds, List.mem_singleton.1 hw₁⟩
    · cases hw₁
  obtain ⟨hline, rfl⟩ := hline
  -- each part of the row takes its part of the heading
  obtain ⟨indent, hindent, hgap, -⟩ := mem_ways_star hw₂
  obtain ⟨x, hx, rfl⟩ := List.mem_map.1 hw₃
  obtain ⟨y, hy, rfl⟩ := List.mem_map.1 hw₄
  obtain ⟨kind, hkind⟩ := mem_ways_word hx
  obtain ⟨labels, hlabels⟩ := mem_ways_labels hy
  obtain ⟨gap, hgap', hgapped, -⟩ := mem_ways_star hw₅
  refine ⟨hline, ⟨indent, kind, labels, gap, isGap_of_contains hgap, isGap_of_contains hgapped⟩, ?_⟩
  have hbrace := mem_ways_text hw₆
  have hkind : w₂.1.rest = kind.word ++ x.1.rest := hkind
  have hlabels : x.1.rest = labelsText labels ++ y.1.rest := hlabels
  have hgap' : y.1.rest = gap ++ w₅.1.rest := hgap'
  rw [hindent, hkind, hlabels, hgap', hbrace]
  simp [Heading.text]

/-- Anything but a space and a tab is outside of gaps. -/
theorem not_gapChar {c : Char} (hc : c ≠ ' ' ∧ c ≠ '\t') : gapChars.contains c = false := by
  rw [← Bool.not_eq_true, contains_gapChars]
  rintro (h | h)
  · exact hc.1 h
  · exact hc.2 h

/-- The first way to read a gap takes all of it. -/
theorem head_ways_gap {p : Place} {gap rest : List Char} (h : p.rest = gap ++ rest)
    (hgap : IsGap gap) (hrest : ∀ c, rest.head? = some c → c ≠ ' ' ∧ c ≠ '\t') :
    ((Node.star true gapChars).ways p).head? = some (p.behind gap, []) :=
  head_ways_star h (fun c hc => contains_gapChars.2 (hgap c hc)) fun c hc =>
    not_gapChar (hrest c hc)

/-- The first way to read a label behind a gap takes both. -/
theorem head_ways_gappedLabel {p : Place} {l : Label} {rest : List Char}
    (h : p.rest = l.text ++ rest) :
    (gappedLabel.ways p).head? = some (p.behind l.text, []) := by
  obtain ⟨gap, content, hne, hgap, hunquoted⟩ := l
  obtain ⟨c, cs, rfl⟩ := List.exists_cons_of_ne_nil hne
  have hsplit : p.rest = (c :: cs) ++ (['"'] ++ (content ++ (['"'] ++ rest))) := by
    rw [h]
    simp [Label.text]
  have h1 := Place.rest_behind hsplit
  have h2 := Place.rest_behind h1
  have h3 := Place.rest_behind h2
  have hgap := head_ways_plus hsplit (fun d hd => contains_gapChars.2 (hgap d hd))
    (fun d hd => by cases hd; exact not_gapChar (by decide))
  have hcontent : ((Node.star true unquotedChars).ways _).head? = some (_, []) := head_ways_star h2
    (fun d hd => contains_unquotedChars.2 fun heq => hunquoted (heq ▸ hd)) fun d hd => by
      cases hd
      rw [← Bool.not_eq_true, contains_unquotedChars]
      exact not_not_intro rfl
  have hclose := @head_rowWays (.text ['"']) [] _ _ _ _ [] (by rw [ways_text h3]; rfl) rfl
  have hopen := @head_rowWays (.text ['"']) _ _ _ _ [] _ (by rw [ways_text h1]; rfl)
    (head_rowWays hcontent hclose)
  have hall := head_rowWays hgap hopen
  rw [gappedLabel, Node.ways, hall, Label.text, ← Place.behind_append, ← Place.behind_append,
    ← Place.behind_append, List.append_assoc, List.append_assoc]
  rfl

/-- A label does not stand in front of a gap and a brace. -/
theorem ways_gappedLabel_eq_nil {p : Place} {gap rest : List Char}
    (h : p.rest = gap ++ '\x7b' :: rest) (hgap : IsGap gap) : gappedLabel.ways p = [] := by
  refine List.eq_nil_iff_forall_not_mem.2 fun v hv => ?_
  obtain ⟨l, hl⟩ := mem_ways_gappedLabel hv
  have hdrop : ∀ {gap : List Char} {c : Char} {rest : List Char}, IsGap gap → c ≠ ' ' ∧ c ≠ '\t' →
      (gap ++ c :: rest).dropWhile gapChars.contains = c :: rest := by
    intro gap c rest hgap hc
    rw [List.dropWhile_append_of_pos fun d hd => contains_gapChars.2 (hgap d hd),
      List.dropWhile_cons_of_neg (by rw [not_gapChar hc]; exact Bool.false_ne_true)]
  rw [h, Label.text, List.append_assoc, List.cons_append] at hl
  have hbehind := congrArg (List.dropWhile gapChars.contains) hl
  rw [hdrop hgap (by decide), hdrop l.isGap (by decide)] at hbehind
  cases hbehind

/-- The first way to read labels takes all of them. -/
theorem head_ways_labelsText {p : Place} {labels : List Label} {gap rest : List Char}
    (h : p.rest = labelsText labels ++ (gap ++ '\x7b' :: rest)) (hgap : IsGap gap) :
    ((Node.repeated 0 none true gappedLabel).ways p).head?
      = some (p.behind (labelsText labels), []) := by
  have hloop : (Node.repeated 0 none true gappedLabel).ways p = loop true gappedLabel.ways p :=
    andThen_singleton p _
  rw [hloop]
  induction labels generalizing p with
  | nil =>
      rw [loop_of_nil takes_gappedLabel (ways_gappedLabel_eq_nil h hgap)]
      rfl
  | cons l labels ih =>
      have hsplit : p.rest = l.text ++ (labelsText labels ++ (gap ++ '\x7b' :: rest)) := by
        rw [h]
        simp [labelsText]
      have hmore := ih (Place.rest_behind hsplit) (andThen_singleton _ _)
      rw [← Place.behind_append] at hmore
      exact head_loop takes_gappedLabel (head_ways_gappedLabel hsplit) hmore

/-- What stands behind a gap starts with the word of a kind, which is not blank. -/
theorem head_word (kind : BlockKind) (rest : List Char) :
    ∀ c, (kind.word ++ rest).head? = some c → c ≠ ' ' ∧ c ≠ '\t' := by
  intro c hc
  cases kind <;>
    · cases hc
      decide

/-- The preferred way along a heading. -/
theorem head_ways_heading {p : Place} (hp : StartsLine p) {h : Heading} {rest : List Char}
    (hrest : p.rest = h.text ++ rest) : (headingNode.ways p).head? = some (p.behind h.text,
      [(5, p.offset + byteLength h.indent + byteLength h.kind.word
        + byteLength (labelsText h.labels)),
        (4, p.offset + byteLength h.indent + byteLength h.kind.word),
        (3, p.offset + byteLength h.indent + byteLength h.kind.word),
          (2, p.offset + byteLength h.indent)]) := by
  have hsplit : p.rest = h.indent
    ++ (h.kind.word ++ (labelsText h.labels ++ (h.gap ++ '\x7b' :: rest))) := by
    rw [hrest]
    simp [Heading.text]
  have h1 := Place.rest_behind hsplit
  have h2 := Place.rest_behind h1
  have h3 := Place.rest_behind h2
  have h4 := Place.rest_behind h3
  have hlook : (Node.look .lineStart).ways p = [(p, [])] := by
    have hholds : Look.lineStart.holds p.offset p.before p.rest = true := by
      rw [Look.holds, Bool.or_eq_true, beq_iff_eq, beq_iff_eq]
      exact hp
    rw [Node.ways, if_pos hholds]
  -- from the last node to the first, each with what stands behind it
  have hbrace := @head_rowWays (.text ['\x7b']) [] _ _ _ _ []
    (by rw [@ways_text ['\x7b'] _ _ h4]; rfl) rfl
  have hgap := head_rowWays (head_ways_gap h3 h.isGap_gap fun c hc => by cases hc; decide) hbrace
  have hlabels :=
    head_rowWays (@head_group 2 (some "labels") _ _ _ _ (head_ways_labelsText h2 h.isGap_gap)) hgap
  have hkind := head_rowWays (@head_group 1 (some "kind") _ _ _ _ (head_ways_word h1)) hlabels
  have hindent := head_rowWays (head_ways_gap hsplit h.isGap_indent (head_word h.kind _)) hkind
  have hall := @head_rowWays (.look .lineStart) _ _ _ _ [] _ (by rw [hlook]; rfl) hindent
  rw [headingNode, Node.ways]
  refine hall.trans (congrArg some (Prod.ext ?_ ?_))
  · simp only [Heading.text, Place.behind_append]
  · simp only [Place.offset_behind, List.append_nil, List.nil_append, List.cons_append]

end CodeAtlas.Source.Terraform
