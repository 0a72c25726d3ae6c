import CodeAtlas.Proofs.Pattern.Compiling
import CodeAtlas.Proofs.Pattern.Reading
import CodeAtlas.Source.Terraform.Body

/-!
# What a line of a body says

A line assigns a value to a name, or opens a nested block with a name and labels, and a value may
start a here-document. Each of the three patterns that tell these apart is read once, as a row of
nodes behind the start of the text. The ways of these nodes then give the header of a line for every
line of one of these forms, and none for a line that does not begin with a name.
-/

namespace CodeAtlas.Source.Terraform

open Pattern Unicode CharSet Text

/-! ## Sets -/

/-- The characters with which names start. -/
def nameStarts : CharSet :=
  .unions [.ofSorted [(0x5F, 0x5F)], .ofSorted [(0x61, 0x7A)], .ofSorted [(0x41, 0x5A)]]

/-- The characters that go on in names. -/
def nameChars : CharSet := .unions [.ofSorted [(0x2D, 0x2D)], wordChars]

/-- The characters inside quotes. -/
def unquotedChars : CharSet := (CharSet.ofSorted [(0x22, 0x22)]).complement

/-- The characters of a line. -/
def lineChars : CharSet := (CharSet.ofText "A").complement

/-- The set of the characters that a name starts with is built from points that are in range. -/
theorem built_nameStarts : Built 90 (· ≤ topCodePoint) nameStarts :=
  .unions <| .cons (built_range (by decide) (by decide))
    <| .cons (built_range (by decide) (by decide)) <|
    .cons (built_range (by decide) (by decide)) .nil

/-- The set of the characters of a name is built from points that are in range. -/
theorem built_nameChars : Built 7532 (· ≤ topCodePoint) nameChars :=
  .unions <| .cons (built_range (by decide) (by decide))
    <| .cons (built_wordChars.weaken fun _ hn => hn.1) .nil

/-- The set of what may stand in a label is regular. -/
theorem regular_unquotedChars : unquotedChars.Regular :=
  (regular_complement (regular_range (Nat.le_refl _))).1

/-- The characters of a line are all but the newline. -/
theorem lineChars_eq : lineChars = (CharSet.ofSorted [('\n'.toNat, '\n'.toNat)]).complement :=
  congrArg complement (@ofText_eq "A" ['A'] rfl)

/-- The set of the characters of a line is regular. -/
theorem regular_lineChars : lineChars.Regular := by
  rw [lineChars_eq]
  exact (regular_complement (regular_range (Nat.le_refl _))).1

/-- A name starts with a letter or an underscore. -/
theorem contains_nameStarts {c : Char} :
    nameStarts.contains c = true ↔ c.isAlpha = true ∨ c = '_' := by
  have hregular :
      ∀ s ∈ [ofSorted [(0x5F, 0x5F)], .ofSorted [(0x61, 0x7A)], .ofSorted [(0x41, 0x5A)]],
      Regular s := by
    simp only [List.forall_mem_cons]
    exact ⟨regular_range (by decide), regular_range (by decide), regular_range (by decide), nofun⟩
  rw [nameStarts, contains_unions hregular, isAlpha_iff]
  simp only [List.any_cons, List.any_nil, Bool.or_eq_true, Bool.or_false,
    contains_ofSorted (show 0x61 ≤ 0x7A by decide), contains_ofSorted (show 0x41 ≤ 0x5A by decide)]
  have hunderscore : (ofSorted [(0x5F, 0x5F)]).contains c = true ↔ c = '_' :=
    contains_ofSorted_self '_' c
  rw [hunderscore, or_comm, or_comm (a := _ ∧ _)]

/-- A name goes on with characters of words and hyphens. -/
theorem contains_nameChars
    {c : Char} : nameChars.contains c = true ↔ isWordChar c = true ∨ c = '-' := by
  have hregular : ∀ s ∈ [CharSet.ofSorted [(0x2D, 0x2D)], wordChars], Regular s := by
    simp only [List.forall_mem_cons]
    exact ⟨regular_range (Nat.le_refl _), built_wordChars.regular, nofun⟩
  have hhyphen : (ofSorted [(0x2D, 0x2D)]).contains c = true ↔ c = '-' :=
    contains_ofSorted_self '-' c
  rw [nameChars, contains_unions hregular, List.any_cons, List.any_cons, List.any_nil,
    Bool.or_false, Bool.or_eq_true, hhyphen, or_comm]
  rfl

/-- In a label there may be anything but a quote. -/
theorem contains_unquotedChars {c : Char} : unquotedChars.contains c = true ↔ c ≠ '"' := by
  have hquote : (ofSorted [(0x22, 0x22)]).contains c = true ↔ c = '"' :=
    contains_ofSorted_self '"' c
  rw [unquotedChars, contains_complement (regular_range (Nat.le_refl _)), Bool.not_eq_true',
    ← Bool.not_eq_true, hquote]

/-- In a line there may be anything but a newline. -/
theorem contains_lineChars {c : Char} : lineChars.contains c = true ↔ c ≠ '\n' := by
  rw [lineChars_eq, contains_complement (regular_range (Nat.le_refl _)), Bool.not_eq_true',
    ← Bool.not_eq_true, contains_ofSorted_self]

/-! ## Patterns -/

/-- A name, as a group of its own. -/
def nameNode : Node := .group 1 (some "name") (.row [.one nameStarts false, .star true nameChars])

/-- A label in quotes behind white space. -/
def labelNode : Node := .row [.plus true blanks, .text ['"'], .star true unquotedChars, .text ['"']]

/-- What the pattern for attributes reads behind the start of a line. -/
def attributeItems : List Node :=
  [.star true blanks, nameNode, .star true blanks, .text ['='], .star true blanks,
    .group 2 (some "value") (.star false lineChars), .star true blanks, .look .textEnd]

/-- What the pattern for nested blocks reads behind the start of a line. -/
def nestedItems : List Node :=
  [.star true blanks, nameNode, .repeated 0 none true labelNode, .star true blanks, .text ['\x7b']]

/-- What the pattern for here-documents reads behind the start of a value. -/
def documentItems : List Node :=
  [.text ['<', '<'], .repeated 0 (some 1) true (.text ['-']),
    .group 1 (some "tag") (.plus true wordChars)]

/-- A character that stands for itself. -/
def glyph (c : Char) : Phrase := .char ⟨c, false⟩

/-- How white space is written. -/
def blankPhrase : Phrase := .repeated 0 none false (.shorthand .blank false)

/-- The phrase for a name. -/
def namePhrase : Phrase :=
  .capture 1 (some "name") (.row
    [.bracketed false (.union
        [.range ⟨'A', false⟩ ⟨'Z', false⟩, .range ⟨'a', false⟩ ⟨'z', false⟩, .char ⟨'_', false⟩]),
      .repeated 0 none false
        (.bracketed false (.union [.shorthand .word false, .char ⟨'-', false⟩]))])

/-- The phrase of the pattern for attributes. -/
def attributePhrase : Phrase :=
  .row [.anchor .lineStart, blankPhrase, namePhrase, blankPhrase, glyph '=', blankPhrase,
    .capture 2 (some "value") (.repeated 0 none true .dot), blankPhrase, .anchor .lineEnd]

/-- The phrase for a label. -/
def labelPhrase : Phrase :=
  .scoped {} (.row [.repeated 1 none false (.shorthand .blank false), glyph '"',
    .repeated 0 none false (.bracketed true (.char ⟨'"', false⟩)), glyph '"'])

/-- The phrase of the pattern for nested blocks. -/
def nestedPhrase : Phrase :=
  .row [.anchor .lineStart, blankPhrase, namePhrase, .repeated 0 none false labelPhrase,
    blankPhrase, .char ⟨'\x7b', true⟩]

/-- The phrase of the pattern for here-documents. -/
def documentPhrase : Phrase :=
  .row [.anchor .lineStart, glyph '<', glyph '<', .repeated 0 (some 1) false (glyph '-'),
    .capture 1 (some "tag") (.repeated 1 none false (.shorthand .word false))]

/-- The set of white space stands for itself in a node. -/
theorem ofSet_blanks : Node.ofSet blanks false = .one blanks false :=
  ofSet_eq regular_blanks.1 (c := ' ') (d := '\n') ((regular_blanks.2 _).2 (by decide))
    ((regular_blanks.2 _).2 (by decide)) (by decide) false

/-- The set of the characters of words stands for itself in a node. -/
theorem ofSet_wordChars : Node.ofSet wordChars false = .one wordChars false :=
  ofSet_eq built_wordChars.regular (c := 'a') (d := '_') (isWordChar_of_isAlpha (by decide))
    isWordChar_underscore
    (by decide) false

/-- The set of starts of names stands for itself in a node. -/
theorem ofSet_nameStarts : Node.ofSet nameStarts false = .one nameStarts false :=
  ofSet_eq built_nameStarts.regular (c := 'a') (d := '_') (contains_nameStarts.2 (.inl (by decide)))
    (contains_nameStarts.2 (.inr rfl)) (by decide) false

/-- The set of the characters of names stands for itself in a node. -/
theorem ofSet_nameChars : Node.ofSet nameChars false = .one nameChars false :=
  ofSet_eq built_nameChars.regular (c := '-') (d := '_') (contains_nameChars.2 (.inr rfl))
    (contains_nameChars.2 (.inl isWordChar_underscore)) (by decide) false

/-- The set of what may stand in a label stands for itself in a node. -/
theorem ofSet_unquotedChars : Node.ofSet unquotedChars false = .one unquotedChars false :=
  ofSet_eq regular_unquotedChars (c := 'a') (d := 'b') (contains_unquotedChars.2 (by decide))
    (contains_unquotedChars.2 (by decide)) (by decide) false

/-- The phrase for attributes means its items. -/
theorem meaning_attribute :
    attributePhrase.meaning? {} = some (.row (.look .textStart :: attributeItems), {}) := by
  show some (Node.ofRow [.look .textStart, Node.ofRepeat 0 none true (Node.ofSet blanks false),
      .group 1 (some "name") (Node.ofRow
        [Node.ofSet nameStarts false, Node.ofRepeat 0 none true (Node.ofSet nameChars false)]),
      Node.ofRepeat 0 none true (Node.ofSet blanks false), .text ['='],
      Node.ofRepeat 0 none true (Node.ofSet blanks false),
      .group 2 (some "value") (Node.ofRepeat 0 none false (.one lineChars false)),
      Node.ofRepeat 0 none true (Node.ofSet blanks false), .look .textEnd], ({} : Flags)) = _
  rw [ofSet_blanks, ofSet_nameStarts, ofSet_nameChars]
  rfl

/-- The phrase for nested blocks means its items. -/
theorem meaning_nested : nestedPhrase.meaning? {}
    = some (.row (.look .textStart :: nestedItems), {}) := by
  show some (Node.ofRow [.look .textStart, Node.ofRepeat 0 none true (Node.ofSet blanks false),
      .group 1 (some "name") (Node.ofRow
        [Node.ofSet nameStarts false, Node.ofRepeat 0 none true (Node.ofSet nameChars false)]),
      Node.ofRepeat 0 none true
        (Node.ofRow [Node.ofRepeat 1 none true (Node.ofSet blanks false), .text ['"'],
          Node.ofRepeat 0 none true (Node.ofSet unquotedChars false), .text ['"']]),
      Node.ofRepeat 0 none true (Node.ofSet blanks false), .text ['\x7b']], ({} : Flags)) = _
  rw [ofSet_blanks, ofSet_nameStarts, ofSet_nameChars, ofSet_unquotedChars]
  rfl

/-- The phrase for here-documents means its items. -/
theorem meaning_document : documentPhrase.meaning? {}
    = some (.row (.look .textStart :: documentItems), {}) := by
  show some (Node.ofRow [.look .textStart, .text ['<'], .text ['<'],
    Node.ofRepeat 0 (some 1) true (.text ['-']),
      .group 1 (some "tag") (Node.ofRepeat 1 none true (Node.ofSet wordChars false))],
      ({} : Flags)) = _
  rw [ofSet_wordChars]
  rfl

/-! ## Memory

A pattern that would take too much memory is not read. A bound for each set is enough.
-/

/-- White space makes a small node. -/
theorem rough_blanks : (Node.one blanks false).rough ≤ 10000 := by
  rw [blanks_eq]
  decide +kernel

/-- The starts of names make a small node. -/
theorem rough_nameStarts : (Node.one nameStarts false).rough ≤ 20000 :=
  Nat.le_trans (rough_one_le built_nameStarts false) (by decide)

/-- The characters of names make a node of bounded size. -/
theorem rough_nameChars : (Node.one nameChars false).rough ≤ 1240000 :=
  Nat.le_trans (rough_one_le built_nameChars false) (by decide)

/-- The characters of words make a node of bounded size. -/
theorem rough_wordChars : (Node.one wordChars false).rough ≤ 1240000 :=
  Nat.le_trans (rough_one_le built_wordChars false) (by decide)

/-- The characters of a line make a small node. -/
theorem rough_lineChars : (Node.one lineChars false).rough ≤ 20000 := by
  rw [lineChars_eq]
  decide +kernel

/-- What may stand in a label makes a small node. -/
theorem rough_unquotedChars : (Node.one unquotedChars false).rough ≤ 20000 := by decide +kernel

/-- The pattern for attributes finds what its items read. -/
theorem attributeLine_eq : attributeLine = ofNode (.row (.look .textStart :: attributeItems)) := by
  refine ofString_eq rfl (by decide +kernel) meaning_attribute ?_
  simp only [attributeItems, nameNode, Node.star, rough_row, rough_group, rough_repeated,
    rough_look, roughAll, List.length_singleton, show maxMemory = 10485760 from rfl]
  have hblanks := rough_blanks
  have hstarts := rough_nameStarts
  have hchars := rough_nameChars
  have hline := rough_lineChars
  generalize (Node.one blanks false).rough = a at hblanks ⊢
  generalize (Node.one nameStarts false).rough = b at hstarts ⊢
  generalize (Node.one nameChars false).rough = c at hchars ⊢
  generalize (Node.one lineChars false).rough = d at hline ⊢
  omega

/-- The pattern for nested blocks finds what its items read. -/
theorem nestedLine_eq : nestedLine = ofNode (.row (.look .textStart :: nestedItems)) := by
  refine ofString_eq rfl (by decide +kernel) meaning_nested ?_
  simp only [nestedItems, labelNode, nameNode, Node.star, Node.plus, rough_row, rough_group,
    rough_repeated, rough_look, roughAll, List.length_singleton, show maxMemory = 10485760 from rfl]
  have hblanks := rough_blanks
  have hstarts := rough_nameStarts
  have hchars := rough_nameChars
  have hunquoted := rough_unquotedChars
  generalize (Node.one blanks false).rough = a at hblanks ⊢
  generalize (Node.one nameStarts false).rough = b at hstarts ⊢
  generalize (Node.one nameChars false).rough = c at hchars ⊢
  generalize (Node.one unquotedChars false).rough = d at hunquoted ⊢
  omega

/-- The pattern for here-documents finds what its items read. -/
theorem documentStart_eq : documentStart = ofNode (.row (.look .textStart :: documentItems)) := by
  refine ofString_eq rfl (by decide +kernel) meaning_document ?_
  have hhyphen : (Node.repeated 0 (some 1) true (.text ['-'])).rough = 536 := by decide
  simp only [documentItems, Node.plus, rough_row, rough_group, rough_repeated, rough_look,
    hhyphen, roughAll, List.length_cons, List.length_nil, show maxMemory = 10485760 from rfl]
  have hchars := rough_wordChars
  generalize (Node.one wordChars false).rough = a at hchars ⊢
  omega

/-! ## Names -/

/-- A name: an ASCII letter or an underscore, and then word characters and hyphens. -/
def IsName : List Char → Prop
  | [] => False
  | c :: cs => (c.isAlpha = true ∨ c = '_') ∧ ∀ d ∈ cs, isWordChar d = true ∨ d = '-'

/-- What stands behind a name does not go on with it. -/
def EndsName (rest : List Char) : Prop := ∀ d, rest.head? = some d → nameChars.contains d = false

/-- A character in a gap, but the hyphen, is no character of names. -/
theorem not_nameChar {d : Char} (h : Within gapRanges d.toNat) (hne : d ≠ '-') :
    nameChars.contains d = false := by
  rw [← Bool.not_eq_true, contains_nameChars, not_isWordChar_of_within h]
  simpa using hne

/-- White space is no character of names. -/
theorem not_nameChar_of_isBlank {d : Char} (h : isBlank d = true) :
    nameChars.contains d = false := by
  rw [← Bool.not_eq_true, contains_nameChars, not_isWordChar_of_isBlank h]
  rintro (hfalse | rfl)
  · cases hfalse
  · rw [isBlank_of_isPrinted (by decide)] at h
    cases h

/-- A name does not start with white space. -/
theorem not_isBlank_of_isNameStart {c : Char} (h : c.isAlpha = true ∨ c = '_') :
    isBlank c = false := by
  rcases h with h | rfl
  · exact isBlank_of_isAlpha h
  · exact isBlank_of_isPrinted (by decide)

/-- White space in front of what ends a name ends it too. -/
theorem endsName_blank {b rest : List Char} (hb : AllBlank b) (h : EndsName rest) :
    EndsName (b ++ rest) := by
  cases b with
  | nil => exact h
  | cons d b =>
      intro e he
      cases he
      exact not_nameChar_of_isBlank (hb d List.mem_cons_self)

/-- A character in a gap, but the hyphen, ends a name. -/
theorem endsName_cons {d : Char} (h : Within gapRanges d.toNat) (hne : d ≠ '-') (rest : List Char) :
    EndsName (d :: rest) := by
  intro e he
  cases he
  exact not_nameChar h hne

/-- The first way to read white space takes all of it. -/
theorem head_ways_blanks {p : Place} {b rest : List Char} (h : p.rest = b ++ rest) (hb : AllBlank b)
    (hrest : ∀ d, rest.head? = some d → isBlank d = false) :
    ((Node.star true blanks).ways p).head? = some (p.behind b, []) := head_ways_star h hb hrest

/-- The first way to read a name takes all of it and notes both of its ends. -/
theorem head_ways_name {p : Place} {name rest : List Char} (h : p.rest = name ++ rest)
    (hname : IsName name) (hrest : EndsName rest) : (nameNode.ways p).head? =
      some (p.behind name, [(3, (p.behind name).offset), (2, p.offset)]) := by
  cases name with
  | nil => cases hname
  | cons c cs =>
      have hone : (Node.one nameStarts false).ways p = [(p.behind [c], [])] := by
        rw [ways_one h, if_pos (contains_nameStarts.2 hname.1)]
      have hstar := head_ways_star (Place.rest_behind (a := [c]) h)
        (fun d hd => contains_nameChars.2 (hname.2 d hd)) hrest
      have hrow : ((Node.row [.one nameStarts false, .star true nameChars]).ways p).head? =
          some (p.behind (c :: cs), []) := by
        rw [Node.ways, rowWays, hone, andThen_singleton]
        exact head_rowWays (t := []) hstar rfl
      exact head_group hrow

/-- A way of a name takes a name. -/
theorem mem_ways_name {p : Place} {v : Way} (h : v ∈ nameNode.ways p) :
    ∃ name, IsName name ∧ p.rest = name ++ v.1.rest := by
  obtain ⟨w, hw, rfl⟩ := List.mem_map.1 h
  obtain ⟨x, hx, y, hy, rfl⟩ := mem_andThen.1 hw
  obtain ⟨z, hz, u, hu, rfl⟩ := mem_andThen.1 hy
  obtain rfl := List.mem_singleton.1 hu
  obtain ⟨cs, hrest, hcs, -⟩ := mem_ways_star hz
  cases hp : p.rest with
  | nil =>
      rw [ways_one_nil hp] at hx
      cases hx
  | cons c rest =>
      rw [ways_one hp] at hx
      split at hx
      · next hc =>
        obtain rfl := List.mem_singleton.1 hx
        rw [Place.rest_behind (a := [c]) hp] at hrest
        refine ⟨c :: cs, ⟨contains_nameStarts.1 hc, fun d hd => contains_nameChars.1 (hcs d hd)⟩,
          ?_⟩
        rw [hrest]
        rfl
      · cases hx

/-- A text can be read in one way only as white space, a name and what does not go on with it. -/
theorem eq_of_named {b b' name name' rest rest' : List Char} (hb : AllBlank b) (hb' : AllBlank b')
    (hname : IsName name) (hname' : IsName name') (hrest : EndsName rest) (hrest' : EndsName rest')
    (h : b ++ (name ++ rest) = b' ++ (name' ++ rest')) : rest = rest' := by
  have hdrop : ∀ {b name rest : List Char}, AllBlank b → IsName name → EndsName rest →
      ((b ++ (name ++ rest)).dropWhile isBlank).tail.dropWhile nameChars.contains = rest := by
    intro b name rest hb hname hrest
    cases name with
    | nil => cases hname
    | cons c cs =>
        rw [List.dropWhile_append_of_pos hb, List.cons_append, List.dropWhile_cons_of_neg
          (by rw [not_isBlank_of_isNameStart hname.1]; exact Bool.false_ne_true), List.tail_cons,
          List.dropWhile_append_of_pos fun d hd => contains_nameChars.2 (hname.2 d hd)]
        cases rest with
        | nil => rfl
        | cons d rest =>
            exact List.dropWhile_cons_of_neg (by rw [hrest d rfl]; exact Bool.false_ne_true)
  rw [← hdrop hb hname hrest, ← hdrop hb' hname' hrest', h]

/-! ## Lines with a value -/

/-- What the items for attributes read does not depend on what stands in front. -/
theorem steady_attributeItems : AllSteady attributeItems := by
  have hblanks := regular_blanks.1
  simp only [attributeItems, nameNode, Node.star, AllSteady, Node.Steady, and_true, true_and]
  exact ⟨⟨hblanks, fun _ => rfl⟩, ⟨built_nameStarts.regular, built_nameChars.regular, fun _ => rfl⟩,
    ⟨hblanks, fun _ => rfl⟩, ⟨hblanks, fun _ => rfl⟩, ⟨regular_lineChars, fun _ => rfl⟩, hblanks,
      fun _ => rfl⟩

/-- White space up to the end of the text. -/
theorem head_ways_end {p : Place} {b : List Char} (h : p.rest = b) (hb : AllBlank b) :
    (rowWays [.star true blanks, .look .textEnd] p).head? = some (p.behind b, []) := by
  have hrest : p.rest = b ++ [] := by rw [h, List.append_nil]
  have hend : (p.behind b).rest = [] := Place.rest_behind hrest
  have hlook : (Node.look .textEnd).ways (p.behind b) = [(p.behind b, [])] := by
    rw [Node.ways, Look.holds, hend]
    rfl
  refine head_rowWays (head_ways_blanks hrest hb fun d hd => by cases hd) (t := []) ?_
  rw [rowWays, hlook, andThen_singleton]
  rfl

/-- Where only white space is read up to the end, there is only white space. -/
theorem allBlank_of_end {p : Place} {v : Way}
    (h : v ∈ rowWays [.star true blanks, .look .textEnd] p) :
    AllBlank p.rest := by
  obtain ⟨w, hw, u, hu, -⟩ := mem_andThen.1 h
  obtain ⟨x, hx, -⟩ := mem_andThen.1 hu
  obtain ⟨cs, hcs, hblank, -⟩ := mem_ways_star hw
  rw [Node.ways, Look.holds] at hx
  split at hx
  · next hend =>
    rw [hcs, List.isEmpty_iff.1 hend, List.append_nil]
    exact hblank
  · cases hx

/-- A value ends in front of the white space at the end of its line. -/
theorem head_ways_value {p : Place} {value b : List Char} (h : p.rest = value ++ b)
    (hline : '\n' ∉ value) (hb : AllBlank b) (hsolid : Solid value) :
    (rowWays [.group 2 (some "value") (.star false lineChars), .star true blanks,
      .look .textEnd] p).head? =
      some ((p.behind value).behind b, [(5, (p.behind value).offset), (4, p.offset)]) := by
  obtain ⟨before, after, hways, hbefore⟩ := ways_lazy h fun c hc =>
    contains_lineChars.2 fun hnewline => hline (hnewline ▸ hc)
  have hnone : ∀ v ∈ before.map fun (q, s) => (q, (5, q.offset) :: (s ++ [(4, p.offset)])),
      rowWays [.star true blanks, .look .textEnd] v.1 = [] := by
    intro v hv
    obtain ⟨w, hw, rfl⟩ := List.mem_map.1 hv
    obtain ⟨a, c, rfl, hc, rfl⟩ := hbefore w hw
    refine List.eq_nil_iff_forall_not_mem.2 fun u hu => ?_
    -- the last character of the value would be white space
    have hblank : AllBlank (c ++ b) := by
      rw [← Place.rest_behind (p := p) (a := a) (b := c ++ b) (by rw [h, List.append_assoc])]
      exact allBlank_of_end hu
    have hlast := hsolid (c.getLast hc)
      (by rw [List.getLast?_append, List.getLast?_eq_getLast_of_ne_nil hc]; rfl)
    rw [hblank _ (List.mem_append_left _ (List.getLast_mem hc))] at hlast
    cases hlast
  have hgroup : (Node.group 2 (some "value") (.star false lineChars)).ways p =
      (before.map fun (q, s) => (q, (5, q.offset) :: (s ++ [(4, p.offset)]))) ++
        (p.behind value, [(5, (p.behind value).offset), (4, p.offset)]) ::
          after.map fun (q, s) => (q, (5, q.offset) :: (s ++ [(4, p.offset)])) := by
    rw [Node.ways, hways, List.map_append, List.map_cons]
    rfl
  have hend := head_ways_end (Place.rest_behind h) hb
  rw [rowWays, hgroup, andThen_of_before hnone]
  exact head_andThen rfl hend

/-- What stands behind white space starts with a name, which is not blank. -/
theorem head?_name {name : List Char} (hname : IsName name) (rest : List Char) :
    ∀ d, (name ++ rest).head? = some d → isBlank d = false := by
  cases name with
  | nil => cases hname
  | cons c cs =>
      intro d hd
      cases hd
      exact not_isBlank_of_isNameStart hname.1

/-- What stands behind white space starts with a printed character, which is not blank. -/
theorem head?_cons {c : Char} (hc : isPrinted c = true) (rest : List Char) :
    ∀ d, (c :: rest).head? = some d → isBlank d = false := by
  intro d hd
  cases hd
  exact isBlank_of_isPrinted hc

/-- The preferred way along a line with a name, an equals sign and a value. -/
theorem head_ways_attribute {p : Place} {b name b' rest : List Char}
    (h : p.rest = b ++ (name ++ (b' ++ '=' :: rest))) (hb : AllBlank b)
    (hname : IsName name) (hb' : AllBlank b') (hrest : '\n' ∉ rest) :
    ∃ c c' stop, rest = c ++ (trim rest ++ c') ∧ (rowWays attributeItems p).head? = some (stop,
      [(5, p.offset + byteLength (b ++ (name ++ (b' ++ '=' :: c))) + byteLength (trim rest)),
        (4, p.offset + byteLength (b ++ (name ++ (b' ++ '=' :: c)))),
        (3, p.offset + byteLength b + byteLength name), (2, p.offset + byteLength b)]) := by
  obtain ⟨c, c', hsplit, hc, hc', hsolid, hhead⟩ := exists_trim rest
  have hline : '\n' ∉ trim rest := fun h => hrest (hsplit ▸ by simp [h])
  have hends : EndsName (b' ++ '=' :: rest) :=
    endsName_blank hb' (endsName_cons (by decide) (by decide) rest)
  -- from the last node to the first, each with what stands behind it
  have h1 := Place.rest_behind h
  have h2 := Place.rest_behind h1
  have h3 := Place.rest_behind h2
  have h4 : ((((p.behind b).behind name).behind b').behind ['=']).rest = c ++ (trim rest ++ c') :=
    (Place.rest_behind (a := ['=']) h3).trans hsplit
  have hvalue := head_rowWays (head_ways_blanks h4 hc hhead)
    (head_ways_value (Place.rest_behind h4) hline hc' hsolid)
  have hequals := head_rowWays (a := .text ['=']) (by rw [ways_text h3]; rfl) hvalue
  have hblank := head_rowWays (head_ways_blanks h2 hb' (head?_cons (by decide) rest)) hequals
  have hnamed := head_rowWays (head_ways_name h1 hname hends) hblank
  have hall := head_rowWays (head_ways_blanks h hb (head?_name hname _)) hnamed
  refine ⟨c, c', _, hsplit, hall.trans (congrArg (fun saves => some (_, saves)) ?_)⟩
  simp only [Place.offset_behind, byteLength_append, byteLength_cons, byteLength_nil, Nat.add_assoc,
    Nat.add_zero, List.append_nil, List.nil_append, List.cons_append]

/-- A line with a name, an equals sign and a value. -/
theorem find?_attributeLine {b name b' rest : List Char} (hb : AllBlank b) (hname : IsName name)
    (hb' : AllBlank b') (hrest : '\n' ∉ rest) :
    ∃ m, attributeLine.find? (b ++ (name ++ (b' ++ '=' :: rest))) = some m ∧
      m.textOf "name" = String.ofList name ∧ m.textOf "value" = String.ofList (trim rest) := by
  obtain ⟨c, c', stop, hsplit, hways⟩ :=
    head_ways_attribute (p := .start (b ++ (name ++ (b' ++ '=' :: rest)))) rfl hb hname hb' hrest
  have hoffset : (Place.start (b ++ (name ++ (b' ++ '=' :: rest)))).offset = 0 := rfl
  simp only [hoffset, Nat.zero_add] at hways
  have hfind := find?_anchored steady_attributeItems (b ++ (name ++ (b' ++ '=' :: rest)))
  rw [← attributeLine_eq, hways] at hfind
  refine ⟨_, hfind, ?_, ?_⟩
  · exact textOf_toMatch (i := 1) (by rw [attributeLine_eq]; rfl)
      (by rw [attributeLine_eq]; decide) rfl rfl rfl
  · have htext : b ++ (name ++ (b' ++ '=' :: rest))
        = (b ++ (name ++ (b' ++ '=' :: c))) ++ (trim rest ++ c') := by
      conv => lhs; rw [hsplit]
      simp
    exact textOf_toMatch (i := 2) (by rw [attributeLine_eq]; rfl) (by rw [attributeLine_eq]; decide)
      htext rfl rfl

/-- Whatever the items for attributes read has a name and a sign of equality behind it. -/
theorem exists_of_attribute {p : Place} {v : Way} (h : v ∈ rowWays attributeItems p) :
    ∃ b name b' rest, p.rest = b ++ (name ++ (b' ++ '=' :: rest)) ∧ AllBlank b ∧ IsName name
      ∧ AllBlank b' := by
  obtain ⟨w, hw, u, hu, -⟩ := mem_andThen.1 h
  obtain ⟨x, hx, y, hy, -⟩ := mem_andThen.1 hu
  obtain ⟨z, hz, t, ht, -⟩ := mem_andThen.1 hy
  obtain ⟨e, he, -⟩ := mem_andThen.1 ht
  obtain ⟨b, hb, hblank, -⟩ := mem_ways_star hw
  obtain ⟨name, hname, hrest⟩ := mem_ways_name hx
  obtain ⟨b', hb', hblank', -⟩ := mem_ways_star hz
  have hequals := mem_ways_text he
  exact ⟨b, name, b', e.1.rest, by rw [hb, hrest, hb', hequals]; rfl, hblank, hname, hblank'⟩

/-- In a line without a name and a sign of equality no attribute is found. -/
theorem find?_attributeLine_eq_none {line : List Char}
    (h : ∀ b name b' rest,
      AllBlank b → IsName name → AllBlank b' → line ≠ b ++ (name ++ (b' ++ '=' :: rest))) :
    attributeLine.find? line = none := by
  rw [attributeLine_eq]
  refine find?_anchored_eq_none steady_attributeItems fun v hv => ?_
  obtain ⟨b, name, b', rest, hrest, hb, hname, hb'⟩ := exists_of_attribute hv
  exact h b name b' rest hb hname hb' hrest

/-! ## Lines that open a nested block -/

/-- Labels: each is a text in quotes behind white space. -/
inductive Labels : List Char → Prop
  | nil : Labels []
  | cons {b content labels : List Char} (hne : b ≠ []) (hb : AllBlank b) (hcontent : '"' ∉ content)
      (h : Labels labels) : Labels (b ++ '"' :: (content ++ '"' :: labels))

/-- Behind the name of a nested block there is white space, and then a quote or a brace. -/
theorem exists_of_labels {labels : List Char} (h : Labels labels) {b : List Char} (hb : AllBlank b)
    (rest : List Char) : ∃ b' c rest', labels ++ (b ++ '\x7b' :: rest) = b' ++ c :: rest'
    ∧ AllBlank b' ∧
      (c = '"' ∨ c = '\x7b') := by
  cases h with
  | nil => exact ⟨b, '\x7b', rest, rfl, hb, .inr rfl⟩
  | @cons b' content labels hne hb' hcontent h =>
      exact ⟨b', '"', content ++ '"' :: labels ++ (b ++ '\x7b' :: rest), by simp, hb', .inl rfl⟩

/-- The labels of a block end the name in front of them. -/
theorem endsName_labels {labels : List Char} (h : Labels labels) {b : List Char} (hb : AllBlank b)
    (rest : List Char) : EndsName (labels ++ (b ++ '\x7b' :: rest)) := by
  obtain ⟨b', c, rest', hsplit, hb', hc⟩ := exists_of_labels h hb rest
  rw [hsplit]
  refine endsName_blank hb' ?_
  rcases hc with rfl | rfl <;> exact endsName_cons (by decide) (by decide) rest'

/-- What the node for labels reads does not depend on what stands in front. -/
theorem steady_labelNode : labelNode.Steady :=
  ⟨⟨regular_blanks.1, fun _ => rfl⟩, trivial, ⟨regular_unquotedChars, fun _ => rfl⟩,
    trivial, trivial⟩

/-- The node for labels takes characters away. -/
theorem takes_labelNode : Takes labelNode.ways := (labelNode.opens steady_labelNode).takes

/-- What the items for nested blocks read does not depend on what stands in front. -/
theorem steady_nestedItems : AllSteady nestedItems := by
  simp only [nestedItems, nameNode, Node.star, AllSteady, Node.Steady, and_true]
  exact ⟨⟨regular_blanks.1, fun _ => rfl⟩,
    ⟨built_nameStarts.regular, built_nameChars.regular, fun _ => rfl⟩,
      ⟨steady_labelNode, fun _ => rfl⟩, regular_blanks.1, fun _ => rfl⟩

/-- A way of a label begins with white space and a quote. -/
theorem exists_of_label {p : Place} {v : Way} (h : v ∈ labelNode.ways p) :
    ∃ b rest, p.rest = b ++ '"' :: rest ∧ AllBlank b := by
  obtain ⟨w, hw, u, hu, -⟩ := mem_andThen.1 h
  obtain ⟨x, hx, -⟩ := mem_andThen.1 hu
  obtain ⟨c, cs, hcs, hblank⟩ := mem_ways_plus hw
  exact ⟨c :: cs, x.1.rest, by rw [hcs, mem_ways_text hx]; rfl, hblank⟩

/-- The first way to read a label takes its quotes and all between them. -/
theorem head_ways_label {p : Place} {b content rest : List Char}
    (h : p.rest = b ++ '"' :: (content ++ '"' :: rest)) (hne : b ≠ []) (hb : AllBlank b)
    (hcontent : '"' ∉ content) :
    (labelNode.ways p).head? = some ((((p.behind b).behind ['"']).behind content).behind ['"'],
      []) := by
  obtain ⟨c, cs, rfl⟩ := List.exists_cons_of_ne_nil hne
  have h1 := Place.rest_behind h
  have h2 := Place.rest_behind (a := ['"']) h1
  have h3 := Place.rest_behind h2
  have hopen := @ways_text ['"'] _ (content ++ '"' :: rest) h1
  have hclose := @ways_text ['"'] _ rest h3
  have hcontent : ∀ d ∈ content, unquotedChars.contains d = true := fun d hd =>
    contains_unquotedChars.2 fun heq => hcontent (heq ▸ hd)
  have hquote : ∀ d, ('"' :: rest).head? = some d → unquotedChars.contains d = false := by
    intro d hd
    cases hd
    rw [← Bool.not_eq_true, contains_unquotedChars]
    exact not_not_intro rfl
  rw [labelNode, Node.ways]
  refine head_rowWays (t := []) (head_ways_plus h hb (head?_cons (by decide) _)) ?_
  refine head_rowWays (t := []) (s := []) (by rw [hopen]; rfl) ?_
  refine head_rowWays (t := []) (head_ways_star h2 hcontent hquote) ?_
  exact head_rowWays (t := []) (by rw [hclose]; rfl) rfl

/-- The loop over labels stops in front of white space and a brace. -/
theorem head_ways_labels {p : Place} {labels b rest : List Char}
    (h : p.rest = labels ++ (b ++ '\x7b' :: rest)) (hlabels : Labels labels) (hb : AllBlank b) :
    ∃ q, ((Node.repeated 0 none true labelNode).ways p).head? = some (q, [])
      ∧ q.rest = b ++ '\x7b' :: rest := by
  have hloop : (Node.repeated 0 none true labelNode).ways p = loop true labelNode.ways p :=
    andThen_singleton p _
  rw [hloop]
  induction hlabels generalizing p with
  | nil =>
      have hnil : labelNode.ways p = [] := by
        refine List.eq_nil_iff_forall_not_mem.2 fun v hv => ?_
        obtain ⟨b', rest', hrest, hb'⟩ := exists_of_label hv
        have htrim := trimStart_blank_cons hb' (c := '"') (isBlank_of_isPrinted (by decide)) rest'
        rw [← hrest, h, List.nil_append, trimStart_blank_cons hb (isBlank_of_isPrinted (by decide))]
          at htrim
        cases htrim
      exact ⟨p, by rw [loop_of_nil takes_labelNode hnil]; rfl, h⟩
  | @cons b' content labels hne hb' hcontent hlabels ih =>
      have hrest : p.rest = b' ++ '"' :: (content ++ '"' :: (labels ++ (b ++ '\x7b' :: rest))) := by
        rw [h]
        simp
      have h1 := Place.rest_behind (a := ['"']) (Place.rest_behind hrest)
      have h2 := Place.rest_behind (a := ['"']) (Place.rest_behind h1)
      obtain ⟨q, hq, hqrest⟩ := ih h2 (andThen_singleton _ _)
      exact ⟨q, head_loop takes_labelNode (t := []) (head_ways_label hrest hne hb' hcontent) hq,
        hqrest⟩

/-- The preferred way along a line with a name, labels and a brace. -/
theorem head_ways_nested {p : Place} {b name labels b' rest : List Char}
    (h : p.rest = b ++ (name ++ (labels ++ (b' ++ '\x7b' :: rest)))) (hb : AllBlank b)
    (hname : IsName name) (hlabels : Labels labels) (hb' : AllBlank b') :
    ∃ stop, (rowWays nestedItems p).head? = some (stop,
      [(3, p.offset + byteLength b + byteLength name), (2, p.offset + byteLength b)]) := by
  have hends := endsName_labels hlabels hb' rest
  have h1 := Place.rest_behind h
  obtain ⟨q, hq, hrest⟩ := head_ways_labels (Place.rest_behind h1) hlabels hb'
  have htext := @ways_text ['\x7b'] _ rest (Place.rest_behind hrest)
  have hbrace := @head_rowWays (.text ['\x7b']) [] _ _ _ _ [] (by rw [htext]; rfl) rfl
  have hblank := head_rowWays (head_ways_blanks hrest hb' (head?_cons (by decide) rest)) hbrace
  have hnamed := head_rowWays (head_ways_name h1 hname hends) (head_rowWays hq hblank)
  have hall := head_rowWays (head_ways_blanks h hb (head?_name hname _)) hnamed
  refine ⟨_, hall.trans (congrArg (fun saves => some (_, saves)) ?_)⟩
  simp only [Place.offset_behind, List.append_nil, List.nil_append]

/-- A line with a name, labels and a brace. -/
theorem find?_nestedLine {b name labels b' rest : List Char} (hb : AllBlank b) (hname : IsName name)
    (hlabels : Labels labels) (hb' : AllBlank b') :
    ∃ m, nestedLine.find? (b ++ (name ++ (labels ++ (b' ++ '\x7b' :: rest)))) = some m ∧
      m.textOf "name" = String.ofList name := by
  obtain ⟨stop, hways⟩ := head_ways_nested
    (p := .start (b ++ (name ++ (labels ++ (b' ++ '\x7b' :: rest))))) rfl hb hname hlabels hb'
  have hoffset : (Place.start (b ++ (name ++ (labels ++ (b' ++ '\x7b' :: rest))))).offset = 0 := rfl
  simp only [hoffset, Nat.zero_add] at hways
  have hfind := find?_anchored steady_nestedItems
    (b ++ (name ++ (labels ++ (b' ++ '\x7b' :: rest))))
  rw [← nestedLine_eq, hways] at hfind
  exact ⟨_, hfind,
    textOf_toMatch (i := 1) (by rw [nestedLine_eq]; rfl) (by rw [nestedLine_eq]; decide)
      rfl rfl rfl⟩

/-- Whatever the items for nested blocks read starts with a name. -/
theorem exists_of_nested {p : Place} {v : Way} (h : v ∈ rowWays nestedItems p) :
    ∃ b name rest, p.rest = b ++ (name ++ rest) ∧ AllBlank b ∧ IsName name := by
  obtain ⟨w, hw, u, hu, -⟩ := mem_andThen.1 h
  obtain ⟨x, hx, -⟩ := mem_andThen.1 hu
  obtain ⟨b, hb, hblank, -⟩ := mem_ways_star hw
  obtain ⟨name, hname, hrest⟩ := mem_ways_name hx
  exact ⟨b, name, x.1.rest, by rw [hb, hrest], hblank, hname⟩

/-- In a line that does not start with a name no nested block is found. -/
theorem find?_nestedLine_eq_none {line : List Char} (h : ∀ b name rest, AllBlank b → IsName name →
    line ≠ b ++ (name ++ rest)) : nestedLine.find? line = none := by
  rw [nestedLine_eq]
  refine find?_anchored_eq_none steady_nestedItems fun v hv => ?_
  obtain ⟨b, name, rest, hrest, hb, hname⟩ := exists_of_nested hv
  exact h b name rest hb hname hrest

/-! ## Headers -/

/-- A line assigns a value to a name. -/
theorem ofLine?_value {b name b' rest : List Char} (hb : AllBlank b) (hname : IsName name)
    (hb' : AllBlank b') (hline : '\n' ∉ b ++ (name ++ (b' ++ '=' :: rest))) :
    Header.ofLine? (b ++ (name ++ (b' ++ '=' :: rest))) =
      some ⟨String.ofList name, some (String.ofList (trim rest))⟩ := by
  have hrest : '\n' ∉ rest := fun h => hline (by simp [h])
  obtain ⟨m, hfind, hm, hvalue⟩ := find?_attributeLine hb hname hb' hrest
  rw [Header.ofLine?, hfind]
  show some (Header.mk _ (some _)) = _
  rw [hm, hvalue]

/-- A line opens the nested block with a name. -/
theorem ofLine?_nested {b name labels b' rest : List Char} (hb : AllBlank b) (hname : IsName name)
    (hlabels : Labels labels) (hb' : AllBlank b') :
    Header.ofLine? (b ++ (name ++ (labels ++ (b' ++ '\x7b' :: rest))))
      = some ⟨String.ofList name, none⟩ := by
  obtain ⟨m, hfind, hm⟩ := @find?_nestedLine _ _ _ _ rest hb hname hlabels hb'
  have hnone : attributeLine.find? (b ++ (name ++ (labels ++ (b' ++ '\x7b' :: rest)))) = none := by
    refine find?_attributeLine_eq_none fun a name' a' rest' ha hname' ha' h => ?_
    -- behind the name an equals sign would stand where there is a quote or a brace
    obtain ⟨b'', c, rest'', hsplit, hb'', hc⟩ := exists_of_labels hlabels hb' rest
    have hends : EndsName (a' ++ '=' :: rest') :=
      endsName_blank ha' (endsName_cons (by decide) (by decide) _)
    have hbehind := congrArg trimStart
      (eq_of_named hb ha hname hname' (endsName_labels hlabels hb' rest) hends h)
    rw [hsplit, trimStart_blank_cons ha' (isBlank_of_isPrinted (by decide))] at hbehind
    rcases hc with rfl | rfl <;>
      · rw [trimStart_blank_cons hb'' (isBlank_of_isPrinted (by decide))] at hbehind
        cases hbehind
  rw [Header.ofLine?, hfind, hnone]
  show some (Header.mk _ none) = _
  rw [hm]

/-- A line that does not begin with a name has no header. -/
theorem ofLine?_eq_none {line : List Char}
    (h : ∀ c, (trimStart line).head? = some c → c.isAlpha = false ∧ c ≠ '_') :
    Header.ofLine? line = none := by
  have hline : ∀ b name rest, AllBlank b → IsName name → line ≠ b ++ (name ++ rest) := by
    rintro b name rest hb hname rfl
    cases name with
    | nil => cases hname
    | cons c cs =>
        rw [List.cons_append, trimStart_blank_cons hb (not_isBlank_of_isNameStart hname.1)] at h
        obtain ⟨halpha, hne⟩ := h c rfl
        rcases hname.1 with hc | hc
        · exact Bool.false_ne_true (halpha.symm.trans hc)
        · exact hne hc
  rw [Header.ofLine?, find?_attributeLine_eq_none fun b name b' rest hb hname _ =>
    hline b name _ hb hname, find?_nestedLine_eq_none hline]
  rfl

/-! ## Here-documents -/

/-- The hyphen with which the end of a document may be indented, or nothing. -/
def IsDash (dash : List Char) : Prop := dash = [] ∨ dash = ['-']

/-- The text starts a here-document. -/
def OpensDocument (text : List Char) : Prop :=
  ∃ dash c rest, text = '<' :: '<' :: (dash ++ c :: rest) ∧ IsDash dash ∧ isWordChar c = true

/-- What the items for here-documents read does not depend on what stands in front. -/
theorem steady_documentItems : AllSteady documentItems := by
  simp only [documentItems, Node.plus, AllSteady, Node.Steady, and_true, true_and]
  exact ⟨nofun, built_wordChars.regular, fun _ => rfl⟩

/-- A hyphen that may be left out. -/
theorem ways_dash (p : Place) : (Node.repeated 0 (some 1) true (.text ['-'])).ways p =
    (Node.text ['-']).ways p ++ [(p, [])] := by
  have hrounds : (Node.repeated 0 (some 1) true (.text ['-'])).ways p =
      rounds true (Node.text ['-']).ways 1 p := andThen_singleton p _
  have hdone : (rounds true (Node.text ['-']).ways 0) = fun q => [(q, [])] := rfl
  rw [hrounds, rounds, hdone, andThen_done]
  rfl

theorem not_isWordChar_hyphen : isWordChar '-' = false := not_isWordChar_of_within (by decide)

/-- The first way to read a dash takes it if there is one. -/
theorem head_ways_dash {p : Place} {dash rest : List Char} (h : p.rest = dash ++ rest)
    (hdash : IsDash dash) (hrest : rest.head? ≠ some '-') :
    ((Node.repeated 0 (some 1) true (.text ['-'])).ways p).head? = some (p.behind dash, []) := by
  rw [ways_dash]
  rcases hdash with rfl | rfl
  · have hnone : (Node.text ['-']).ways p = [] := by
      refine List.eq_nil_iff_forall_not_mem.2 fun v hv => ?_
      rw [← List.nil_append rest, ← h, mem_ways_text hv] at hrest
      exact hrest rfl
    rw [hnone]
    rfl
  · rw [ways_text h]
    rfl

/-- The preferred way along the start of a here-document. -/
theorem head_ways_document {p : Place} {dash tag rest : List Char}
    (h : p.rest = ['<', '<'] ++ (dash ++ (tag ++ rest))) (hdash : IsDash dash) (hne : tag ≠ [])
    (htag : ∀ d ∈ tag, isWordChar d = true)
    (hrest : ∀ d, rest.head? = some d → isWordChar d = false) :
    ∃ stop, (rowWays documentItems p).head? = some (stop,
      [(3, p.offset + byteLength ('<' :: '<' :: dash) + byteLength tag),
        (2, p.offset + byteLength ('<' :: '<' :: dash))]) := by
  obtain ⟨c, cs, rfl⟩ := List.exists_cons_of_ne_nil hne
  have hhyphen : (c :: cs ++ rest).head? ≠ some '-' := by
    intro hc
    cases hc
    have hword := htag '-' List.mem_cons_self
    rw [not_isWordChar_hyphen] at hword
    cases hword
  have h1 := Place.rest_behind h
  have hgroup := @head_group 1 (some "tag") _ _ _ _
    (head_ways_plus (Place.rest_behind h1) htag hrest)
  have htagged := @head_rowWays _ [] _ _ _ _ [] hgroup rfl
  have hdashed := head_rowWays (head_ways_dash h1 hdash hhyphen) htagged
  have hall := head_rowWays (a := .text ['<', '<']) (by rw [ways_text h]; rfl) hdashed
  refine ⟨_, hall.trans (congrArg (fun saves => some (_, saves)) ?_)⟩
  simp only [Place.offset_behind, byteLength_cons, byteLength_nil, Nat.add_assoc, Nat.add_zero,
    List.append_nil, List.nil_append]

/-- The tag of a here-document goes as far as there are word characters. -/
theorem documentTag?_document {dash tag rest : List Char} (hdash : IsDash dash) (hne : tag ≠ [])
    (htag : ∀ d ∈ tag, isWordChar d = true)
    (hrest : ∀ d, rest.head? = some d → isWordChar d = false) :
    documentTag? (String.ofList ('<' :: '<' :: (dash ++ (tag ++ rest))))
      = some (String.ofList tag) := by
  generalize htext : '<' :: '<' :: (dash ++ (tag ++ rest)) = text
  obtain ⟨stop, hways⟩ := head_ways_document (p := .start text) htext.symm hdash hne htag hrest
  have hoffset : (Place.start text).offset = 0 := rfl
  rw [hoffset, Nat.zero_add] at hways
  have hfind := find?_anchored steady_documentItems text
  rw [← documentStart_eq, hways] at hfind
  rw [documentTag?, String.toList_ofList, hfind]
  have hnames : documentStart.names.lookup "tag" = some 1 := by
    rw [documentStart_eq]
    rfl
  have hcount : 1 ≤ documentStart.groupCount := by
    rw [documentStart_eq]
    decide
  exact congrArg some (@textOf_toMatch _ _ _ hnames hcount _ ('<' :: '<' :: dash) _ _ htext.symm
    _ _ rfl rfl)

/-- Whatever the items for here-documents read opens one. -/
theorem exists_of_document {p : Place} {v : Way} (h : v ∈ rowWays documentItems p) :
    OpensDocument p.rest := by
  obtain ⟨w, hw, u, hu, -⟩ := mem_andThen.1 h
  obtain ⟨x, hx, y, hy, -⟩ := mem_andThen.1 hu
  obtain ⟨z, hz, -⟩ := mem_andThen.1 hy
  obtain ⟨t, ht, -⟩ := List.mem_map.1 hz
  obtain ⟨c, cs, hcs, hword⟩ := mem_ways_plus ht
  have hstart := mem_ways_text hw
  rw [ways_dash] at hx
  rcases List.mem_append.1 hx with hx | hx
  · exact ⟨['-'], c, _,
      by rw [hstart, mem_ways_text hx, hcs]; rfl, .inr rfl, hword c List.mem_cons_self⟩
  · obtain rfl := List.mem_singleton.1 hx
    exact ⟨[], c, _, by rw [hstart, hcs]; rfl, .inl rfl, hword c List.mem_cons_self⟩

/-- A value that opens no here-document has no tag. -/
theorem documentTag?_eq_none {value : List Char} (h : ¬ OpensDocument value) :
    documentTag? (String.ofList value) = none := by
  rw [documentTag?, String.toList_ofList, documentStart_eq,
    find?_anchored_eq_none steady_documentItems fun v hv => h (exists_of_document hv)]
  rfl

end CodeAtlas.Source.Terraform
