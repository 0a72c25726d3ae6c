import CodeAtlas.Proofs.Pattern.Finding
import CodeAtlas.Proofs.Terraform.Header
import CodeAtlas.Source.Terraform.Basic

/-!
# What a body mentions

The pattern of mentions takes word characters, hyphens and dots, so any other character parts the
texts that it finds. A text without a dot mentions nothing; the type and the name of a resource with
a dot between them are found whole. What a block depends on is made of the texts found in its body,
one after the other, whatever they stand in.
-/

namespace CodeAtlas.Source.Terraform

open Pattern Unicode CharSet Text

/-! ## The pattern -/

/-- The small ASCII letters. -/
def lowers : CharSet := .ofSorted [(0x61, 0x7A)]

/-- The small ASCII letters and the digits. -/
def lowerDigits : CharSet := .unions [.ofSorted [(0x30, 0x39)], .ofSorted [(0x61, 0x7A)]]

theorem built_lowers : Built 30 (· ≤ topCodePoint) lowers := built_range (by decide) (by decide)

/-- The set of digits and small letters is built from points that are in range. -/
theorem built_lowerDigits : Built 60 (· ≤ topCodePoint) lowerDigits :=
  .unions <| .cons (built_range (by decide) (by decide))
    <| .cons (built_range (by decide) (by decide)) .nil

/-- The set of small letters has exactly these. -/
theorem contains_lowers {c : Char} : lowers.contains c = true ↔ c.isLower = true := by
  have hlower : c.isLower = (decide (c.val ≥ 97) && decide (c.val ≤ 122)) := rfl
  rw [lowers, contains_ofSorted (by decide), hlower, Bool.and_eq_true, decide_eq_true_iff,
    decide_eq_true_iff]
  rfl

/-- The set of digits and small letters has exactly these. -/
theorem contains_lowerDigits {c : Char} :
    lowerDigits.contains c = true ↔ c.isDigit = true ∨ c.isLower = true := by
  have hregular : ∀ s ∈ [CharSet.ofSorted [(0x30, 0x39)], .ofSorted [(0x61, 0x7A)]], s.Regular := by
    simp only [List.forall_mem_cons]
    exact ⟨regular_range (by decide), regular_range (by decide), nofun⟩
  have hdigit : (ofSorted [(0x30, 0x39)]).contains c = true ↔ c.isDigit = true := by
    rw [contains_ofSorted (by decide), Char.isDigit, Bool.and_eq_true, decide_eq_true_iff,
      decide_eq_true_iff]
    rfl
  rw [lowerDigits, contains_unions hregular, List.any_cons, List.any_cons, List.any_nil,
    Bool.or_false, Bool.or_eq_true, hdigit]
  exact or_congr_right contains_lowers

/-- The node that reads the word for data and a type. -/
def dataNode : Node :=
  .row [.text "data.".toList, .one lowers false, .star true nameChars, .text ['.'],
    .plus true nameChars]

/-- The node that reads the word for modules and a name. -/
def moduleNode : Node := .row [.text "module.".toList, .plus true nameChars]

/-- The node that reads a type and a name. -/
def typedNode : Node :=
  .row [.one lowers false, .star true lowerDigits, .text ['_'], .plus true nameChars, .text ['.'],
    .one nameStarts false, .star true nameChars]

/-- The node of the pattern for mentions: one of the three forms of an address. -/
def mentionNode : Node :=
  .row [.look (.wordBoundary false), .choice [dataNode, moduleNode, typedNode]]

/-- How the characters that go on in names are written. -/
def nameCharPhrase : Phrase :=
  .bracketed false (.union [.shorthand .word false, .char ⟨'-', false⟩])

/-- The phrase for a small letter. -/
def lowerPhrase : Phrase := .bracketed false (.range ⟨'a', false⟩ ⟨'z', false⟩)

/-- The phrase for the word for data and a type. -/
def dataPhrase : Phrase :=
  .row [glyph 'd', glyph 'a', glyph 't', glyph 'a', glyph '.', lowerPhrase,
    .repeated 0 none false nameCharPhrase, glyph '.', .repeated 1 none false nameCharPhrase]

/-- The phrase for the word for modules and a name. -/
def modulePhrase : Phrase :=
  .row [glyph 'm', glyph 'o', glyph 'd', glyph 'u', glyph 'l', glyph 'e', glyph '.',
    .repeated 1 none false nameCharPhrase]

/-- The phrase for a type and a name. -/
def typedPhrase : Phrase :=
  .row [lowerPhrase,
    .repeated 0 none false (.bracketed false
      (.union [.range ⟨'a', false⟩ ⟨'z', false⟩, .range ⟨'0', false⟩ ⟨'9', false⟩])),
    glyph '_', .repeated 1 none false nameCharPhrase, glyph '.',
    .bracketed false (.union
      [.range ⟨'A', false⟩ ⟨'Z', false⟩, .range ⟨'a', false⟩ ⟨'z', false⟩, .char ⟨'_', false⟩]),
    .repeated 0 none false nameCharPhrase]

/-- The phrase of the pattern for mentions. -/
def mentionPhrase : Phrase :=
  .row [.anchor .wordBoundary, .scoped {} (.choice [dataPhrase, modulePhrase, typedPhrase])]

/-- The set of small letters stands for itself in a node. -/
theorem ofSet_lowers : Node.ofSet lowers false = .one lowers false :=
  ofSet_eq built_lowers.regular (c := 'a') (d := 'b') (contains_lowers.2 rfl)
    (contains_lowers.2 rfl) (by decide) false

/-- The set of digits and small letters stands for itself in a node. -/
theorem ofSet_lowerDigits : Node.ofSet lowerDigits false = .one lowerDigits false :=
  ofSet_eq built_lowerDigits.regular (c := 'a') (d := 'b') (contains_lowerDigits.2 (.inr rfl))
    (contains_lowerDigits.2 (.inr rfl)) (by decide) false

/-- The phrase for data means its node. -/
theorem meaning_data : dataPhrase.meaning? {} = some (dataNode, {}) := by
  show some (Node.ofRow [.text ['d'], .text ['a'], .text ['t'], .text ['a'], .text ['.'],
    Node.ofSet lowers false, Node.ofRepeat 0 none true (Node.ofSet nameChars false), .text ['.'],
      Node.ofRepeat 1 none true (Node.ofSet nameChars false)], ({} : Flags)) = _
  rw [ofSet_lowers, ofSet_nameChars]
  rfl

/-- The phrase for modules means its node. -/
theorem meaning_module : modulePhrase.meaning? {} = some (moduleNode, {}) := by
  show some (Node.ofRow [.text ['m'], .text ['o'], .text ['d'], .text ['u'], .text ['l'],
    .text ['e'], .text ['.'], Node.ofRepeat 1 none true (Node.ofSet nameChars false)],
      ({} : Flags)) = _
  rw [ofSet_nameChars]
  rfl

/-- The phrase for a type and a name means its node. -/
theorem meaning_typed : typedPhrase.meaning? {} = some (typedNode, {}) := by
  show some (Node.ofRow [Node.ofSet lowers false,
    Node.ofRepeat 0 none true (Node.ofSet lowerDigits false), .text ['_'],
      Node.ofRepeat 1 none true (Node.ofSet nameChars false), .text ['.'],
      Node.ofSet nameStarts false,
      Node.ofRepeat 0 none true (Node.ofSet nameChars false)], ({} : Flags)) = _
  rw [ofSet_lowers, ofSet_nameChars, ofSet_lowerDigits, ofSet_nameStarts]
  rfl

/-- A list of phrases is given its meaning phrase by phrase. -/
theorem meaningOfAll?_cons {p : Phrase} {a : Node} {f f' : Flags} (h : p.meaning? f = some (a, f'))
    (done : List Node) (ps : List Phrase) :
    meaningOfAll? f done (p :: ps) = meaningOfAll? f' (a :: done) ps := by
  rw [meaningOfAll?, h]

/-- The phrase for mentions means its node. -/
theorem meaning_mention : mentionPhrase.meaning? {} = some (mentionNode, {}) := by
  have hchoice : (Phrase.choice [dataPhrase, modulePhrase, typedPhrase]).meaning? {} =
      some (.choice [dataNode, moduleNode, typedNode], {}) := by
    rw [Phrase.meaning?, meaningOfAll?_cons meaning_data, meaningOfAll?_cons meaning_module,
      meaningOfAll?_cons meaning_typed]
    rfl
  have hscoped : (Phrase.scoped {} (.choice [dataPhrase, modulePhrase, typedPhrase])).meaning? {} =
      some (.choice [dataNode, moduleNode, typedNode], {}) := by
    rw [Phrase.meaning?]
    exact Option.bind_eq_some_iff.2 ⟨_, hchoice, rfl⟩
  have hlook : (Phrase.anchor .wordBoundary).meaning? {} = some (.look (.wordBoundary false), {}) :=
    rfl
  rw [mentionPhrase, Phrase.meaning?, meaningOfAll?_cons hlook, meaningOfAll?_cons hscoped]
  rfl

/-- The pattern for mentions finds what its node reads. -/
theorem mention_eq : mention = ofNode mentionNode := by
  refine ofString_eq rfl (by decide +kernel) meaning_mention ?_
  have hchars : (Node.one nameChars false).rough ≤ 1240000 := rough_nameChars
  have hstarts := rough_nameStarts
  have hlowers := rough_one_le built_lowers false
  have hlowerDigits := rough_one_le built_lowerDigits false
  simp only [mentionNode, dataNode, moduleNode, typedNode, Node.star, Node.plus, rough_row,
    rough_choice, rough_repeated, rough_look, roughAll, List.length_cons, List.length_nil,
      show maxMemory = 10485760 from rfl,
    show "data.".toList.length = 5 from rfl, show "module.".toList.length = 7 from rfl]
  -- `omega` would look into the numbers for the sets, which are large
  generalize (Node.one nameChars false).rough = a at hchars ⊢
  generalize (Node.one nameStarts false).rough = b at hstarts ⊢
  generalize (Node.one lowers false).rough = c at hlowers ⊢
  generalize (Node.one lowerDigits false).rough = d at hlowerDigits ⊢
  omega

/-! ## What stands between mentions -/

/-- The characters of mentions. -/
def IsMentionChar (c : Char) : Prop := nameChars.contains c = true ∨ c = '.'

/-- What the node for mentions reads does not depend on what stands in front. -/
theorem steady_mentionNode : mentionNode.Steady := by
  have hlowers := built_lowers.regular
  have hchars := built_nameChars.regular
  have hstar : (Node.star true nameChars).Steady := ⟨hchars, fun _ => rfl⟩
  have hplus : (Node.plus true nameChars).Steady := ⟨hchars, fun _ => rfl⟩
  have hdigits : (Node.star true lowerDigits).Steady := ⟨built_lowerDigits.regular, fun _ => rfl⟩
  exact ⟨trivial, ⟨⟨trivial, hlowers, hstar, trivial, hplus, trivial⟩, ⟨trivial, hplus, trivial⟩,
    ⟨hlowers, hdigits, trivial, hplus, trivial, built_nameStarts.regular, hstar, trivial⟩, trivial⟩,
      trivial⟩

/-- A small letter is a letter. -/
theorem isAlpha_of_isLower {c : Char} (h : c.isLower = true) : c.isAlpha = true :=
  Bool.or_eq_true_iff.2 (.inr h)

/-- A small letter may stand in a name. -/
theorem nameChar_of_lower {c : Char} (h : c.isLower = true) : nameChars.contains c = true :=
  contains_nameChars.2 (.inl (isWordChar_of_isAlpha (isAlpha_of_isLower h)))

/-- The node for mentions reads characters of mentions only. -/
theorem spells_mentionNode : mentionNode.Spells IsMentionChar := by
  have hlowers : ∀ c, lowers.contains c = true → IsMentionChar c := fun c hc =>
    .inl (nameChar_of_lower (contains_lowers.1 hc))
  have hchars : ∀ c, nameChars.contains c = true → IsMentionChar c := fun c hc => .inl hc
  have hdigits : ∀ c, lowerDigits.contains c = true → IsMentionChar c := fun c hc =>
    .inl <| (contains_lowerDigits.1 hc).elim
      (fun h => contains_nameChars.2 (.inl (isWordChar_of_isDigit h)))
      nameChar_of_lower
  have hstarts : ∀ c, nameStarts.contains c = true → IsMentionChar c := fun c hc =>
    .inl <| contains_nameChars.2 <| .inl <| (contains_nameStarts.1 hc).elim isWordChar_of_isAlpha
      (fun h => h ▸ isWordChar_underscore)
  have hdot : ∀ c ∈ ['.'], IsMentionChar c := List.forall_mem_singleton.2 (.inr rfl)
  have hunderscore : ∀ c ∈ ['_'], IsMentionChar c :=
    List.forall_mem_singleton.2 (.inl (contains_nameChars.2 (.inl isWordChar_underscore)))
  have hword : ∀ cs : List Char, cs.all Char.isLower = true →
      ∀ c ∈ cs ++ ['.'], IsMentionChar c := by
    intro cs hcs c hc
    rcases List.mem_append.1 hc with hc | hc
    · exact .inl (nameChar_of_lower (List.all_eq_true.1 hcs c hc))
    · exact hdot c hc
  exact ⟨rfl, ⟨⟨hword "data".toList (by decide), hlowers, hchars, hdot, hchars, trivial⟩,
    ⟨hword "module".toList (by decide), hchars, trivial⟩,
    ⟨hlowers, hdigits, hunderscore, hchars, hdot, hstarts, hchars, trivial⟩, trivial⟩, trivial⟩

/-- A character that is none of a name and no dot parts mentions. -/
theorem cut_iff {c : Char} : Pattern.Cut IsMentionChar c
    ↔ nameChars.contains c = false ∧ c ≠ '.' := by
  rw [Pattern.Cut, IsMentionChar, not_or, Bool.not_eq_true]
  refine ⟨fun h => h.1, fun h => ⟨h, ?_⟩⟩
  rw [← Bool.not_eq_true]
  exact fun hword => Bool.eq_false_iff.1 h.1 (contains_nameChars.2 (.inl hword))

/-- A character in a gap between those of names, neither a hyphen nor a dot, stands in no
mention. -/
theorem cut_of_within {c : Char} (h : Within gapRanges c.toNat) (hhyphen : c ≠ '-')
    (hdot : c ≠ '.') :
    Pattern.Cut IsMentionChar c := cut_iff.2 ⟨not_nameChar h hhyphen, hdot⟩

/-- Characters in the gaps between those of names cut every mention, which can be checked for a
text. -/
theorem cut_of_all {text : List Char}
    (h : text.all (fun c => decide (Within gapRanges c.toNat ∧ c ≠ '-' ∧ c ≠ '.')) = true) :
    ∀ c ∈ text, Pattern.Cut IsMentionChar c := by
  intro c hc
  obtain ⟨hgap, hhyphen, hdot⟩ := of_decide_eq_true (List.all_eq_true.1 h c hc)
  exact cut_of_within hgap hhyphen hdot

/-- White space stands in no mention. -/
theorem cut_of_isBlank {c : Char} (h : isBlank c = true) : Pattern.Cut IsMentionChar c := by
  refine cut_iff.2 ⟨not_nameChar_of_isBlank h, ?_⟩
  rintro rfl
  rw [isBlank_of_isPrinted (by decide)] at h
  cases h

/-- No mention goes over a character that stands in none, so those in front and behind are found
apart. -/
theorem texts_mention_append {c : Char} (hc : Pattern.Cut IsMentionChar c)
    (front back : List Char) :
    mention.texts (front ++ c :: back) = mention.texts front ++ mention.texts back := by
  rw [mention_eq]
  exact texts_append steady_mentionNode spells_mentionNode rfl hc front back

/-- There is no mention in a blank text. -/
theorem texts_mention_blank {text : List Char} (h : AllBlank text) : mention.texts text = [] := by
  rw [mention_eq]
  exact texts_of_forall_cut steady_mentionNode spells_mentionNode rfl fun c hc =>
    cut_of_isBlank (h c hc)

/-! ## Texts that mention something or nothing -/

/-- A mention has a dot in it. -/
theorem dot_mem_of_mention {p : Place} {v : Way} (h : v ∈ mentionNode.ways p) : '.' ∈ p.rest := by
  obtain ⟨q, w, hw, hsuffix⟩ :=
    exists_of_rowWays h (.choice [dataNode, moduleNode, typedNode]) (by simp)
  have htext : ∀ {as : List Node} (cs : List Char), w ∈ rowWays as q → Node.text cs ∈ as →
      '.' ∈ cs → '.' ∈ p.rest := by
    intro as cs hrow hmem hdot
    obtain ⟨r, x, hx, hsuffix'⟩ := exists_of_rowWays hrow _ hmem
    refine (hsuffix'.trans hsuffix).subset ?_
    rw [mem_ways_text hx]
    exact List.mem_append_left _ hdot
  obtain ⟨a, ha, hway⟩ := mem_choiceWays hw
  simp only [List.mem_cons, List.not_mem_nil, or_false] at ha
  rcases ha with rfl | rfl | rfl
  · exact htext "data.".toList hway List.mem_cons_self (by decide)
  · exact htext "module.".toList hway List.mem_cons_self (by decide)
  · exact htext ['.'] hway (by simp) (by decide)

/-- There is no mention in a text without a dot. -/
theorem texts_mention_of_not_mem {text : List Char} (h : '.' ∉ text) : mention.texts text = [] := by
  have hfinds : Finds mentionNode (.start text) [] := by
    refine @finds_of_front mentionNode _ text [] (List.append_nil _).symm (fun b c hbc _ => ?_)
      _ (.done (Place.rest_behind (p := .start text) (List.append_nil _).symm))
    refine List.eq_nil_iff_forall_not_mem.2 fun v hv => h ?_
    have hdot := dot_mem_of_mention hv
    rw [Place.rest_behind (p := .start text) hbc] at hdot
    exact hbc ▸ List.mem_append_right _ hdot
  rw [mention_eq, texts_ofNode steady_mentionNode spells_mentionNode rfl hfinds]
  rfl

/-- A type of resources: small letters and digits, an underscore and the rest of a name. -/
structure IsType (type : List Char) : Prop where
  split : ∃ c stem d more, type = c :: (stem ++ '_' :: d :: more) ∧ c.isLower = true ∧
    (∀ e ∈ stem, e.isDigit = true ∨ e.isLower = true) ∧ ∀ e ∈ d :: more, nameChars.contains e = true

theorem not_nameChar_dot : nameChars.contains '.' = false := not_nameChar (by decide) (by decide)

/-- A type has no dot. -/
theorem IsType.dot_not_mem {type : List Char} (h : IsType type) : '.' ∉ type := by
  obtain ⟨c, stem, d, more, rfl, hc, hstem, hmore⟩ := h.split
  have hchars : ∀ e ∈ c :: (stem ++ '_' :: d :: more), nameChars.contains e = true := by
    refine List.forall_mem_cons.2 ⟨nameChar_of_lower hc, List.forall_mem_append.2 ⟨fun e he => ?_,
      List.forall_mem_cons.2 ⟨contains_nameChars.2 (.inl isWordChar_underscore), hmore⟩⟩⟩
    exact (hstem e he).elim (fun h => contains_nameChars.2 (.inl (isWordChar_of_isDigit h)))
      nameChar_of_lower
  exact fun hmem => Bool.eq_false_iff.1 not_nameChar_dot (hchars '.' hmem)

/-- Two texts with a dot behind the first piece have the same first piece. -/
theorem eq_of_append_dot {a b rest rest' : List Char} (ha : '.' ∉ a) (hb : '.' ∉ b)
    (h : a ++ '.' :: rest = b ++ '.' :: rest') : a = b := by
  rcases List.append_eq_append_iff.1 h with ⟨d, rfl, hd⟩ | ⟨d, rfl, hd⟩
  · cases d with
    | nil => exact (List.append_nil a).symm
    | cons c d =>
        obtain rfl := (List.cons.inj hd).1
        exact absurd (List.mem_append_right _ List.mem_cons_self) hb
  · cases d with
    | nil => exact List.append_nil b
    | cons c d =>
        obtain rfl := (List.cons.inj hd).1
        exact absurd (List.mem_append_right _ List.mem_cons_self) ha

/-- A type is no word that another kind of mention starts with. -/
theorem IsType.ways_word {type name : List Char} (h : IsType type) (word : List Char)
    (hword : '.' ∉ word) (hunderscore : '_' ∉ word) {p : Place} (hp : p.rest = type ++ '.' :: name)
    (as : List Node) :
    (Node.row (.text (word ++ ['.']) :: as)).ways p = [] := by
  refine List.eq_nil_iff_forall_not_mem.2 fun v hv => ?_
  obtain ⟨w, hw, -⟩ := mem_andThen.1 hv
  have hsame := hp.symm.trans (mem_ways_text hw)
  rw [List.append_assoc] at hsame
  -- the text up to the first dot is the type and the word, but only a type has an underscore
  obtain rfl := eq_of_append_dot h.dot_not_mem hword hsame
  obtain ⟨c, stem, d, more, hsplit, -⟩ := h.split
  exact hunderscore (by rw [hsplit]; simp)

/-- The first way to read a type and a name where both stand takes all of them. -/
theorem head_ways_typed {type name : List Char} (htype : IsType type)
    (hname : IsName name) {p : Place} (hp : p.rest = type ++ '.' :: name) :
    (typedNode.ways p).head? = some (p.behind (type ++ '.' :: name), []) := by
  obtain ⟨c, stem, d, more, rfl, hc, hstem, hmore⟩ := htype.split
  obtain ⟨e, es, rfl⟩ := List.exists_cons_of_ne_nil (l := name) fun h => by
    rw [h] at hname; exact hname
  have h0 : p.rest
      = [c] ++ (stem ++ (['_'] ++ ((d :: more) ++ (['.'] ++ ([e] ++ (es ++ [])))))) := by simp [hp]
  have h1 := Place.rest_behind h0
  have h2 := Place.rest_behind h1
  have h3 := Place.rest_behind h2
  have h4 := Place.rest_behind h3
  have h5 := Place.rest_behind h4
  have h6 := Place.rest_behind h5
  have hunderscore : lowerDigits.contains '_' = false := by
    rw [← Bool.not_eq_true, contains_lowerDigits]
    decide
  -- the row is followed from its last pattern to the first
  have hend := @head_rowWays (.star true nameChars) [] _ _ _ _ []
    (head_ways_star h6 (fun d hd => contains_nameChars.2 (hname.2 d hd)) nofun) rfl
  have hstart := @head_rowWays (.one nameStarts false) _ _ _ _ [] _
    (by rw [ways_one h5, if_pos (contains_nameStarts.2 hname.1)]; rfl) hend
  have hdot := @head_rowWays (.text ['.']) _ _ _ _ [] _ (by rw [ways_text h4]; rfl) hstart
  have hmore :=
    head_rowWays (head_ways_plus h3 hmore fun d hd => by cases hd; exact not_nameChar_dot) hdot
  have hline := @head_rowWays (.text ['_']) _ _ _ _ [] _ (by rw [ways_text h2]; rfl) hmore
  have hstem := head_rowWays (head_ways_star h1 (fun e he => contains_lowerDigits.2 (hstem e he))
    fun d hd => by cases hd; exact hunderscore) hline
  have hall := @head_rowWays (.one lowers false) _ _ _ _ [] _
    (by rw [ways_one h0, if_pos (contains_lowers.2 hc)]; rfl) hstem
  have hplace : (c :: (stem ++ '_' :: d :: more)) ++ '.' :: e :: es =
      [c] ++ (stem ++ (['_'] ++ ((d :: more) ++ (['.'] ++ ([e] ++ es))))) := by simp
  rw [hplace]
  simp only [Place.behind_append]
  exact hall

/-- A type and a name with a dot between them are a mention. -/
theorem texts_reference {type name : List Char} (htype : IsType type) (hname : IsName name) :
    mention.texts (type ++ '.' :: name) = [String.ofList (type ++ '.' :: name)] := by
  have hhead := head_ways_typed htype hname (p := .start (type ++ '.' :: name)) rfl
  -- the reference begins with a letter, so a word begins there
  have hlook : (Node.look (.wordBoundary false)).ways (.start (type ++ '.' :: name)) =
      [(.start (type ++ '.' :: name), [])] := by
    obtain ⟨c, stem, d, more, rfl, hc, -⟩ := htype.split
    have hword : wordBehind false (c :: (stem ++ '_' :: d :: more) ++ '.' :: name) = true :=
      isWordChar_of_isAlpha (isAlpha_of_isLower hc)
    rw [Node.ways]
    exact if_pos (congrArg (false != ·) hword)
  have hchoice : ((Node.choice [dataNode, moduleNode, typedNode]).ways
      (.start (type ++ '.' :: name))).head? =
      some ((Place.start (type ++ '.' :: name)).behind (type ++ '.' :: name), []) := by
    -- a type has a low line within it, so it is neither of the two words
    have hdata : dataNode.ways (.start (type ++ '.' :: name)) = [] :=
      htype.ways_word "data".toList (by decide) (by decide) rfl _
    have hmodule : moduleNode.ways (.start (type ++ '.' :: name)) = [] :=
      htype.ways_word "module".toList (by decide) (by decide) rfl _
    rw [Node.ways, choiceWays, choiceWays, choiceWays, choiceWays, hdata, hmodule, List.nil_append,
      List.nil_append, List.append_nil]
    exact hhead
  have hway : (mentionNode.ways (.start (type ++ '.' :: name))).head? =
      some ((Place.start (type ++ '.' :: name)).behind (type ++ '.' :: name), []) :=
    @head_rowWays (.look (.wordBoundary false)) _ _ _ _ [] _ (by rw [hlook]; rfl)
      (@head_rowWays _ [] _ _ _ _ [] hchoice rfl)
  have hend : ((Place.start (type ++ '.' :: name)).behind (type ++ '.' :: name)).rest = [] :=
    Place.rest_behind (p := .start _) (List.append_nil _).symm
  rw [mention_eq, texts_ofNode steady_mentionNode spells_mentionNode rfl (.take hway (.done hend))]
  refine congrArg (fun cs => [String.ofList cs]) (Found.taken_eq ?_)
  exact (hend ▸ (List.append_nil _).symm :)

/-! ## What a text mentions -/

/-- The other known addresses that the mentions in a text lead to, one after the other. -/
def mentioned (known : List String) (address : String) (text : List Char) : List String :=
  ((mention.texts text).filterMap (addressOf? known)).filter (· != address)

/-- The mentions of a body are its mentioned addresses without repetitions. -/
theorem mentions_eq (known : List String) (address : String) (body : List Char) :
    mentions known address body = addNew [] (mentioned known address body) := by
  rw [mentions, mentioned, texts, List.filterMap_map]
  rfl

/-- No address is listed twice among the mentions of a body. -/
theorem nodup_mentions (known : List String) (address : String) (body : List Char) :
    (mentions known address body).Nodup := by
  rw [mentions_eq]
  exact nodup_addNew List.nodup_nil

section
variable {known : List String} {address : String}

/-- What is mentioned on both sides of a character that stands in no mention is found apart. -/
theorem mentioned_append {c : Char} (hc : Pattern.Cut IsMentionChar c) (front back : List Char) :
    mentioned known address (front ++ c :: back)
      = mentioned known address front ++ mentioned known address back := by
  rw [mentioned, texts_mention_append hc, List.filterMap_append, List.filter_append]
  rfl

/-- A text in which no mention is found mentions no address. -/
theorem mentioned_of_texts {text : List Char} (h : mention.texts text = []) :
    mentioned known address text = [] := by
  rw [mentioned, h]
  rfl

/-- A text of characters that part mentions. -/
theorem mentioned_apart {text : List Char} (hne : text ≠ [])
    (h : ∀ c ∈ text, Pattern.Cut IsMentionChar c) (front back : List Char) :
    mentioned known address (front ++ (text ++ back)) =
      mentioned known address front ++ mentioned known address back := by
  induction text generalizing front with
  | nil => exact absurd rfl hne
  | cons c text ih =>
      obtain ⟨hc, htext⟩ := List.forall_mem_cons.1 h
      rw [List.cons_append, mentioned_append hc]
      refine congrArg _ ?_
      cases text with
      | nil => rfl
      | cons d text =>
          have hnil : mentioned known address [] = [] :=
            mentioned_of_texts (texts_mention_of_not_mem List.not_mem_nil)
          have hmore := ih (List.cons_ne_nil d text) htext []
          rwa [hnil] at hmore

/-- A reference to another address that is known. -/
theorem mentioned_reference {type name : List Char} (htype : IsType type) (hname : IsName name)
    (hknown : String.ofList (type ++ '.' :: name) ∈ known)
    (hne : String.ofList (type ++ '.' :: name) ≠ address) :
    mentioned known address (type ++ '.' :: name) = [String.ofList (type ++ '.' :: name)] := by
  have haddress : addressOf? known (String.ofList (type ++ '.' :: name))
      = some (String.ofList (type ++ '.' :: name)) :=
    if_pos (List.contains_iff_mem.2 hknown)
  rw [mentioned, texts_reference htype hname, List.filterMap_cons_some haddress, List.filterMap_nil,
    List.filter_cons, if_pos (bne_iff_ne.2 hne)]
  rfl

end

end CodeAtlas.Source.Terraform
