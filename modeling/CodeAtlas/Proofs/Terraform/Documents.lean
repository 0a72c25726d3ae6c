import CodeAtlas.Proofs.Terraform.Blocks
import CodeAtlas.Source.Terraform.Basic

/-!
# Here-documents in blocks

The search for the brace that ends a block knows comments and literals, but no here-documents. If
the text in a document closes all braces that it opens, and ends in no comment or literal, another
such text leaves the blocks of the file what they are. The names of the attributes of a block stay
too: the text of a document among its attributes is passed over up to the tag, and the lines of a
document in a nested block are counted with those of the block, which they leave as deep as it is.
-/

namespace CodeAtlas.Source.Terraform

open Pattern Unicode Text

/-! ## Names of attributes -/

/-- Locations that differ in lines and their numbers only. -/
inductive Location.Alike : Location → Location → Prop
  | among (depth : Nat) : Alike (.among depth) (.among depth)
  | document (tag : String) : Alike (.document tag) (.document tag)
  | nested (name : String) (line line' : Nat) (depth : Int) (before before' : List (List Char)) :
      Alike (.nested name line depth before) (.nested name line' depth before')

/-- A place is alike to itself. -/
theorem Location.Alike.refl (l : Location) : l.Alike l := by
  cases l with
  | among depth => exact .among depth
  | document tag => exact .document tag
  | nested name line depth before => exact .nested name line line depth before before

/-- The names of attributes do not depend on the numbers of lines. -/
theorem names_attributesFrom {l l' : Location} (h : l.Alike l') (n m : Nat)
    (lines : List (List Char)) :
    (attributesFrom l n lines).map Attribute.name
      = (attributesFrom l' m lines).map Attribute.name := by
  induction lines generalizing l l' n m with
  | nil => cases h <;> rfl
  | cons line lines ih =>
      cases h with
      | among depth =>
          rw [attributesFrom, attributesFrom]
          -- the same clause reads the line in both, as it looks at the depth and the line alone
          cases (if depth = 0 then Header.ofLine? line else none) with
          | none => exact ih (.refl _) _ _
          | some header =>
              dsimp only
              split
              · exact ih (.nested ..) _ _
              · cases header.value? with
                | none => exact ih (.refl _) _ _
                | some value =>
                    rw [List.map_cons, List.map_cons]
                    exact congrArg _ (ih (.refl _) _ _)
      | document tag =>
          rw [attributesFrom, attributesFrom]
          split
          · exact ih (.refl _) _ _
          · exact ih (.refl _) _ _
      | nested name start start' depth before before' =>
          rw [attributesFrom, attributesFrom]
          split
          · exact ih (.nested ..) _ _
          · rw [List.map_cons, List.map_cons]
            exact congrArg _ (ih (.refl _) _ _)

/-- The names of attributes do not depend on the line where the body starts. -/
theorem names_attributesOf (body : List Char) (n m : Nat) :
    (attributesOf body n).map Attribute.name = (attributesOf body m).map Attribute.name :=
  names_attributesFrom (.refl _) n m _

/-! ## The lines of a document -/

/-- How many brackets lines leave open, less those that they close. -/
def openedBy (lines : List (List Char)) : Int :=
  lines.foldr (fun line depth => opened line + depth) 0

@[simp] theorem openedBy_nil : openedBy [] = 0 := rfl

/-- Lines open what the first one and the others open. -/
theorem openedBy_cons (line : List Char) (lines : List (List Char)) :
    openedBy (line :: lines) = opened line + openedBy lines := rfl

/-- Lines that close no more brackets than they open, and in the end as many. -/
structure Level (lines : List (List Char)) : Prop where
  open_all : ∀ front, front <+: lines → 0 ≤ openedBy front
  closed : openedBy lines = 0

/-- A line that starts a here-document with a tag. -/
inductive StartsDocument (tag : List Char) : List Char → Prop
  | intro {b name b' rest dash : List Char} (hb : AllBlank b) (hname : IsName name)
    (hb' : AllBlank b')
      (hvalue : trim rest = '<' :: '<' :: (dash ++ tag)) (hdash : IsDash dash) (hne : tag ≠ [])
      (htag : ∀ c ∈ tag, isWordChar c = true) : StartsDocument tag
        (b ++ (name ++ (b' ++ '=' :: rest)))

/-- The lines of a body around those of a here-document, from the line that starts it on and up to
its tag. The document stands among the attributes of the body, or in a nested block. -/
inductive Around (tag : List Char) : (deep : Bool) → List (List Char) → List (List Char) → Prop
  | among {done more : List (List Char)} {attributes : List Attribute} {start last : List Char}
      (hdone : Assigns 0 done attributes) (hstart : StartsDocument tag start)
        (hlast : trim last = tag) :
      Around tag false (done ++ [start]) (last :: more)
  | nested {done ahead behind more : List (List Char)} {attributes : List Attribute}
      {name line start last close : List Char} (hdone : Assigns 0 done attributes)
        (hline : Opener name line)
      (hopen : 0 < opened line) (hstart : StartsDocument tag start) (hlast : trim last = tag)
      (hinner : Closes (opened line) (ahead ++ start :: last :: behind) close) :
      Around tag true (done ++ line :: (ahead ++ [start])) (last :: (behind ++ close :: more))

section
variable {depth : Int} {ahead behind lines : List (List Char)} {close : List Char}

/-- Lines that keep brackets open may be put in front of others. -/
theorem Closes.behind_lines (hopen : ∀ front, front <+: lines → 0 < depth + openedBy front)
    (h : Closes (depth + openedBy lines) behind close) : Closes depth (lines ++ behind) close := by
  induction lines generalizing depth with
  | nil => rwa [openedBy_nil, Int.add_zero] at h
  | cons line lines ih =>
      rw [openedBy_cons, ← Int.add_assoc] at h
      have hline := hopen [line] (List.cons_prefix_cons.2 ⟨rfl, List.nil_prefix⟩)
      rw [openedBy_cons, openedBy_nil, Int.add_zero] at hline
      refine .line hline (ih (fun front hfront => ?_) h)
      have hmore := hopen (line :: front) (List.cons_prefix_cons.2 ⟨rfl, hfront⟩)
      rwa [openedBy_cons, ← Int.add_assoc] at hmore

/-- Level lines may stand between others. -/
theorem Closes.between (hlevel : Level lines) (hdepth : 0 < depth)
    (h : Closes depth (ahead ++ behind) close) :
    Closes depth (ahead ++ (lines ++ behind)) close := by
  induction ahead generalizing depth with
  | nil =>
      refine @Closes.behind_lines depth behind lines close (fun front hfront => ?_) ?_
      · have hle := hlevel.open_all front hfront
        omega
      · rwa [hlevel.closed, Int.add_zero]
  | cons line ahead ih =>
      cases h with
      | line hopen hmore => exact .line hopen (ih hopen hmore)

/-- Whatever lines stand in a document, its body assigns attributes of the same names. -/
theorem Around.exists_names {tag : List Char} {deep : Bool} {front back : List (List Char)}
    (h : Around tag deep front back) (hfront : ∀ line ∈ front, '\n' ∉ line) : ∃ names : List String,
      ∀ lines, (∀ line ∈ lines, trim line ≠ tag) → (deep = true → Level lines) →
        (attributesFrom (.among 0) 0 (front ++ (lines ++ back))).map Attribute.name = names := by
  cases h with
  | @among done more attributes start last hdone hstart hlast =>
      obtain ⟨hdonelines, hstartline⟩ := List.forall_mem_append.1 hfront
      cases hstart with
      | @intro b name b' rest dash hb hname hb' hvalue hdash hne htag =>
          -- the document is passed over up to its tag, so the brackets of its lines do not count
          refine ⟨attributes.map Attribute.name ++
            String.ofList name :: (attributesFrom (.among 0) 0 more).map Attribute.name,
              fun lines hlines _ => ?_⟩
          rw [List.append_assoc, attributesFrom_append hdone hdonelines, List.singleton_append,
            attributesFrom_start hb hname hb' hvalue hdash hne htag
              (hstartline _ List.mem_cons_self),
            attributesFrom_document hlines hlast, List.map_append, List.map_cons]
          exact congrArg _ (congrArg _ (names_attributesFrom (.refl _) _ _ more))
  | @nested done ahead behind more attributes name line start last close hdone hline hopen hstart
    hlast hinner =>
      obtain ⟨hdonelines, hnested⟩ := List.forall_mem_append.1 hfront
      obtain ⟨value?, hheader⟩ := ofLine?_opener hline (hnested line List.mem_cons_self)
      -- nested blocks know no documents: the depth is counted over its lines, the tag is text
      refine ⟨attributes.map Attribute.name ++
        String.ofList name :: (attributesFrom (.among 0) 0 more).map Attribute.name,
          fun lines _ hlevel => ?_⟩
      have hcloses : Closes (opened line)
          ((ahead ++ [start]) ++ (lines ++ last :: behind)) close := by
        refine Closes.between (hlevel rfl) hopen ?_
        rwa [List.append_assoc]
      have hsplit : (done ++ line :: (ahead ++ [start]))
          ++ (lines ++ last :: (behind ++ close :: more)) =
          done ++ line :: (((ahead ++ [start]) ++ (lines ++ last :: behind)) ++ close :: more) := by
            simp
      rw [hsplit, attributesFrom_append hdone hdonelines, attributesFrom_opener hheader hopen,
        attributesFrom_nested hcloses, List.map_append, List.map_cons]
      exact congrArg _ (congrArg _ (names_attributesFrom (.refl _) _ _ more))

end

/-! ## Documents in files -/

/-- A file with a here-document in the body of one of its blocks. -/
structure Documented extends Frame where
  /-- The body up to the line that starts the document. -/
  front : List Char
  tag : List Char
  /-- The document stands in a nested block. -/
  deep : Bool
  /-- The body from the tag on. -/
  back : List Char

namespace Documented
variable (t : Documented)

/-- The body with this text in the document. -/
def body (text : List Char) : List Char := t.front ++ '\n' :: (text ++ t.back)

/-- The pieces of a file with a text in the here-document. -/
def pieces (text : List Char) : List Piece := t.toFrame.pieces (t.body text)

/-- The document is one: it stands between the line that starts it and its tag, and no comment and
no literal goes on from the first of these lines. -/
structure Starts : Prop where
  around : Around t.tag t.deep (lines (t.front ++ ['\n'])) (lines t.back)
  cutsUp : ∃ ts, CutsUp (t.front ++ ['\n']) [] ts

/-- A text for the document that does not show outside: whole lines, none of them the tag, that open
and close the same braces, and no heading that begins in one of them goes on behind it. In a nested
block they leave every depth what it is. -/
structure Quiet (text : List Char) : Prop where
  whole : text = [] ∨ ∃ front, text = front ++ ['\n']
  tagless : ∀ line ∈ lines text, trim line ≠ t.tag
  balanced : Balanced text []
  lined : Lined text
  level : t.deep = true → Level (lines text)

variable {t} {text text' : List Char}

/-- The lines of a quiet text are its own, whatever stands behind it. -/
theorem Quiet.lines_append (h : t.Quiet text) (back : List Char) :
    lines (text ++ back) = lines text ++ lines back := by
  rcases h.whole with rfl | ⟨front, rfl⟩
  · rfl
  · rw [List.append_assoc, List.singleton_append, lines_append_cons]

/-- The lines of a body are those in front of the here-document, those of its text, and those behind
it. -/
theorem Quiet.lines_body (h : t.Quiet text) :
    lines (t.body text) = lines (t.front ++ ['\n']) ++ (lines text ++ lines t.back) := by
  rw [body, lines_append_cons, h.lines_append]

/-- No heading begins in a quiet text and goes on behind it. -/
theorem Quiet.lined_append (h : t.Quiet text) (back : List Char) :
    Lined (text ++ back) ↔ Lined back := by
  rcases h.whole with rfl | ⟨front, rfl⟩
  · rfl
  · have hfront := (lined_append_cons.1 h.lined).1
    rw [List.append_assoc, List.singleton_append, lined_append_cons]
    exact ⟨fun hall => hall.2, fun hback => ⟨hfront, hback⟩⟩

/-- A body is what stands up to the here-document, its text, and what stands behind it. -/
theorem body_eq (t : Documented) (text : List Char) :
    t.body text = (t.front ++ ['\n']) ++ (text ++ t.back) := by
  rw [body, List.append_assoc, List.singleton_append]

/-- With another quiet text in the document the block ends at the same brace. -/
theorem Starts.sound (h : t.Starts) (hsound : ∀ p ∈ t.pieces text, p.Sound) (hquiet : t.Quiet text)
    (hquiet' : t.Quiet text') : ∀ p ∈ t.pieces text', p.Sound := by
  obtain ⟨ts, hts⟩ := h.cutsUp
  refine Frame.sound hsound (fun hbalanced => ?_) fun hlined => ?_
  · rw [body_eq] at hbalanced ⊢
    exact hbalanced.replace hts hquiet.balanced hquiet'.balanced List.nil_prefix List.nil_prefix
  · obtain ⟨hfront, hback⟩ := lined_append_cons.1 hlined
    exact lined_append_cons.2 ⟨hfront,
      (hquiet'.lined_append t.back).2 ((hquiet.lined_append t.back).1 hback)⟩

/-- The names of the attributes of the block stay what they are. -/
theorem Starts.names_eq (h : t.Starts) (hquiet : t.Quiet text) (hquiet' : t.Quiet text')
    (n m : Nat) :
    (attributesOf (t.body text) n).map Attribute.name
      = (attributesOf (t.body text') m).map Attribute.name := by
  obtain ⟨names, hnames⟩ := h.around.exists_names fun _ hline => newline_not_mem_of_mem_lines hline
  have hbody : ∀ {text}, t.Quiet text → (attributesOf (t.body text) 0).map Attribute.name = names :=
    fun hquiet => by
    rw [attributesOf, hquiet.lines_body]
    exact hnames _ hquiet.tagless hquiet.level
  -- where the body starts has no influence on the names, so both are those of a body at line 0
  rw [names_attributesOf _ n 0, names_attributesOf _ m 0, hbody hquiet, hbody hquiet']

end Documented

/-- Blocks of one kind with the same labels and the same names of attributes. -/
structure SameHeader (b c : Block) : Prop where
  kind_eq : b.kind = c.kind
  labels_eq : b.labels = c.labels
  names_eq : b.attributes.map Attribute.name = c.attributes.map Attribute.name

/-- Declarations with one heading and bodies that assign attributes of the same names, wherever they
stand. -/
structure Declaration.Alike (d e : Declaration) : Prop where
  heading_eq : d.heading = e.heading
  names_eq : ∀ n m, (attributesOf d.body n).map Attribute.name
    = (attributesOf e.body m).map Attribute.name

theorem Declaration.Alike.refl (d : Declaration) : d.Alike d := ⟨rfl, names_attributesOf d.body⟩

/-- Blocks that are written down as declarations that are alike have the same headers. -/
theorem IsWritten.sameHeader {file file' : String} {b c : Block} {d e : Declaration}
    (hb : IsWritten file b d) (h : d.Alike e) (hc : IsWritten file' c e) : SameHeader b c := by
  obtain ⟨n, hn⟩ := hb.attributes_eq
  obtain ⟨m, hm⟩ := hc.attributes_eq
  refine ⟨?_, ?_, ?_⟩
  · rw [hb.kind_eq, hc.kind_eq, h.heading_eq]
  · rw [hb.labels_eq, hc.labels_eq, h.heading_eq]
  · rw [hn, hm, h.names_eq]

/-- Lists of blocks that are written down as declarations that are alike have the same headers. -/
theorem forall₂_sameHeader {file file' : String} {bs cs : List Block} {ds es : List Declaration}
    (hbs : List.Forall₂ (IsWritten file) bs ds) (h : List.Forall₂ Declaration.Alike ds es)
    (hcs : List.Forall₂ (IsWritten file') cs es) : List.Forall₂ SameHeader bs cs := by
  induction h generalizing bs cs with
  | nil =>
      cases hbs
      cases hcs
      exact .nil
  | cons h _ ih =>
      cases hbs with
      | cons hb hbs =>
          cases hcs with
          | cons hc hcs => exact .cons (hb.sameHeader h hc) (ih hbs hcs)

/-- The declarations of a file with one quiet text and with another are alike. -/
theorem Documented.Starts.forall₂_alike {t : Documented} {text text' : List Char} (h : t.Starts)
    (hquiet : t.Quiet text) (hquiet' : t.Quiet text') :
    List.Forall₂ Declaration.Alike ((t.pieces text).filterMap Piece.declaration?)
      ((t.pieces text').filterMap Piece.declaration?) := by
  have hsame : ∀ ds, List.Forall₂ Declaration.Alike ds ds :=
    fun ds => List.forall₂_same.2 fun d _ => .refl d
  rw [pieces, pieces, Frame.declarations_pieces, Frame.declarations_pieces]
  exact List.rel_append (hsame _) (.cons ⟨rfl, h.names_eq hquiet hquiet'⟩ (hsame _))

/-- Another quiet text in a here-document leaves the blocks of a file with their kinds, their labels
and the names of their attributes, and each of them ends at the brace that it is written with. -/
theorem blocks_of_document {f : SourceFile} {t : Documented} {text text' : List Char}
    (hcontent : f.content = render (t.pieces text)) (hsound : ∀ p ∈ t.pieces text, p.Sound)
    (hstarts : t.Starts) (hquiet : t.Quiet text) (hquiet' : t.Quiet text') :
    let g := { f with content := render (t.pieces text') }
    List.Forall₂ SameHeader (blocksOf f) (blocksOf g) ∧
      (blocksOf f).map Block.body
        = ((t.pieces text).filterMap Piece.declaration?).map Declaration.body ∧
      (blocksOf g).map Block.body
        = ((t.pieces text').filterMap Piece.declaration?).map Declaration.body := by
  intro g
  have hsound' := hstarts.sound hsound hquiet hquiet'
  have hg : g.content = render (t.pieces text') := rfl
  exact ⟨forall₂_sameHeader (blocksOf_render hcontent hsound) (hstarts.forall₂_alike hquiet hquiet')
    (blocksOf_render hg hsound'), bodies_render hcontent hsound, bodies_render hg hsound'⟩

/-- A file whose content is a here-document, and a count behind it. -/
def script : Documented where
  above := []
  heading := spacedHeading .resource [spacedLabel "local_file" (by decide),
    spacedLabel "script" (by decide)]
  front := "\n  content = <<EOT".toList
  tag := "EOT".toList
  deep := false
  back := "EOT\n  count = 1\n".toList
  tail := []
  beneath := [.line []]

/-- A file with a script in a here-document. -/
def scriptOf (text : String) : SourceFile :=
  configuration "main.tf" (render (script.pieces text.toList))

theorem allBlank_indent : AllBlank "  ".toList := allBlank_of_all_space (by decide)

/-- The value of the script's attribute is trimmed. -/
theorem trim_start_script : trim " <<EOT".toList = "<<EOT".toList :=
  trim_space_cons (s := "<<EOT".toList) rfl rfl

/-- The tag of the script has characters of words only. -/
theorem isWordChar_tag_script : ∀ c ∈ script.tag, isWordChar c = true := fun c hc =>
  isWordChar_of_isAlpha (List.all_eq_true.1 (by decide : script.tag.all Char.isAlpha = true) c hc)

/-- The script is a here-document at its place. -/
theorem starts_script : script.Starts := by
  have hstart : StartsDocument script.tag "  content = <<EOT".toList :=
    @StartsDocument.intro _ "  ".toList "content".toList [' '] " <<EOT".toList [] allBlank_indent
      (isName_of_isAlpha (by decide)) allBlank_space trim_start_script (.inl rfl) (by decide)
        isWordChar_tag_script
  have hlines : lines (script.front ++ ['\n']) = [[], "  content = <<EOT".toList] := by decide
  have hback : lines script.back = ["EOT".toList, "  count = 1".toList] := by decide
  refine ⟨?_, ?_⟩
  · rw [hlines, hback]
    have hdone : Assigns 0 [[]] [] := .filler (.blank allBlank_nil) (.nil _)
    exact .among hdone hstart (trim_of_printed rfl rfl)
  · obtain ⟨ts, hts, -⟩ := @balanced_flat [] (script.front ++ ['\n']) (by decide)
    exact ⟨ts, hts⟩

/-- Whole lines without braces, comments and literals, none of which is the tag. -/
theorem quiet_script {text : List Char} (hwhole : text.getLast? = some '\n')
    (htag : ∀ line ∈ lines text, trim line ≠ script.tag) (hflat : text.all isFlat = true)
    (hline : ∀ line ∈ splitChar '\n' text, startsBlock line = false) : script.Quiet text := by
  obtain ⟨front, hfront⟩ := List.getLast?_eq_some_iff.1 hwhole
  exact ⟨.inr ⟨front, hfront⟩, htag, balanced_flat hflat, lined_of_startsBlock hline, nofun⟩

/-- A line with one word is quiet in the script. -/
theorem quiet_echo : script.Quiet "echo\n".toList := by
  have hlines : lines "echo\n".toList = ["echo".toList] := by decide
  refine quiet_script (by decide) ?_ (by decide) (by decide)
  rw [hlines, List.forall_mem_singleton, trim_of_printed rfl rfl]
  decide

/-- The file of a script with a quiet text is sound. -/
theorem sound_script {text : List Char} (h : script.Quiet text) :
    ∀ p ∈ script.pieces text, p.Sound := by
  refine List.forall_mem_cons.2 ⟨.block ?_ ?_ nofun, List.forall_mem_singleton.2 sound_empty⟩
  · rw [script.body_eq]
    exact (balanced_flat (by decide)).append (h.balanced.append (balanced_flat (by decide)))
  · exact lined_append_cons.2 ⟨lined_of_startsBlock (by decide),
      (h.lined_append script.back).2 (lined_of_startsBlock (by decide))⟩

/-- A script with brackets, a quote and a loop in it leaves the blocks of the file what they are. -/
theorem blocks_of_document_script : List.Forall₂ SameHeader (blocksOf (scriptOf "echo\n"))
    (blocksOf (scriptOf "for f in *; do\n\necho 'it(s'; done\n")) := by
  have hlines : lines "for f in *; do\n\necho 'it(s'; done\n".toList =
      ["for f in *; do", "", "echo 'it(s'; done"].map String.toList := by decide
  have hquiet : script.Quiet "for f in *; do\n\necho 'it(s'; done\n".toList := by
    refine quiet_script (by decide) ?_ (by decide) (by decide)
    rw [hlines]
    simp only [List.map_cons, List.map_nil, List.forall_mem_cons]
    refine ⟨?_, ?_, ?_, nofun⟩ <;>
      · rw [trim_of_printed rfl rfl]
        decide
  exact (blocks_of_document (f := scriptOf "echo\n") rfl (sound_script quiet_echo) starts_script
    quiet_echo hquiet).1

/-- What is found in a file with one block. -/
theorem found_of_single {f : SourceFile} {d : Declaration} {pieces : List Piece}
    (hcontent : f.content = render (.block d [] :: pieces))
    (hsound : ∀ p ∈ .block d [] :: pieces, p.Sound)
    (hsingle : pieces.filterMap Piece.declaration? = []) : ∃ n,
      (blocksOf f).map (fun b => (b.attributes.map Attribute.name, b.body)) =
        [((attributesOf d.body n).map Attribute.name, d.body)] := by
  have hwritten := blocksOf_render hcontent hsound
  have hpieces : (Piece.block d [] :: pieces).filterMap Piece.declaration?
      = d :: pieces.filterMap Piece.declaration? := rfl
  rw [hpieces, hsingle, List.forall₂_cons_right_iff] at hwritten
  obtain ⟨b, bs, hb, hbs, hall⟩ := hwritten
  obtain rfl := List.forall₂_nil_right_iff.1 hbs
  obtain ⟨n, hn⟩ := hb.attributes_eq
  exact ⟨n, by rw [hall, List.map_singleton, hn, hb.body_eq]⟩

/-- The line behind the script is an attribute. -/
theorem assigns_count (n : Nat) : Assigns n ["  count = 1".toList] [⟨"count", "1", n, false⟩] := by
  have htrim : trim " 1".toList = ['1'] := trim_space_cons (s := ['1']) rfl rfl
  have hflat : opened "  count = 1".toList = 0 :=
    (opened_eq_weight (by simp [starters])).trans (by decide)
  have hvalue : ¬ OpensDocument (trim " 1".toList) := by
    rintro ⟨dash, c, rest, h, -⟩
    cases htrim.symm.trans h
  have hassigns := @Assigns.value n "  ".toList "count".toList [' '] " 1".toList [] []
    allBlank_indent
    (isName_of_isAlpha (by decide)) allBlank_space hflat hvalue (.nil _)
  rwa [htrim] at hassigns

/-- A brace in the document ends the block, so the attribute behind the document is lost. -/
theorem blocks_of_brace :
    (blocksOf (scriptOf "echo\n")).map (fun b => (b.attributes.map Attribute.name, b.body)) =
      [(["content", "count"], "\n  content = <<EOT\necho\nEOT\n  count = 1\n".toList)] ∧
    (blocksOf (scriptOf "\x7d\n")).map (fun b => (b.attributes.map Attribute.name, b.body)) =
      [(["content"], "\n  content = <<EOT\n".toList)] := by
  have hindent : Filler [] := .blank allBlank_nil
  constructor
  · obtain ⟨n, hn⟩ := @found_of_single (scriptOf "echo\n") _ _ rfl (sound_script quiet_echo) rfl
    rw [hn]
    have hlines : lines (script.body "echo\n".toList) =
        [[], "  content = <<EOT".toList, "echo".toList, "EOT".toList, "  count = 1".toList] := by
          decide
    have hecho : trim "echo".toList ≠ "EOT".toList := by
      rw [trim_of_printed rfl rfl]
      decide
    have hassigns : Assigns n (lines (script.body "echo\n".toList))
        [⟨"content", String.ofList (trim " <<EOT".toList), n + 1, false⟩,
          ⟨"count", "1", n + 4, false⟩] := by
      rw [hlines]
      exact .filler hindent
        (@Assigns.document (n + 1) "  ".toList "content".toList [' '] " <<EOT".toList []
        "EOT".toList "EOT".toList ["echo".toList] _ _ allBlank_indent
          (isName_of_isAlpha (by decide)) allBlank_space
        trim_start_script (.inl rfl) (by decide) isWordChar_tag_script
          (List.forall_mem_singleton.2 hecho)
        (trim_of_printed rfl rfl) (assigns_count _))
    rw [attributesOf_of_assigns hassigns]
    have hbody : script.body "echo\n".toList =
      "\n  content = <<EOT\necho\nEOT\n  count = 1\n".toList := by decide
    rw [hbody]
    rfl
  · -- read with the block that ends at the brace, the file goes on with lines that are no headings
    have hsound :
        ∀ p ∈ [Piece.block ⟨script.heading, script.front ++ ['\n']⟩ [], .line "EOT".toList,
          .line "  count = 1".toList, .line "\x7d".toList, .line []], p.Sound := by
      have hfront : Balanced (script.front ++ ['\n']) ['\x7d'] := balanced_flat (by decide)
      simp only [List.forall_mem_cons]
      exact ⟨.block hfront (lined_of_startsBlock (by decide)) List.not_mem_nil,
        sound_line (by decide) (by decide), sound_line (by decide) (by decide),
          sound_line (by decide) (by decide), sound_empty, List.forall_mem_nil _⟩
    obtain ⟨n, hn⟩ := @found_of_single (scriptOf "\x7d\n") _ _ (by decide) hsound rfl
    rw [hn]
    have hlines : lines (script.front ++ ['\n']) = [[], "  content = <<EOT".toList] := by decide
    have hstart := @attributesFrom_start "  ".toList "content".toList [' '] " <<EOT".toList []
      "EOT".toList
      allBlank_indent (isName_of_isAlpha (by decide)) allBlank_space trim_start_script
        (.inl rfl) (by decide)
      isWordChar_tag_script (by decide) (n + 1) []
    rw [@attributesFrom_unended "EOT".toList [] (fun _ hline => absurd hline List.not_mem_nil)]
      at hstart
    have hbody : script.front ++ ['\n'] = "\n  content = <<EOT\n".toList := by decide
    rw [attributesOf, hlines, attributesFrom_filler hindent List.not_mem_nil,
      show attributesFrom (.among 0) (n + 1) ["  content = <<EOT".toList] = _ from hstart, hbody]
    rfl

end CodeAtlas.Source.Terraform
