import CodeAtlas.Proofs.Infra.Extending
import CodeAtlas.Proofs.Terraform.Blocks
import CodeAtlas.Proofs.Terraform.Mentions
import Mathlib.Data.List.Infix

/-!
# Diagrams of configurations

The diagram of some files has the blocks with an address, each with the addresses that its body
mentions, and is linked. So is a diagram that is extended: the dependents of a resource are the
addresses of those that depend on it, but for a resource behind another one with its address, which
has none.

What a body mentions is found in its text, comments included. A comment is one token for the search
for the closing brace, so another text in it leaves the blocks of the file what they are, and the
mentions of the comment stand between those of the text in front of it and of the text behind it.
-/

namespace CodeAtlas.Infra

/-- The resource with its address, its dependencies and its dependents only. -/
def Resource.outline (r : Resource) : Resource where
  address := r.address
  resourceType := ""
  name := ""
  kind := ""
  file := ""
  line := 0
  dependencies := r.dependencies
  dependents := r.dependents

namespace Diagram

open Resource (outline)

/-- The dependents of an address are seen from the outlines of the resources. -/
theorem dependentsOf_outline (resources : List Resource) (address : String) :
    dependentsOf (resources.map outline) address = dependentsOf resources address := by
  rw [dependentsOf, dependentsOf, List.flatMap_map]
  rfl

/-- Linking resources is seen from their outlines. -/
theorem linkFrom_outline (all resources : List Resource) (seen : List String) :
    (linkFrom all seen resources).map outline
      = linkFrom (all.map outline) seen (resources.map outline) := by
  induction resources generalizing seen with
  | nil => rfl
  | cons r rest ih =>
      rw [linkFrom, List.map_cons, ih, List.map_cons, linkFrom, dependentsOf_outline]
      rfl

/-- The outlines of a linked diagram are those of its resources, linked. -/
theorem map_outline_link (d : Diagram) :
    d.link.resources.map outline = (link ⟨d.resources.map outline⟩).resources :=
  linkFrom_outline d.resources d.resources []

end Diagram

end CodeAtlas.Infra

namespace CodeAtlas.Source.Terraform

open Infra (Diagram Resource)
open Infra.Resource (outline)
open Pattern Unicode CharSet Text

/-! ## What a diagram is made of -/

/-- The address of a block with its body. -/
def Block.addressed? (b : Block) : Option (String × List Char) :=
  b.declared?.map fun d => (d.address, b.body)

/-- The outline of the resource with an address and a body. -/
def outlineOf (known : List String) (entry : String × List Char) : Resource where
  address := entry.1
  resourceType := ""
  name := ""
  kind := ""
  file := ""
  line := 0
  dependencies := mentions known entry.1 entry.2

/-- The outlines of the diagram with the blocks of these addresses and bodies. -/
def outlinesOf (entries : List (String × List Char)) : List Resource :=
  (Diagram.link ⟨entries.map (outlineOf (entries.map (·.1)))⟩).resources

/-- The outline of a diagram comes from the addresses and bodies of its blocks. -/
theorem outline_diagram (blocks : List Block) :
    (diagram blocks).resources.map outline = outlinesOf (blocks.filterMap Block.addressed?) := by
  have hentries : blocks.filterMap Block.addressed? =
      (blocks.filterMap fun b => b.declared?.map fun d => (d, b)).map fun e =>
        (e.1.address, e.2.body) := by
    rw [List.map_filterMap]
    refine List.filterMap_congr fun b _ => ?_
    rw [Option.map_map]
    rfl
  rw [diagram, Diagram.map_outline_link, outlinesOf, hentries, List.map_map, List.map_map,
    List.map_map]
  rfl

/-- The addresses of a diagram with what they depend on. -/
theorem dependencies_diagram (blocks : List Block) :
    (diagram blocks).resources.map (fun r => (r.address, r.dependencies)) =
      (blocks.filterMap Block.addressed?).map fun entry =>
        (entry.1, mentions ((blocks.filterMap Block.addressed?).map (·.1)) entry.1 entry.2) := by
  have hbare : ∀ resources : List Resource, resources.map (fun r => (r.address, r.dependencies)) =
      (resources.map Resource.bare).map fun r => (r.address, r.dependencies) := fun _ => by
    rw [List.map_map]
    rfl
  have houtline : ∀ resources : List Resource,
      resources.map (fun r => (r.address, r.dependencies)) =
      (resources.map outline).map fun r => (r.address, r.dependencies) := fun _ => by
    rw [List.map_map]
    rfl
  rw [houtline, outline_diagram, outlinesOf, hbare, Diagram.map_bare_link, ← hbare, List.map_map]
  rfl

/-- The addresses of a diagram are those of its blocks. -/
theorem addresses_diagram (blocks : List Block) :
    (diagram blocks).resources.map Resource.address
      = (blocks.filterMap Block.addressed?).map (·.1) := by
  have hfirst := congrArg (List.map Prod.fst) (dependencies_diagram blocks)
  rwa [List.map_map, List.map_map] at hfirst

/-- What a block with a heading declares. -/
def Heading.declared? (h : Heading) : Option Declared :=
  Block.declared? ⟨h.kind, h.labels.map fun l => String.ofList l.content, "", 0, [], []⟩

/-- The address of a declaration with its body. -/
def Declaration.addressed? (d : Declaration) : Option (String × List Char) :=
  d.heading.declared?.map fun e => (e.address, d.body)

/-- A block that is written down as declared has the address and the body of the declaration. -/
theorem IsWritten.addressed?_eq {file : String} {b : Block} {d : Declaration}
    (h : IsWritten file b d) :
    b.addressed? = d.addressed? := by
  have hdeclared : b.declared? = d.heading.declared? := by
    rw [Block.declared?, h.kind_eq, h.labels_eq]
    rfl
  rw [Block.addressed?, hdeclared, h.body_eq]
  rfl

/-- The addresses and bodies of the blocks of a file are those of its declarations. -/
theorem entries_render {f : SourceFile} {pieces : List Piece} (hcontent : f.content = render pieces)
    (hsound : ∀ p ∈ pieces, p.Sound) : (blocksOf f).filterMap Block.addressed? =
      (pieces.filterMap Piece.declaration?).filterMap Declaration.addressed? := by
  have hwritten := blocksOf_render hcontent hsound
  generalize blocksOf f = blocks, pieces.filterMap Piece.declaration? = declarations at hwritten ⊢
  induction hwritten with
  | nil => rfl
  | cons h _ ih => rw [List.filterMap_cons, List.filterMap_cons, h.addressed?_eq, ih]

/-! ## Dependents -/

/-- Diagrams of files, and diagrams that are extended by others. -/
inductive Produced : Diagram → Prop
  | files (files : List SourceFile) : Produced (diagram (files.flatMap blocksOf))
  | extend {d e : Diagram} (hd : Produced d) (he : Produced e) : Produced (d.extend e)

/-- A diagram that is produced is linked. -/
theorem Produced.link_eq {d : Diagram} (h : Produced d) : d.link = d := by
  cases h with
  | files files => exact Diagram.link_link _
  | extend hd he => exact Diagram.link_link _

/-- No resource of the diagram of blocks has a dependency twice. -/
theorem nodup_dependencies_diagram (blocks : List Block) :
    ∀ r ∈ (diagram blocks).resources, r.dependencies.Nodup := by
  intro r hr
  have hmem : r.bare ∈ (diagram blocks).resources.map Resource.bare := List.mem_map_of_mem hr
  rw [diagram, Diagram.map_bare_link, List.map_map] at hmem
  obtain ⟨⟨d, b⟩, -, heq⟩ := List.mem_map.1 hmem
  have hdependencies : mentions _ d.address b.body = r.dependencies :=
    congrArg Resource.dependencies heq
  rw [← hdependencies]
  exact nodup_mentions ..

/-- No resource of a diagram that is produced has a dependency twice. -/
theorem Produced.nodup_dependencies {d : Diagram} (h : Produced d) :
    ∀ r ∈ d.resources, r.dependencies.Nodup := by
  induction h with
  | files files => exact nodup_dependencies_diagram _
  | extend _ _ ihd ihe => exact Diagram.forall_extend (fun _ => Iff.rfl) ihd ihe

/-- The dependents of a resource are the addresses of the resources that depend on its address, in
their order, unless a resource in front of it has the address: then it has no dependents. -/
theorem dependents_of_produced {d : Diagram} (h : Produced d) {front back : List Resource}
    {r : Resource} (hsplit : d.resources = front ++ r :: back) : r.dependents =
      if r.address ∈ front.map Resource.address then []
      else (d.resources.filter fun s => s.dependencies.contains r.address).map
        Resource.address := by
  rw [Diagram.dependents_of_linked h.link_eq hsplit, Diagram.dependentsOf_eq h.nodup_dependencies]

/-- A network as a block. -/
def vpc : Piece :=
  .block ⟨spacedHeading .resource [spacedLabel "aws_vpc" (by decide),
    spacedLabel "main" (by decide)], ['\n']⟩ []

/-- The heading of a part of a network. -/
def subnetHeading : Heading :=
  spacedHeading .resource [spacedLabel "aws_subnet" (by decide), spacedLabel "one" (by decide)]

/-- A part of a network as a block with a body. -/
def subnet (body : List Char) : Piece := .block ⟨subnetHeading, body⟩ []

/-- The text of a network without a part. -/
def vpcText : List Char := "resource \"aws_vpc\" \"main\" \x7b\n\x7d\n".toList

/-- A network, and a part of it with a body. -/
def networkText (body : List Char) : List Char :=
  vpcText ++ ("resource \"aws_subnet\" \"one\" \x7b".toList ++ (body ++ "\x7d\n".toList))

/-- A network with a part of it, written down. -/
theorem render_network (body : List Char) :
    networkText body = render [vpc, subnet body, .line []] := by
  have hvpc : vpcText = vpc.text ++ ['\n'] := by decide
  have hheading : "resource \"aws_subnet\" \"one\" \x7b".toList = subnetHeading.text := by decide
  have hend : "\x7d\n".toList = ['\x7d', '\n'] := by decide
  rw [networkText, hvpc, hheading, hend, render_cons]
  simp [below, subnet, Piece.text, Declaration.text]

/-- The block of a network is sound. -/
theorem sound_vpc : vpc.Sound :=
  .block (balanced_flat (by decide)) (lined_of_startsBlock (by decide)) nofun

/-- A network with a part whose block is sound is sound. -/
theorem sound_network {body : List Char} (h : (subnet body).Sound) :
    ∀ p ∈ [vpc, subnet body, .line []], p.Sound :=
  List.forall_mem_cons.2 ⟨sound_vpc,
    List.forall_mem_cons.2 ⟨h, List.forall_mem_singleton.2 sound_empty⟩⟩

/-- The addresses and bodies of a network with a part of it. -/
theorem entries_network (rel : String) {body : List Char} (h : (subnet body).Sound) :
    (blocksOf (configuration rel (networkText body))).filterMap Block.addressed? =
      [("aws_vpc.main", ['\n']), ("aws_subnet.one", body)] :=
  (entries_render (render_network body) (sound_network h)).trans rfl

/-- A space stands in no mention. -/
theorem cut_space : Pattern.Cut IsMentionChar ' ' :=
  cut_of_within (by decide) (by decide) (by decide)

/-- A newline stands in no mention. -/
theorem cut_newline : Pattern.Cut IsMentionChar '\n' :=
  cut_of_within (by decide) (by decide) (by decide)

/-- An empty line mentions nothing. -/
theorem mentions_newline (known : List String) (address : String) :
    mentions known address ['\n'] = [] := by
  rw [mentions_eq, mentioned_of_texts (texts_mention_of_not_mem (by decide))]
  rfl

/-- The type of a network is a type. -/
theorem isType_vpc : IsType "aws_vpc".toList := by
  have hword : ∀ c ∈ "vpc".toList, nameChars.contains c = true := fun c hc =>
    nameChar_of_lower (List.all_eq_true.1 (by decide : "vpc".toList.all Char.isLower = true) c hc)
  have hstem : ∀ c ∈ "ws".toList, c.isDigit = true ∨ c.isLower = true := fun c hc =>
    .inr (List.all_eq_true.1 (by decide : "ws".toList.all Char.isLower = true) c hc)
  exact ⟨'a', "ws".toList, 'v', "pc".toList, rfl, by decide, hstem, hword⟩

/-- A mention of the network behind a blank. -/
theorem mentioned_vpc {known : List String} {address : String} (hknown : "aws_vpc.main" ∈ known)
    (hne : "aws_vpc.main" ≠ address) {front : List Char} (hfront : '.' ∉ front) :
    mentioned known address (front ++ ' ' :: "aws_vpc.main".toList) = ["aws_vpc.main"] := by
  have hname : IsName "main".toList := isName_of_isAlpha (by decide)
  have hmentioned := @mentioned_reference known address "aws_vpc".toList "main".toList isType_vpc
    hname hknown hne
  rw [mentioned_append cut_space, mentioned_of_texts (texts_mention_of_not_mem hfront),
    List.nil_append]
  exact hmentioned

/-- A network and a part of it, and another network with its address in a second file. -/
def network : List SourceFile :=
  [configuration "a/main.tf" (networkText "\n  vpc_id = aws_vpc.main\n".toList),
    configuration "b/main.tf" vpcText]

/-- The outline of two files that declare one network, which a part depends on. -/
theorem outline_network : (diagram (network.flatMap blocksOf)).resources.map outline =
    [⟨"aws_vpc.main", "", "", "", "", 0, [], ["aws_subnet.one"], []⟩,
      ⟨"aws_subnet.one", "", "", "", "", 0, ["aws_vpc.main"], [], []⟩,
      ⟨"aws_vpc.main", "", "", "", "", 0, [], [], []⟩] := by
  have hsubnet : (subnet "\n  vpc_id = aws_vpc.main\n".toList).Sound :=
    .block (balanced_flat (by decide)) (lined_of_startsBlock (by decide)) nofun
  have hsecond := @entries_render (configuration "b/main.tf" vpcText) [vpc, .line []]
    (by decide : vpcText = _)
    (List.forall_mem_cons.2 ⟨sound_vpc, List.forall_mem_singleton.2 sound_empty⟩)
  have hentries : (network.flatMap blocksOf).filterMap Block.addressed? = [("aws_vpc.main", ['\n']),
      ("aws_subnet.one", "\n  vpc_id = aws_vpc.main\n".toList), ("aws_vpc.main", ['\n'])] := by
    rw [network, List.flatMap_cons, List.flatMap_cons, List.flatMap_nil, List.append_nil,
      List.filterMap_append, entries_network _ hsubnet, hsecond]
    rfl
  have hone : mentions ["aws_vpc.main", "aws_subnet.one", "aws_vpc.main"] "aws_subnet.one"
      "\n  vpc_id = aws_vpc.main\n".toList = ["aws_vpc.main"] := by
    have hmentioned : mentioned ["aws_vpc.main", "aws_subnet.one", "aws_vpc.main"] "aws_subnet.one"
        (("\n  vpc_id =".toList ++ ' ' :: "aws_vpc.main".toList) ++ '\n' :: [])
          = ["aws_vpc.main"] := by
      rw [mentioned_append cut_newline, mentioned_vpc (by decide) (by decide) (by decide),
        mentioned_of_texts (texts_mention_of_not_mem List.not_mem_nil), List.append_nil]
    exact (mentions_eq ..).trans (congrArg (addNew []) hmentioned)
  rw [outline_diagram, hentries, outlinesOf]
  simp only [List.map_cons, List.map_nil, outlineOf, mentions_newline, hone]
  rfl

/-- The resources of the network's diagram. -/
theorem exists_network : ∃ r s t, (diagram (network.flatMap blocksOf)).resources = [r, s, t] ∧
    (r.address = "aws_vpc.main" ∧ s.address = "aws_subnet.one" ∧ t.address = "aws_vpc.main") ∧
    (r.dependencies = [] ∧ s.dependencies = ["aws_vpc.main"] ∧ t.dependencies = [])
      ∧ t.dependents = [] := by
  obtain ⟨r, rest, hr, hfirst, hrest⟩ := List.map_eq_cons_iff.1 outline_network
  obtain ⟨s, rest', rfl, hsecond, hrest'⟩ := List.map_eq_cons_iff.1 hrest
  obtain ⟨t, rest'', rfl, hthird, hnil⟩ := List.map_eq_cons_iff.1 hrest'
  obtain rfl := List.map_eq_nil_iff.1 hnil
  exact ⟨r, s, t, hr,
    ⟨congrArg Resource.address hfirst, congrArg Resource.address hsecond,
      congrArg Resource.address hthird⟩,
    ⟨congrArg Resource.dependencies hfirst, congrArg Resource.dependencies hsecond,
      congrArg Resource.dependencies hthird⟩, congrArg Resource.dependents hthird⟩

/-- The network that is declared first has the dependent, and its part has none. -/
theorem dependents_of_produced_network :
    ∃ r s t, (diagram (network.flatMap blocksOf)).resources = [r, s, t] ∧
    r.dependents = ["aws_subnet.one"] ∧ s.dependents = [] := by
  obtain ⟨r, s, t, hall, ⟨hr, hs, ht⟩, ⟨hr', hs', ht'⟩, -⟩ := exists_network
  have hfirst := @dependents_of_produced _ (.files network) [] [s, t] r hall
  have hsecond := @dependents_of_produced _ (.files network) [r] [t] s hall
  rw [hall] at hfirst hsecond
  refine ⟨r, s, t, hall, ?_, ?_⟩
  · rw [hfirst]
    simp [hr, hs, hr', hs', ht']
  · rw [hsecond]
    simp [hr, hs, hr', hs', ht']

/-- The second of two resources with one address has no dependents, although a resource depends on
the address. -/
theorem dependents_of_repeated : ∃ d, Produced d ∧ ∃ r ∈ d.resources, r.dependents = [] ∧
    (d.resources.filter fun s => s.dependencies.contains r.address).map Resource.address
      = ["aws_subnet.one"] := by
  obtain ⟨r, s, t, hall, ⟨-, hs, ht⟩, ⟨hr', hs', ht'⟩, hnone⟩ := exists_network
  refine ⟨_, .files network, t, ?_, hnone, ?_⟩
  · rw [hall]
    simp
  · rw [hall]
    simp [hs, ht, hr', hs', ht']

/-! ## Comments -/

/-- The kinds of comments. -/
inductive Comment where
  | hash
  | slashes
  | starred

namespace Comment

/-- What a comment starts with. -/
def lead : Comment → List Char
  | hash => ['#']
  | slashes => ['/', '/']
  | starred => ['/', '*']

/-- What ends a comment. -/
def tail : Comment → List Char
  | hash | slashes => ['\n']
  | starred => ['*', '/']

/-- A comment as it stands in a text. -/
def text (c : Comment) (content : List Char) : List Char := c.lead ++ (content ++ c.tail)

/-- The comment goes on over all of its content. -/
def Holds (c : Comment) (content : List Char) : Prop := ¬ c.tail <:+: content

/-- A comment is one token. -/
theorem exists_takes (c : Comment) {content : List Char} (h : c.Holds content) :
    ∃ t, (∀ d, t ≠ .char d) ∧
    ∀ rest, Takes .hcl (c.text content ++ rest) t rest := by
  have hline : ∀ lead ∈ Lexis.hcl.lineComments, '\n' ∉ content → ∃ t, (∀ d, t ≠ .char d) ∧
      ∀ rest, Takes .hcl (lead ++ (content ++ ['\n']) ++ rest) t rest := by
    intro lead hlead hcontent
    refine ⟨.lineComment (byteLength (lead ++ (content ++ ['\n']))), nofun, fun rest => ?_⟩
    rw [List.append_assoc, List.append_assoc]
    exact .lineComment (not_opensBlock_lead hlead _) hlead hcontent
  cases c with
  | hash => exact hline ['#'] List.mem_cons_self (mt (List.singleton_infix_iff _ _).2 h)
  | slashes => exact hline ['/', '/'] (.tail _ (.head _)) (mt (List.singleton_infix_iff _ _).2 h)
  | starred =>
      refine ⟨.blockComment (byteLength ('/' :: '*' :: (content ++ ['*', '/']))), nofun,
        fun rest => ?_⟩
      have htakes := takes_blockComment h rest
      rwa [show '/' :: '*' :: (content ++ '*' :: '/' :: rest)
        = starred.text content ++ rest by simp [text, lead, tail]]
        at htakes

/-- A comment is balanced, for it is one token. -/
theorem balanced_text (c : Comment) {content : List Char} (h : c.Holds content) :
    Balanced (c.text content) [] := by
  obtain ⟨t, ht, htakes⟩ := c.exists_takes h
  refine ⟨[t], fun rest => .cons (htakes _) (.nil _), nested_of_forall ?_⟩
  exact List.forall_mem_singleton.2 ⟨ht _, ht _⟩

/-- A comment starts with its lead. -/
theorem lead_prefix (c : Comment) (content : List Char) : c.lead <+: c.text content :=
  List.prefix_append _ _

/-- The characters that start a comment are foreign to headings. -/
theorem foreign_lead (c : Comment) : ∀ d ∈ c.lead, IsForeign d := by
  cases c <;> simp [lead, IsForeign]

/-- The characters that end a comment are foreign to headings. -/
theorem foreign_tail (c : Comment) : ∀ d ∈ c.tail, IsForeign d := by
  cases c <;> simp [tail, IsForeign]

/-- The characters that start a comment stand in no mention. -/
theorem cut_lead (c : Comment) : ∀ d ∈ c.lead, Pattern.Cut IsMentionChar d := by
  cases c <;> exact cut_of_all (by decide)

/-- The characters that end a comment stand in no mention. -/
theorem cut_tail (c : Comment) : ∀ d ∈ c.tail, Pattern.Cut IsMentionChar d := by
  cases c <;> exact cut_of_all (by decide)

/-- The mentions of a comment stand between those of the texts around it. -/
theorem mentioned_text (c : Comment) (known : List String) (address : String)
    (front content back : List Char) :
    mentioned known address (front ++ (c.text content ++ back)) =
      mentioned known address front
        ++ (mentioned known address content ++ mentioned known address back) := by
  have hlead : c.lead ≠ [] := by cases c <;> decide
  have htail : c.tail ≠ [] := by cases c <;> decide
  rw [text, List.append_assoc, mentioned_apart hlead c.cut_lead, List.append_assoc,
    mentioned_apart htail c.cut_tail]

end Comment

/-! ## The lines around a comment -/

/-- No heading that begins in a line of a text behind the first one goes on behind the end of the
line. -/
def LinedBelow (text : List Char) : Prop := ∀ line ∈ (splitChar '\n' text).tail, ¬ InLabel line

section
variable {front back : List Char}

/-- A text whose lines are free of headings that go on is so below its first line. -/
theorem Lined.below (h : Lined front) : LinedBelow front :=
  fun line hline => h line (List.mem_of_mem_tail hline)

/-- What stands behind a part of such a text is so below its first line. -/
theorem Lined.behind (h : Lined (front ++ back)) : LinedBelow back := by
  obtain ⟨init, last, first, more, -, hback, hall⟩ := splitChar_append '\n' front back
  intro line hline
  rw [hback] at hline
  exact h line (by rw [hall]; exact List.mem_append_right _ (List.mem_cons_of_mem _ hline))

/-- A text of one line in front does not change what is below the first line. -/
theorem LinedBelow.append (hfront : '\n' ∉ front) (h : LinedBelow back) :
    LinedBelow (front ++ back) := by
  obtain ⟨init, last, first, more, hsplit, hback, hall⟩ := splitChar_append '\n' front back
  rw [splitChar_of_not_mem hfront] at hsplit
  cases init with
  | nil =>
      rw [LinedBelow, hback] at h
      rw [LinedBelow, hall]
      exact h
  | cons line init =>
      have hlength := congrArg List.length hsplit
      simp at hlength

/-- A heading that begins in a line does not go on over a foreign character. -/
theorem Lined.append (hfront : Lined front) (h : LinedBelow back)
    (hhead : ∀ c, back.head? = some c → IsForeign c) :
    Lined (front ++ back) := by
  obtain ⟨init, last, first, more, hsplit, hback, hall⟩ := splitChar_append '\n' front back
  have hlast : ¬ InLabel last :=
    hfront last (by rw [hsplit]; exact List.mem_append_right _ List.mem_cons_self)
  intro line hline
  rw [hall, List.mem_append, List.mem_cons] at hline
  rcases hline with hline | rfl | hline
  · exact hfront line (by rw [hsplit]; exact List.mem_append_left _ hline)
  · cases first with
    | nil => rwa [List.append_nil]
    | cons c first =>
        obtain ⟨rest, hrest⟩ := prefix_of_splitChar hback
        exact fun hlabel => hlast (hlabel.of_foreign (hhead c (by rw [← hrest]; rfl)))
  · exact h line (by rw [hback]; exact hline)

/-- In a blank text no heading begins. -/
theorem lined_blank (h : AllBlank front) : Lined front := by
  rintro line hline ⟨indent, kind, labels, gap, content, -, -, -, -, rfl⟩
  have hblank := h '"' (subset_of_mem_splitChar hline (by simp))
  rw [isBlank_of_isPrinted (by decide)] at hblank
  cases hblank

/-- Blanks in a comment start no heading. -/
theorem Comment.lined (c : Comment) {content blanks : List Char}
    (h : Lined (front ++ (c.text content ++ back))) (hfront : Lined front)
    (hblank : AllBlank blanks) : Lined (front ++ (c.text blanks ++ back)) := by
  have hhead : ∀ {text rest : List Char}, text ≠ [] → (∀ d ∈ text, IsForeign d) →
      ∀ d, (text ++ rest).head? = some d → IsForeign d := by
    intro text rest hne hforeign d hd
    obtain ⟨e, es, rfl⟩ := List.exists_cons_of_ne_nil hne
    cases hd
    exact hforeign _ List.mem_cons_self
  -- the first line behind the content is cut where the comment ends, so it is left out here
  have hbelow : LinedBelow (c.tail ++ back) := by
    refine @Lined.behind (front ++ (c.lead ++ content)) _ ?_
    simpa [Comment.text] using h
  have hinside : Lined (blanks ++ (c.tail ++ back)) :=
    (lined_blank hblank).append hbelow (hhead (by cases c <;> decide) c.foreign_tail)
  have hall := hfront.append (@LinedBelow.append c.lead _ (by cases c <;> decide) hinside.below)
    (hhead (by cases c <;> decide) c.foreign_lead)
  simpa [Comment.text] using hall

end

/-! ## Comments in blocks -/

/-- A file with a comment in the body of one of its blocks. -/
structure Commented extends Frame where
  /-- The body in front of the comment. -/
  front : List Char
  comment : Comment
  back : List Char

namespace Commented
variable (t : Commented)

/-- The body with this content in the comment. -/
def body (content : List Char) : List Char := t.front ++ (t.comment.text content ++ t.back)

/-- The pieces of a file with a text in the place of the comment. -/
def pieces (content : List Char) : List Piece := t.toFrame.pieces (t.body content)

/-- The address of the block with its body. -/
def addressed? (content : List Char) : Option (String × List Char) :=
  t.heading.declared?.map fun r => (r.address, t.body content)

/-- The comment is one: the tokens of the body end in front of it, and so does every heading that
begins there. -/
structure Starts : Prop where
  cutsUp : ∃ ts, CutsUp t.front t.comment.lead ts
  lined : Lined t.front

variable {t} {content blanks : List Char}

/-- With blanks in the comment the block ends at the same brace. -/
theorem Starts.sound (h : t.Starts) (hsound : ∀ p ∈ t.pieces content, p.Sound)
    (hcontent : t.comment.Holds content) (hblank : AllBlank blanks)
    (hblanks : t.comment.Holds blanks) : ∀ p ∈ t.pieces blanks, p.Sound := by
  obtain ⟨ts, hts⟩ := h.cutsUp
  refine Frame.sound hsound (fun hbalanced => ?_) fun hlined =>
    t.comment.lined hlined h.lined hblank
  exact hbalanced.replace hts (t.comment.balanced_text hcontent) (t.comment.balanced_text hblanks)
    (t.comment.lead_prefix content) (t.comment.lead_prefix blanks)

/-- What a body mentions stands in front of the comment, in it, or behind it. -/
theorem mentioned_body (known : List String) (address : String) (content : List Char) :
    mentioned known address (t.body content) = mentioned known address t.front ++
      (mentioned known address content ++ mentioned known address t.back) :=
  t.comment.mentioned_text known address t.front content t.back

/-- The content of the comment makes no difference to the other blocks. -/
theorem exists_entries (t : Commented) (before after : List SourceFile) :
    ∃ ahead behind : List (String × List Char),
    ∀ {f : SourceFile} {content : List Char}, f.content = render (t.pieces content) →
      (∀ p ∈ t.pieces content, p.Sound) →
        ((before ++ f :: after).flatMap blocksOf).filterMap Block.addressed? =
        ahead ++ ((t.addressed? content).toList ++ behind) := by
  refine ⟨(before.flatMap blocksOf).filterMap Block.addressed? ++
      (t.above.filterMap Piece.declaration?).filterMap Declaration.addressed?,
    (t.beneath.filterMap Piece.declaration?).filterMap Declaration.addressed? ++
      (after.flatMap blocksOf).filterMap Block.addressed?, fun {f content} hcontent hsound => ?_⟩
  have hcons : ∀ ds, (⟨t.heading, t.body content⟩ :: ds).filterMap Declaration.addressed? =
      (t.addressed? content).toList ++ ds.filterMap Declaration.addressed? := by
    intro ds
    have hhead : Declaration.addressed? ⟨t.heading, t.body content⟩ = t.addressed? content := rfl
    rw [List.filterMap_cons, hhead]
    cases t.addressed? content <;> rfl
  rw [List.flatMap_append, List.flatMap_cons, List.filterMap_append, List.filterMap_append,
    entries_render hcontent hsound, pieces, Frame.declarations_pieces, List.filterMap_append, hcons]
  simp only [List.append_assoc]

/-- Two files that differ in the comment have the same entries but for that of the block with the
comment. -/
theorem forall₂_entries {R : String × List Char → String × List Char → Prop}
    (hrefl : ∀ entry, R entry entry)
    (hblock : ∀ r, t.heading.declared? = some r →
      R (r.address, t.body content) (r.address, t.body blanks))
    (ahead behind : List (String × List Char)) :
    List.Forall₂ R (ahead ++ ((t.addressed? content).toList ++ behind))
      (ahead ++ ((t.addressed? blanks).toList ++ behind)) := by
  have hsame : ∀ entries, List.Forall₂ R entries entries := fun entries =>
    List.forall₂_same.2 fun entry _ => hrefl entry
  refine List.rel_append (hsame ahead) (List.rel_append ?_ (hsame behind))
  rw [addressed?, addressed?]
  cases hheading : t.heading.declared? with
  | none => exact .nil
  | some r => exact .cons (hblock r hheading) .nil

end Commented

/-- A resource of a file with a comment in a block, and of one without: only that of the block may
depend on more with the comment, and what it depends on besides is mentioned by the comment. -/
structure Sheds (heading : Heading) (known : List String) (content : List Char)
    (r s : Resource) : Prop where
  address_eq : r.address = s.address
  dependencies_eq : heading.declared?.map Declared.address ≠ some r.address →
    r.dependencies = s.dependencies
  subset : s.dependencies ⊆ r.dependencies
  mentioned : ∀ a ∈ r.dependencies, a ∈ s.dependencies ∨ a ∈ mentioned known r.address content

section
variable {t : Commented} {content blanks : List Char} (hblank : AllBlank blanks)
  (known : List String)
  (address : String)
include hblank

/-- With blanks for the comment a body mentions what stands in front of it and behind it. -/
theorem mentions_blank : mentions known address (t.body blanks) =
    addNew [] (mentioned known address t.front ++ mentioned known address t.back) := by
  rw [mentions_eq, Commented.mentioned_body, mentioned_of_texts (texts_mention_blank hblank),
    List.nil_append]

/-- The comment adds to the mentions of the block what is mentioned in it and not in front of it. -/
theorem mentions_body_of_subset
    (h : mentioned known address content ⊆ mentioned known address t.front) :
    mentions known address (t.body content) = mentions known address (t.body blanks) := by
  rw [mentions_blank hblank, mentions_eq, Commented.mentioned_body, addNew_append, addNew_append,
    addNew_append, addNew_of_subset fun a ha => mem_addNew.2 (.inr (h ha))]

/-- With the comment a body mentions what it mentions without, and what the comment mentions. -/
theorem mem_mentions_body {a : String} : a ∈ mentions known address (t.body content) ↔
    a ∈ mentions known address (t.body blanks) ∨ a ∈ mentioned known address content := by
  rw [mentions_blank hblank, mentions_eq, Commented.mentioned_body, mem_addNew, mem_addNew]
  simp only [List.mem_append, List.not_mem_nil, false_or]
  tauto

end

/-- Blanks in the place of a comment leave all resources of a diagram what they are, but that the
block with the comment may lose dependencies on addresses that the comment mentions. If all of these
are mentioned in front of the comment too, no dependencies and no dependents change. -/
theorem diagram_of_comment {before after : List SourceFile} {f : SourceFile} {t : Commented}
    {content blanks : List Char} (hcontent : f.content = render (t.pieces content))
    (hsound : ∀ p ∈ t.pieces content, p.Sound) (hstarts : t.Starts)
    (hholds : t.comment.Holds content) (hblank : AllBlank blanks)
    (hholds' : t.comment.Holds blanks) :
    let d := diagram ((before ++ f :: after).flatMap blocksOf)
    let e :=
      diagram ((before ++ { f with content := render (t.pieces blanks) } :: after).flatMap blocksOf)
    let known := d.resources.map Resource.address
    List.Forall₂ (Sheds t.heading known content) d.resources e.resources ∧
      ((∀ r, t.heading.declared? = some r →
          mentioned known r.address content ⊆ mentioned known r.address t.front) →
        d.resources.map outline = e.resources.map outline) := by
  intro d e known
  obtain ⟨ahead, behind, hentries⟩ := t.exists_entries before after
  have hd := hentries hcontent hsound
  have he := @hentries { f with content := render (t.pieces blanks) } blanks rfl
    (hstarts.sound hsound hholds hblank hholds')
  have hknown : known = (ahead ++ ((t.addressed? content).toList ++ behind)).map (·.1) :=
    (addresses_diagram _).trans (congrArg _ hd)
  have hknown' : known = (ahead ++ ((t.addressed? blanks).toList ++ behind)).map (·.1) :=
    hknown.trans (map_eq_of_forall₂
      (@Commented.forall₂_entries t content blanks (fun x y => x.1 = y.1) (fun _ => rfl)
      (fun _ _ => rfl) ahead behind))
  -- the bodies of one entry differ, and what they mention differs by what the comment mentions
  refine ⟨?_, fun hsubset => ?_⟩
  · let ofBlock := t.heading.declared?.map Declared.address
    have hentry := @Commented.forall₂_entries t content blanks
      (fun x y => x.1 = y.1 ∧ (ofBlock ≠ some x.1 → mentions known x.1 x.2 = mentions known y.1 y.2)
        ∧ mentions known y.1 y.2 ⊆ mentions known x.1 x.2 ∧
        ∀ a ∈ mentions known x.1 x.2, a ∈ mentions known y.1 y.2 ∨ a ∈ mentioned known x.1 content)
      (fun _ => ⟨rfl, fun _ => rfl, List.Subset.refl _, fun _ ha => .inl ha⟩)
      (fun r hr => ⟨rfl, fun hne => absurd (congrArg (Option.map Declared.address) hr) hne,
        fun a ha => (mem_mentions_body hblank known r.address).2 (.inl ha),
        fun a ha => (mem_mentions_body hblank known r.address).1 ha⟩) ahead behind
    have hdependencies := dependencies_diagram ((before ++ f :: after).flatMap blocksOf)
    have hdependencies' := dependencies_diagram
      ((before ++ { f with content := render (t.pieces blanks) } :: after).flatMap blocksOf)
    rw [hd, ← hknown] at hdependencies
    rw [he, ← hknown'] at hdependencies'
    have hpairs : List.Forall₂ (fun x y : String × List String =>
        x.1 = y.1 ∧ (ofBlock ≠ some x.1 → x.2 = y.2) ∧ y.2 ⊆ x.2 ∧
          ∀ a ∈ x.2, a ∈ y.2 ∨ a ∈ mentioned known x.1 content)
        (d.resources.map fun r => (r.address, r.dependencies))
        (e.resources.map fun r => (r.address, r.dependencies)) := by
      rw [hdependencies, hdependencies', List.forall₂_map_left_iff, List.forall₂_map_right_iff]
      exact hentry
    rw [List.forall₂_map_left_iff, List.forall₂_map_right_iff] at hpairs
    exact hpairs.imp fun r s h => ⟨h.1, h.2.1, h.2.2.1, h.2.2.2⟩
  · have hsame := @Commented.forall₂_entries t content blanks
      (fun x y => outlineOf known x = outlineOf known y) (fun _ => rfl)
      (fun r hr => by
        rw [outlineOf, outlineOf, mentions_body_of_subset hblank known r.address (hsubset r hr)])
          ahead behind
    rw [outline_diagram, outline_diagram, hd, he, outlinesOf, outlinesOf, ← hknown, ← hknown',
      map_eq_of_forall₂ hsame]

/-- The part of a network, with a comment at the end of its body. -/
def notedSubnet (front : String) : Commented where
  above := [vpc]
  heading := subnetHeading
  front := front.toList
  comment := .hash
  back := []
  tail := []
  beneath := [.line []]

/-- The comment in the example is one at its place. -/
theorem starts_notedSubnet {front : String} (hflat : front.toList.all isFlat = true)
    (hline : ∀ line ∈ splitChar '\n' front.toList, startsBlock line = false) :
    (notedSubnet front).Starts := by
  obtain ⟨ts, hts, -⟩ := balanced_flat hflat
  exact ⟨⟨ts, hts⟩, lined_of_startsBlock hline⟩

/-- A text without a newline may stand in a comment up to the end of a line. -/
theorem holds_hash {content : List Char} (h : '\n' ∉ content) : Comment.hash.Holds content :=
  mt (List.singleton_infix_iff _ _).1 h

/-- The block of the example with a comment is sound. -/
theorem sound_notedSubnet {front : String} {content : List Char}
    (hflat : front.toList.all isFlat = true) (hcontent : '\n' ∉ content)
    (hline : ∀ line ∈ splitChar '\n' (front.toList ++ (Comment.hash.text content ++ [])),
      startsBlock line = false) :
    (subnet (front.toList ++ (Comment.hash.text content ++ []))).Sound := by
  have hcomment := Comment.hash.balanced_text (holds_hash hcontent)
  exact .block ((balanced_flat hflat).append (hcomment.append (balanced_flat rfl)))
    (lined_of_startsBlock hline) nofun

/-- Blanks in the place of a comment that mentions what is mentioned before it change nothing. -/
theorem diagram_of_comment_again :
    (diagram ([configuration "main.tf" (render ((notedSubnet "\n  vpc_id = aws_vpc.main\n  ").pieces
      " was aws_vpc.main".toList))].flatMap blocksOf)).resources.map outline =
    (diagram ([configuration "main.tf" (render ((notedSubnet "\n  vpc_id = aws_vpc.main\n  ").pieces
      "                 ".toList))].flatMap blocksOf)).resources.map outline := by
  have hflat : "\n  vpc_id = aws_vpc.main\n  ".toList.all isFlat = true := by decide
  have hsubnet := @sound_notedSubnet _ " was aws_vpc.main".toList hflat (by decide) (by decide)
  have hblank : AllBlank "                 ".toList := allBlank_of_all_space (by decide)
  refine (@diagram_of_comment [] [] (configuration "main.tf" _)
    (notedSubnet "\n  vpc_id = aws_vpc.main\n  ") _ _ rfl
    (sound_network hsubnet) (starts_notedSubnet hflat (by decide)) (holds_hash (by decide)) hblank
    (holds_hash (by decide))).2 fun r _ => ?_
  have hfront : ∀ known, mentioned known r.address
      (("\n  vpc_id =".toList ++ ' ' :: "aws_vpc.main".toList) ++ '\n' :: "  ".toList) =
        mentioned known r.address "\n  vpc_id =".toList
          ++ mentioned known r.address "aws_vpc.main".toList ++
          mentioned known r.address "  ".toList := fun _ => by
    rw [mentioned_append cut_newline, mentioned_append cut_space]
  have hcontent : ∀ known, mentioned known r.address (" was".toList ++ ' ' :: "aws_vpc.main".toList)
      = mentioned known r.address "aws_vpc.main".toList := fun _ => by
    rw [mentioned_append cut_space, mentioned_of_texts (texts_mention_of_not_mem (by decide)),
      List.nil_append]
  exact fun a ha => (hfront _).symm
    ▸ List.mem_append_left _ (List.mem_append_right _ (hcontent _ ▸ ha))

/-- A comment that mentions a network makes a part of it depend on the network, and blanks in its
place do not. -/
theorem dependencies_of_comment :
    (diagram (blocksOf (configuration "main.tf"
        (networkText "\n  # was aws_vpc.main\n".toList)))).resources.map outline =
      [⟨"aws_vpc.main", "", "", "", "", 0, [], ["aws_subnet.one"], []⟩,
        ⟨"aws_subnet.one", "", "", "", "", 0, ["aws_vpc.main"], [], []⟩] ∧
    (diagram (blocksOf (configuration "main.tf"
        (networkText "\n  #                 \n".toList)))).resources.map outline =
      [⟨"aws_vpc.main", "", "", "", "", 0, [], [], []⟩,
        ⟨"aws_subnet.one", "", "", "", "", 0, [], [], []⟩] := by
  have hsubnet : (subnet "\n  # was aws_vpc.main\n".toList).Sound :=
    @sound_notedSubnet "\n  " " was aws_vpc.main".toList (by decide) (by decide) (by decide)
  have hsubnet' : (subnet "\n  #                 \n".toList).Sound :=
    @sound_notedSubnet "\n  " "                 ".toList (by decide) (by decide) (by decide)
  -- the address is found, as the body is searched with its comments
  have hmentions : mentions ["aws_vpc.main", "aws_subnet.one"] "aws_subnet.one"
      "\n  # was aws_vpc.main\n".toList =
      ["aws_vpc.main"] := by
    have hmentioned : mentioned ["aws_vpc.main", "aws_subnet.one"] "aws_subnet.one"
        ("\n  ".toList ++
        (Comment.hash.text (" was".toList ++ ' ' :: "aws_vpc.main".toList) ++ []))
          = ["aws_vpc.main"] := by
      rw [Comment.mentioned_text, mentioned_vpc (by decide) (by decide) (by decide),
        mentioned_of_texts (texts_mention_of_not_mem (by decide : '.' ∉ "\n  ".toList)),
        mentioned_of_texts (texts_mention_of_not_mem List.not_mem_nil)]
      rfl
    exact (mentions_eq ..).trans (congrArg (addNew []) hmentioned)
  have hmentions' : mentions ["aws_vpc.main", "aws_subnet.one"] "aws_subnet.one"
      "\n  #                 \n".toList = [] := by
    rw [mentions_eq, mentioned_of_texts (texts_mention_of_not_mem (by decide))]
    rfl
  constructor
  · rw [outline_diagram, entries_network _ hsubnet, outlinesOf]
    simp only [List.map_cons, List.map_nil, outlineOf, mentions_newline, hmentions]
    rfl
  · rw [outline_diagram, entries_network _ hsubnet', outlinesOf]
    simp only [List.map_cons, List.map_nil, outlineOf, mentions_newline, hmentions']
    rfl

end CodeAtlas.Source.Terraform
