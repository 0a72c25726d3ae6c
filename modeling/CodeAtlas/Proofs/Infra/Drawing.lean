import CodeAtlas.Infra.Diagram
import CodeAtlas.Proofs.Text.Splitting
import CodeAtlas.Proofs.Unicode.Words
import Mathlib.Data.List.Nodup

/-!
# Drawings

A flow chart is read back line by line: a line declares a node with its label, or draws an arrow
from one node to another. What a diagram is drawn as shows its dependencies exactly if no two of its
addresses share a node, and addresses share one if they differ in nothing but the characters that
are neither letters nor digits.
-/

namespace CodeAtlas.Infra.Diagram

open Text Unicode

/-! ## Reading a drawing -/

/-- The node that a line declares, with its label. -/
def node? (line : List Char) : Option (String × String) := do
  let inside ← after? "    ".toList line
  let (name, rest) ← cut? "[\"".toList inside
  let (label, _) ← cut? "\"]".toList rest
  return (String.ofList name, String.ofList label)

/-- The nodes from and to which a line draws an arrow. -/
def arrow? (line : List Char) : Option (String × String) := do
  let inside ← after? "    ".toList line
  let (source, target) ← cut? " --> ".toList inside
  return (String.ofList source, String.ofList target)

/-- The nodes that a drawing declares, with their labels. -/
def nodesOf (text : String) : List (String × String) := (lines text.toList).filterMap node?

/-- The arrows of a drawing. -/
def arrowsOf (text : String) : List (String × String) := (lines text.toList).filterMap arrow?

/-- An arrow leads from a declared node with the label `a` to one with the label `b`. -/
def Drawn (text a b : String) : Prop :=
  ∃ x y, (x, a) ∈ nodesOf text ∧ (y, b) ∈ nodesOf text ∧ (x, y) ∈ arrowsOf text

/-! ## Addresses -/

/-- A text of letters, digits, underscores, hyphens and dots, as every address is. -/
def IsAddress (s : String) : Prop := ∀ c ∈ s.toList, isWordChar c = true ∨ c = '-' ∨ c = '.'

/-- The characters by which a drawing is cut into lines, nodes and labels. -/
def marks : List Char := ['\n', '\r', ' ', '"', '[']

/-- The marks of a chart stand in no address. -/
theorem IsAddress.not_mem {s : String} (h : IsAddress s) {c : Char} (hc : c ∈ marks) :
    c ∉ s.toList := by
  intro hmem
  have hwithin : marks.all (fun c => decide (CharSet.Within gapRanges c.toNat)) = true := by decide
  have hword : isWordChar c = false :=
    not_isWordChar_of_within (of_decide_eq_true (List.all_eq_true.1 hwithin c hc))
  rcases h c hmem with hc' | rfl | rfl
  · rw [hword] at hc'
    cases hc'
  · exact absurd hc (by decide)
  · exact absurd hc (by decide)

/-- The check of characters says that a text is an address. -/
theorem isAddress_of_all {s : String}
    (h : s.toList.all (fun c => c.isAlphanum || c == '_' || c == '-' || c == '.') = true) :
    IsAddress s := by
  intro c hc
  have hcases := List.all_eq_true.1 h c hc
  simp only [Char.isAlphanum, Bool.or_eq_true, beq_iff_eq] at hcases
  rcases hcases with (((hc | hc) | rfl) | rfl) | rfl
  · exact .inl (isWordChar_of_isAlpha hc)
  · exact .inl (isWordChar_of_isDigit hc)
  · exact .inl isWordChar_underscore
  · exact .inr (.inl rfl)
  · exact .inr (.inr rfl)

/-- The name of a node is an address. -/
theorem isAddress_nodeName (a : String) : IsAddress (nodeName a) := by
  refine isAddress_of_all (List.all_eq_true.2 fun c hc => ?_)
  rw [nodeName, String.toList_map] at hc
  obtain ⟨d, -, rfl⟩ := List.mem_map.1 hc
  split
  · next hd => simp [hd]
  · rfl

/-- Two addresses differ in nothing but characters that are neither letters nor digits. -/
def Alike (a b : String) : Prop :=
  List.Forall₂ (fun c d => c = d ∨ (c.isAlphanum = false ∧ d.isAlphanum = false)) a.toList b.toList

instance (a b : String) : Decidable (Alike a b) := inferInstanceAs (Decidable (List.Forall₂ ..))

/-- Addresses share a node if they are alike, and only then. -/
theorem nodeName_eq_iff {a b : String} : nodeName a = nodeName b ↔ Alike a b := by
  have hunderscore : Char.isAlphanum '_' = false := by decide
  rw [← String.toList_inj, nodeName, nodeName, String.toList_map, String.toList_map,
    ← List.forall₂_eq_eq_eq, List.forall₂_map_left_iff, List.forall₂_map_right_iff, Alike]
  refine iff_of_eq (congrArg (List.Forall₂ · a.toList b.toList) ?_)
  funext c d
  apply propext
  cases hc : c.isAlphanum <;> cases hd : d.isAlphanum
  · simp
  · -- only one of the two is kept, and it is no underscore
    have hne : c ≠ d := fun h => by rw [h, hd] at hc; cases hc
    have hne' : '_' ≠ d := fun h => by rw [← h, hunderscore] at hd; cases hd
    simp [hne, hne']
  · have hne : c ≠ d := fun h => by rw [h, hd] at hc; cases hc
    have hne' : c ≠ '_' := fun h => by rw [h, hunderscore] at hc; cases hc
    simp [hne, hne']
  · simp

/-! ## The lines of a drawing -/

/-- The line that declares the node of an address. -/
def nodeLine (a : String) : List Char :=
  "    ".toList ++ ((nodeName a).toList ++ ("[\"".toList ++ (a.toList ++ "\"]".toList)))

/-- The line that draws an arrow between the nodes of two addresses. -/
def arrowLine (a b : String) : List Char :=
  "    ".toList ++ ((nodeName a).toList ++ (" --> ".toList ++ (nodeName b).toList))

/-- The line of a node is read back as its name and its address. -/
theorem node?_nodeLine {a : String} (h : IsAddress a) :
    node? (nodeLine a) = some (nodeName a, a) := by
  have hname : cut? "[\"".toList
      ((nodeName a).toList ++ ("[\"".toList ++ (a.toList ++ "\"]".toList)))
      = some ((nodeName a).toList, a.toList ++ "\"]".toList) :=
    cut?_of_not_mem ((isAddress_nodeName a).not_mem (by decide)) ['"'] _
  have hlabel : cut? "\"]".toList (a.toList ++ "\"]".toList) = some (a.toList, []) :=
    cut?_of_not_mem (h.not_mem (by decide)) [']'] []
  rw [node?, nodeLine, after?_eq_some_iff.2 rfl]
  simp only [hname, hlabel, Option.bind_eq_bind, Option.bind_some, Option.pure_def,
    String.ofList_toList]

/-- The line of a node is no arrow. -/
theorem arrow?_nodeLine {a : String} (h : IsAddress a) : arrow? (nodeLine a) = none := by
  have hspace : ' ' ∉ (nodeName a).toList ++ ("[\"".toList ++ (a.toList ++ "\"]".toList)) := by
    have hname := (isAddress_nodeName a).not_mem (c := ' ') (by decide)
    have hlabel := h.not_mem (c := ' ') (by decide)
    simp [hname, hlabel]
  have hnone : cut? " --> ".toList
      ((nodeName a).toList ++ ("[\"".toList ++ (a.toList ++ "\"]".toList))) = none :=
    cut?_eq_none_of_not_mem hspace "--> ".toList
  rw [arrow?, nodeLine, after?_eq_some_iff.2 rfl]
  simp only [hnone, Option.bind_eq_bind, Option.bind_some, Option.bind_none]

/-- The line of an arrow is read back as the names at its ends. -/
theorem arrow?_arrowLine (a b : String) :
    arrow? (arrowLine a b) = some (nodeName a, nodeName b) := by
  have hcut : cut? " --> ".toList ((nodeName a).toList ++ (" --> ".toList ++ (nodeName b).toList))
      = some ((nodeName a).toList, (nodeName b).toList) :=
    cut?_of_not_mem ((isAddress_nodeName a).not_mem (by decide)) "--> ".toList _
  rw [arrow?, arrowLine, after?_eq_some_iff.2 rfl]
  simp only [hcut, Option.bind_eq_bind, Option.bind_some, Option.pure_def, String.ofList_toList]

/-- The line of an arrow is no node. -/
theorem node?_arrowLine (a b : String) : node? (arrowLine a b) = none := by
  have hbracket : '[' ∉ (nodeName a).toList ++ (" --> ".toList ++ (nodeName b).toList) := by
    have ha := (isAddress_nodeName a).not_mem (c := '[') (by decide)
    have hb := (isAddress_nodeName b).not_mem (c := '[') (by decide)
    simp [ha, hb]
  have hnone : cut? "[\"".toList ((nodeName a).toList ++ (" --> ".toList ++ (nodeName b).toList))
      = none :=
    cut?_eq_none_of_not_mem hbracket ['"']
  rw [node?, arrowLine, after?_eq_some_iff.2 rfl]
  simp only [hnone, Option.bind_eq_bind, Option.bind_some, Option.bind_none]

/-- The lines of texts that are each a line and its end. -/
theorem lines_flatMap {ls : List (List Char)} (h : ∀ l ∈ ls, '\n' ∉ l ∧ '\r' ∉ l) :
    lines (ls.flatMap (· ++ ['\n'])) = ls := by
  induction ls with
  | nil => rfl
  | cons l ls ih =>
      obtain ⟨⟨hnewline, hreturn⟩, hrest⟩ := List.forall_mem_cons.1 h
      have hlast : l.getLast? ≠ some '\r' := fun hl => hreturn (List.mem_of_getLast? hl)
      rw [List.flatMap_cons, List.append_assoc, List.singleton_append, lines_line hnewline,
        dropReturn_of_ne hlast, ih hrest]

/-- The lines of the flow chart of a diagram: its head, a line for each node and one for each
arrow. -/
def drawing (d : Diagram) : List (List Char) :=
  "flowchart LR".toList :: (d.resources.map fun r => nodeLine r.address) ++
    d.resources.flatMap fun r => r.dependencies.map (arrowLine r.address)

/-- The resources have addresses. -/
def Addressed (d : Diagram) : Prop := ∀ r ∈ d.resources, IsAddress r.address

/-- A chart is its lines with newlines behind them. -/
theorem toList_toMermaid (d : Diagram) : d.toMermaid.toList = d.drawing.flatMap (· ++ ['\n']) := by
  simp only [toMermaid, drawing, String.toList_append, String.toList_join, List.flatMap_append,
    List.flatMap_map, List.flatMap_cons, List.flatMap_assoc]
  simp [nodeLine, arrowLine]

/-- There is no end of a line in the line of a node. -/
theorem not_mem_nodeLine {a : String} (h : IsAddress a) {c : Char} (hc : c = '\n' ∨ c = '\r') :
    c ∉ nodeLine a := by
  have hmark : c ∈ marks := by rcases hc with rfl | rfl <;> decide
  have hplain : c ∉ "    ".toList ++ ("[\"".toList ++ "\"]".toList) := by
    rcases hc with rfl | rfl <;> decide
  have hname := (isAddress_nodeName a).not_mem hmark
  have hlabel := h.not_mem hmark
  simp only [nodeLine, List.mem_append, not_or] at hplain ⊢
  exact ⟨hplain.1, hname, hplain.2.1, hlabel, hplain.2.2⟩

/-- There is no end of a line in the line of an arrow. -/
theorem not_mem_arrowLine (a b : String) {c : Char} (hc : c = '\n' ∨ c = '\r') :
    c ∉ arrowLine a b := by
  have hmark : c ∈ marks := by rcases hc with rfl | rfl <;> decide
  have hplain : c ∉ "    ".toList ++ " --> ".toList := by rcases hc with rfl | rfl <;> decide
  have ha := (isAddress_nodeName a).not_mem hmark
  have hb := (isAddress_nodeName b).not_mem hmark
  simp only [arrowLine, List.mem_append, not_or] at hplain ⊢
  exact ⟨hplain.1, ha, hplain.2, hb⟩

/-- The lines of a chart are those that were drawn. -/
theorem lines_toMermaid {d : Diagram} (h : d.Addressed) : lines d.toMermaid.toList = d.drawing := by
  have hline : ∀ c, c = '\n' ∨ c = '\r' → ∀ l ∈ d.drawing, c ∉ l := by
    intro c hc l hl
    rcases List.mem_append.1 hl with hl | hl
    · rcases List.mem_cons.1 hl with rfl | hl
      · rcases hc with rfl | rfl <;> decide
      · obtain ⟨r, hr, rfl⟩ := List.mem_map.1 hl
        exact not_mem_nodeLine (h r hr) hc
    · obtain ⟨r, -, hl⟩ := List.mem_flatMap.1 hl
      obtain ⟨dep, -, rfl⟩ := List.mem_map.1 hl
      exact not_mem_arrowLine r.address dep hc
  rw [toList_toMermaid]
  exact lines_flatMap fun l hl => ⟨hline _ (.inl rfl) l hl, hline _ (.inr rfl) l hl⟩

/-- Each resource has a node, with its address for a label. -/
theorem nodesOf_toMermaid {d : Diagram} (h : d.Addressed) :
    nodesOf d.toMermaid = d.resources.map fun r => (nodeName r.address, r.address) := by
  have hnodes : (d.resources.map fun r => nodeLine r.address).filterMap node?
      = d.resources.map fun r => (nodeName r.address, r.address) := by
    rw [List.filterMap_map, ← List.filterMap_eq_map]
    exact List.filterMap_congr fun r hr => node?_nodeLine (h r hr)
  have harrows : (d.resources.flatMap fun r => r.dependencies.map (arrowLine r.address)).filterMap
      node? = [] := by
    refine List.filterMap_eq_nil_iff.2 fun l hl => ?_
    obtain ⟨r, -, hl⟩ := List.mem_flatMap.1 hl
    obtain ⟨dep, -, rfl⟩ := List.mem_map.1 hl
    exact node?_arrowLine r.address dep
  have hhead : node? "flowchart LR".toList = none := rfl
  rw [nodesOf, lines_toMermaid h, drawing, List.filterMap_append, harrows, List.append_nil,
    List.filterMap_cons_none hhead, hnodes]

/-- Each dependency has an arrow. -/
theorem arrowsOf_toMermaid {d : Diagram} (h : d.Addressed) : arrowsOf d.toMermaid =
    d.resources.flatMap fun r => r.dependencies.map fun dep =>
      (nodeName r.address, nodeName dep) := by
  have hnodes : (d.resources.map fun r => nodeLine r.address).filterMap arrow? = [] := by
    refine List.filterMap_eq_nil_iff.2 fun l hl => ?_
    obtain ⟨r, hr, rfl⟩ := List.mem_map.1 hl
    exact arrow?_nodeLine (h r hr)
  have harrows : ∀ r : Resource, (r.dependencies.map (arrowLine r.address)).filterMap arrow?
      = r.dependencies.map fun dep => (nodeName r.address, nodeName dep) := by
    intro r
    rw [List.filterMap_map, ← List.filterMap_eq_map]
    exact List.filterMap_congr fun dep _ => arrow?_arrowLine r.address dep
  have hhead : arrow? "flowchart LR".toList = none := rfl
  rw [arrowsOf, lines_toMermaid h, drawing, List.filterMap_append,
    List.filterMap_cons_none hhead, hnodes, List.nil_append, List.filterMap_flatMap]
  simp only [harrows]

/-! ## What a drawing shows -/

/-- A resource of the diagram has the address. -/
def Declares (d : Diagram) (a : String) : Prop := a ∈ d.resources.map Resource.address

instance (d : Diagram) (a : String) : Decidable (d.Declares a) :=
  inferInstanceAs (Decidable (_ ∈ _))

/-- A resource with the address `a` depends on `b`. -/
def DependsOn (d : Diagram) (a b : String) : Prop :=
  ∃ r ∈ d.resources, r.address = a ∧ b ∈ r.dependencies

/-- A drawing shows a diagram: no two of its nodes are the same, and it has an arrow from one label
to another exactly if the resource with the first address depends on the second. -/
structure Shows (text : String) (d : Diagram) : Prop where
  nodup : ((nodesOf text).map Prod.fst).Nodup
  drawn_iff : ∀ a b, Drawn text a b ↔ d.Declares a ∧ d.Declares b ∧ d.DependsOn a b

/-- No address of a resource is like another one, nor like something undeclared on which a resource
depends, unless that resource depends on the declared one too. -/
structure Apart (d : Diagram) : Prop where
  declared : ∀ a b, d.Declares a → d.Declares b → Alike a b → a = b
  mentioned : ∀ r ∈ d.resources, ∀ dep ∈ r.dependencies, ∀ b, d.Declares b → Alike dep b →
    b ∈ r.dependencies

/-- An address is like itself. -/
theorem alike_refl (a : String) : Alike a a := nodeName_eq_iff.1 rfl

/-- What is drawn between two addresses, in terms of the diagram. -/
theorem drawn_toMermaid {d : Diagram} (h : d.Addressed) (a b : String) : Drawn d.toMermaid a b ↔
    d.Declares a ∧ d.Declares b ∧ ∃ r ∈ d.resources, Alike r.address a
      ∧ ∃ dep ∈ r.dependencies, Alike dep b := by
  have hnode : ∀ x c, (x, c) ∈ nodesOf d.toMermaid ↔ d.Declares c ∧ x = nodeName c := by
    intro x c
    rw [nodesOf_toMermaid h, List.mem_map, Declares, List.mem_map]
    constructor
    · rintro ⟨r, hr, hpair⟩
      obtain ⟨rfl, rfl⟩ := Prod.mk.inj hpair
      exact ⟨⟨r, hr, rfl⟩, rfl⟩
    · rintro ⟨⟨r, hr, rfl⟩, rfl⟩
      exact ⟨r, hr, rfl⟩
  have harrow : ∀ x y, (x, y) ∈ arrowsOf d.toMermaid ↔
      ∃ r ∈ d.resources, nodeName r.address = x ∧ ∃ dep ∈ r.dependencies, nodeName dep = y := by
    intro x y
    simp only [arrowsOf_toMermaid h, List.mem_flatMap, List.mem_map, Prod.mk.injEq]
    constructor
    · rintro ⟨r, hr, dep, hdep, hx, hy⟩
      exact ⟨r, hr, hx, dep, hdep, hy⟩
    · rintro ⟨r, hr, hx, dep, hdep, hy⟩
      exact ⟨r, hr, dep, hdep, hx, hy⟩
  simp only [Drawn, hnode, harrow, ← nodeName_eq_iff]
  constructor
  · rintro ⟨_, _, ⟨ha, rfl⟩, ⟨hb, rfl⟩, hdrawn⟩
    exact ⟨ha, hb, hdrawn⟩
  · rintro ⟨ha, hb, hdrawn⟩
    exact ⟨_, _, ⟨ha, rfl⟩, ⟨hb, rfl⟩, hdrawn⟩

/-- The names of the nodes of a chart are distinct just if no two resources are alike. -/
theorem nodup_nodes_iff {d : Diagram} (h : d.Addressed)
    (hdistinct : (d.resources.map Resource.address).Nodup) :
    ((nodesOf d.toMermaid).map Prod.fst).Nodup
      ↔ ∀ a b, d.Declares a → d.Declares b → Alike a b → a = b := by
  have hnames : (nodesOf d.toMermaid).map Prod.fst
      = (d.resources.map Resource.address).map nodeName := by
    rw [nodesOf_toMermaid h, List.map_map, List.map_map]
    rfl
  rw [hnames, List.nodup_map_iff_inj_on hdistinct]
  simp only [nodeName_eq_iff]
  exact ⟨fun hinj a b ha hb => hinj a ha b hb, fun hinj a ha b hb => hinj a b ha hb⟩

/-- The flow chart of a diagram declares a node for each resource, with its address, and shows the
diagram exactly if its addresses are apart. -/
theorem toMermaid_shows {d : Diagram} (h : d.Addressed)
    (hdistinct : (d.resources.map Resource.address).Nodup) :
    (nodesOf d.toMermaid).map Prod.snd = d.resources.map Resource.address
      ∧ (Shows d.toMermaid d ↔ d.Apart) := by
  refine ⟨?_, fun hshows => ?_, fun hapart => ?_⟩
  · rw [nodesOf_toMermaid h, List.map_map]
    rfl
  · refine ⟨(nodup_nodes_iff h hdistinct).1 hshows.nodup, fun r hr dep hdep b hb halike => ?_⟩
    have hr' : d.Declares r.address := List.mem_map_of_mem hr
    have hdrawn := (drawn_toMermaid h r.address b).2 ⟨hr', hb, r, hr, alike_refl _, dep,
      hdep, halike⟩
    obtain ⟨-, -, s, hs, haddress, hmem⟩ := (hshows.drawn_iff r.address b).1 hdrawn
    obtain rfl := List.inj_on_of_nodup_map hdistinct hs hr haddress
    exact hmem
  · refine ⟨(nodup_nodes_iff h hdistinct).2 hapart.declared, fun a b => ?_⟩
    rw [drawn_toMermaid h]
    refine and_congr_right fun ha => and_congr_right fun hb => ⟨?_, ?_⟩
    · rintro ⟨r, hr, hsource, dep, hdep, htarget⟩
      exact ⟨r, hr, hapart.declared r.address a (List.mem_map_of_mem hr) ha hsource,
        hapart.mentioned r hr dep hdep b hb htarget⟩
    · rintro ⟨r, hr, rfl, hmem⟩
      exact ⟨r, hr, alike_refl _, b, hmem, alike_refl _⟩

/-- A resource that stands in `main.tf`. -/
def declared (address type name : String) (dependencies : List String) : Resource :=
  { address, resourceType := type, name, kind := "resource", file := "main.tf", line :=
    1, dependencies }

/-- A subnet that depends on a network, and on a role that is declared elsewhere. -/
def network : Diagram :=
  ⟨[declared "aws_vpc.main" "aws_vpc" "main" [],
    declared "aws_subnet.main-1" "aws_subnet" "main-1" ["aws_vpc.main", "aws_iam_role.main"]]⟩

/-- The chart of a network shows it. -/
theorem toMermaid_shows_network : Shows network.toMermaid network := by
  have haddressed : network.Addressed := by
    simp only [Addressed, network, declared, List.forall_mem_cons]
    exact ⟨isAddress_of_all (by decide), isAddress_of_all (by decide), nofun⟩
  have hdeclared : ∀ a ∈ network.resources.map Resource.address,
      ∀ b ∈ network.resources.map Resource.address,
      Alike a b → a = b := by decide
  have hmentioned : ∀ r ∈ network.resources, ∀ dep ∈ r.dependencies,
      ∀ b ∈ network.resources.map Resource.address, Alike dep b → b ∈ r.dependencies := by decide
  exact (toMermaid_shows haddressed (by decide)).2.2 ⟨fun a b ha hb => hdeclared a ha b hb,
    hmentioned⟩

/-- Two networks whose names differ in a hyphen. -/
def twins : Diagram :=
  ⟨[declared "aws_vpc.a-b" "aws_vpc" "a-b" [],
    declared "aws_vpc.a_b" "aws_vpc" "a_b" ["aws_vpc.a-b"]]⟩

/-- The two networks are one node, with an arrow to itself. -/
theorem toMermaid_twins : twins.Addressed ∧ (twins.resources.map Resource.address).Nodup ∧
    ¬ Shows twins.toMermaid twins := by
  have haddressed : twins.Addressed := by
    simp only [Addressed, twins, declared, List.forall_mem_cons]
    exact ⟨isAddress_of_all (by decide), isAddress_of_all (by decide), nofun⟩
  refine ⟨haddressed, by decide, fun hshows => ?_⟩
  have hinj := (nodup_nodes_iff haddressed (by decide)).1 hshows.nodup
  exact absurd (hinj "aws_vpc.a-b" "aws_vpc.a_b" (by decide) (by decide) (by decide)) (by decide)

end CodeAtlas.Infra.Diagram
