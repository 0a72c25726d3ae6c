import CodeAtlas.Proofs.Graph.Tidy
import CodeAtlas.Proofs.Json.Drafting
import CodeAtlas.Proofs.Store.Regeneration

/-!
# Saving and loading a store

A store that was saved is loaded with its graph and its registry by every store with the same
folder, if its graph is not nested deeper than the reader of the file goes. A graph that is nested
deeper is saved as well, but the file cannot be read, and the store is loaded without a graph.
-/

namespace CodeAtlas

open Json CodeAtlas.Graph

/-! ## What counts of a graph -/

/-- A record whose members have the names of a shape is covered by it. -/
theorem Json.Shape.covers_recordOf {names : List String} {members : List (String × Json)}
    (h : ∀ m ∈ members, m.1 ∈ names) : Covers (.recordOf names) (.obj members) := by
  refine .record (fun _ => .whole) (fun m hm => ?_) fun m _ => .whole m.2
  have hlookup : ∀ {names : List String}, m.1 ∈ names →
      (names.map (·, Shape.whole)).lookup m.1 = some .whole := by
    intro names hmem
    induction names with
    | nil => cases hmem
    | cons name names ih =>
        rw [List.map_cons, lookup_cons_eq]
        split
        · rfl
        · next hne => exact ih ((List.mem_cons.1 hmem).resolve_left hne)
  exact hlookup (h m hm)

/-- All of the document of a graph counts. -/
theorem Graph.covers_toJson (g : Graph) : Shape.Covers Graph.shape g.toJson := by
  have hentities : Shape.Covers (.list .whole) (.arr (g.entities.map Entity.toJson)) :=
    .list fun j _ => .whole j
  have hrelations : Shape.Covers (.list (.recordOf Relation.fieldNames))
      (.arr (g.relations.map Relation.toJson)) := by
    refine .list (List.forall_mem_map.2 fun r _ => Shape.covers_recordOf ?_)
    simp [Relation.fieldNames]
  refine .record (fun key =>
    if key = "entities" then .list .whole else .list (.recordOf Relation.fieldNames)) ?_ ?_
  · simp [lookup_cons_eq]
  · exact List.forall_mem_cons.2 ⟨hentities, List.forall_mem_singleton.2 hrelations⟩

namespace Store

variable {s s' : Store} {t t' : Tree}

/-! ## Stores that were built -/

/-- What becomes of a new store when its graph is exchanged for one that was built, documents are
registered and removed, and it is loaded. -/
inductive Built : Store → Prop
  | new (dir : Location) (version : String) : Built (Store.new dir version)
  | change {s : Store} (h : Built s) {graph : Graph} (hgraph : graph.Built) : Built { s with graph }
  | register {s : Store} (h : Built s) {now : Instant} (hnow : now.Valid) (path hash : String)
      (ids : List String) : Built (s.register now path hash ids).2
  | remove {s : Store} (h : Built s) (path : String) : Built (s.removeDocument path)
  | load {s : Store} (h : Built s) (t : Tree) : Built (s.load t)

/-- The graph of a loaded store was built, whatever the files hold. -/
theorem built_graph_load (s : Store) (t : Tree) : (s.load t).graph.Built := by
  show ((readFile? Graph.shape Graph.ofJson? t s.graphFile).getD {}).Built
  cases h : readFile? Graph.shape Graph.ofJson? t s.graphFile with
  | none => exact .empty
  | some g =>
      obtain ⟨bytes, -, h⟩ := Option.bind_eq_some_iff.1 h
      obtain ⟨j, -, h⟩ := Option.bind_eq_some_iff.1 h
      exact built_of_ofJson? h

/-- The graph of a store that was built was built, and its registry is tidy. -/
theorem Built.kept (h : s.Built) : s.graph.Built ∧ s.documents.Tidy := by
  induction h with
  | new dir version => exact ⟨.empty, tidy_new dir version⟩
  | change h hgraph ih => exact ⟨hgraph, ih.2⟩
  | register h hnow path hash ids ih => exact ⟨ih.1, tidy_register ih.2 hnow path hash ids⟩
  | remove h path ih => exact ⟨ih.1, tidy_removeDocument ih.2 path⟩
  | load h t => exact ⟨built_graph_load _ t, tidy_load _ t⟩

/-! ## The round trip -/

/-- A document is not read back from its bytes if all of it counts and it is nested too deep. -/
theorem read?_fileBytes_deep {j : Json} (hplain : Plain j) (hdeep : maxNesting < j.nesting)
    {shape : Shape} (hshape : Shape.Covers shape j) :
    shape.read? (Text.decodeEach (fileBytes j)) = none := by
  rw [fileBytes, Text.decodeEach_encode, Shape.read?_eq_none hshape hplain hdeep]

/-- The graph in its file is loaded unless it is nested too deep. -/
theorem graph_load_of_read (h : s.graph.Built) (hintegral : s.graph.Integral)
    (hread : t.read s.graphFile = .ok (fileBytes s.graph.toJson)) (hdir : s'.dir = s.dir) :
    (s'.load t).graph = if s.graph.toJson.nesting ≤ maxNesting then s.graph else Graph.empty := by
  have hfile : s'.graphFile = s.graphFile := by rw [graphFile, graphFile, hdir]
  have hplain := hintegral.plain_toJson
  show (readFile? Graph.shape Graph.ofJson? t s'.graphFile).getD {} = _
  rw [hfile, readFile?_of_read hread]
  split
  · next hdepth =>
    rw [read?_fileBytes hplain hdepth, Option.bind_some, h.ofJson?_toJson]
    rfl
  · next hdepth =>
    rw [read?_fileBytes_deep hplain (Nat.not_le.1 hdepth) s.graph.covers_toJson, Option.bind_none]
    rfl

/-- The graph that was saved is loaded unless it is nested too deep. -/
theorem graph_load_of_save (h : s.graph.Built) (hintegral : s.graph.Integral)
    (hsave : s.save t = (t', none)) (hdir : s'.dir = s.dir) :
    (s'.load t').graph = if s.graph.toJson.nesting ≤ maxNesting then s.graph else Graph.empty :=
  graph_load_of_read h hintegral (holds_of_save hsave).1.read hdir

/-- A store that was built and saved is loaded with the same registry and, unless it is nested too
deep, the same graph by every store with the same folder. Every tidy entity and every graph that was
built is read back from its document, and the graph is also made of its own lists again. A graph
made of any lists has, for every id, the last entity with it and, for every key, the last relation
with it if both of its ends are there; it is made of its own lists again. -/
theorem load_of_save (hs : s.Built) (hintegral : s.graph.Integral)
    (hsave : s.save t = (t', none)) (hdir : s'.dir = s.dir) :
    ((s'.load t').graph = if s.graph.toJson.nesting ≤ maxNesting then s.graph else Graph.empty)
    ∧ (s'.load t').documents = s.documents
    ∧ (∀ e : Entity, e.Tidy → Entity.ofJson? e.toJson = some e)
    ∧ (∀ g : Graph, g.Built → Graph.ofJson? g.toJson = some g ∧ ofLists g.entities g.relations = g)
    ∧ ∀ (es : List Entity) (rs : List Relation),
      (∀ id, (ofLists es rs).get? id = es.reverse.find? fun e => e.id = id)
      ∧ (∀ k, Keyed.find? Relation.key k (ofLists es rs).relations
          = if bothIn es k then Keyed.find? Relation.key k rs.reverse else none)
      ∧ ofLists (ofLists es rs).entities (ofLists es rs).relations = ofLists es rs := by
  obtain ⟨hgraph, hdocuments⟩ := hs.kept
  refine ⟨graph_load_of_save hgraph hintegral hsave hdir,
    documents_load_of_save hdocuments hsave hdir, fun e => Entity.ofJson?_toJson,
    fun g hg => ⟨hg.ofJson?_toJson, hg.kept.1.ofLists_lists⟩, fun es rs => ?_⟩
  exact ⟨get?_ofLists es rs, find?_relations_ofLists es rs, (coherent_ofLists es rs).ofLists_lists⟩

/-- A person and a service that it owns, both with notes, and a document. -/
theorem load_of_save_owner :
    let person := (Entity.new ⟨0, 0⟩ "person:a" "a" (.person {})).note "k" (.arr [.nat 1, .null])
    let service := Entity.new ⟨9, 0⟩ "service:s" "s" (.service {})
    let owns : Relation :=
      { source := "person:a", target := "service:s", type := .owns, metadata := [("k", .nat 3)] }
    let graph := ofLists [person, service] [owns]
    let s := ({ Store.new "docs" "1" with graph }.register ⟨9, 0⟩ "a.md" "h" ["person:a"]).2
    let loaded := (Store.new "docs" "2").load (s.save {}).1
    loaded.graph = s.graph ∧ s.graph.relations.length = 1 ∧ loaded.documents = s.documents := by
  intro person service owns graph s loaded
  have hzero : Instant.Valid ⟨0, 0⟩ := Entity.valid_zero
  have hnine : Instant.Valid ⟨9, 0⟩ := ⟨by decide, by decide, by decide⟩
  have hnote : Sorted (.arr [.nat 1, .null]) := .arr (by simp [Sorted.null, Sorted.num, Json.nat])
  have hperson : person.Tidy :=
    (Entity.tidy_new (d := .person {}) hzero _ _ rfl trivial).note "k" hnote
  have hservice : service.Tidy := Entity.tidy_new (d := .service {}) hnine _ _ rfl trivial
  have howns : owns.Tidy := ⟨List.pairwise_singleton _ _, List.forall_mem_singleton.2 (.num _)⟩
  have hgraph : graph.Built := .ofLists (by simp [hperson, hservice]) (by simp [howns])
  have hs : s.Built := .register (.change (.new "docs" "1") hgraph) hnine _ _ _
  have hone : Plain (.nat 1) := .int ⟨by decide, by decide⟩
  have hthree : Plain (.nat 3) := .int ⟨by decide, by decide⟩
  have hplain : Plain (.arr [.nat 1, .null]) := .arr (by simp [hone, Plain.null])
  have hintegral : s.graph.Integral := by
    have hnotes : person.freeForm = [.arr [.nat 1, .null]] := rfl
    have hnotes' : service.freeForm = [] := rfl
    refine integral_ofLists ?_ ?_
    · simp [hnotes, hnotes', hplain]
    · simp [owns, hthree]
  have hdepth : s.graph.toJson.nesting ≤ maxNesting := by decide +kernel
  have hsaved : (s.save {}).2 = none := by decide +kernel
  have hdir : (Store.new "docs" "2").dir = s.dir := rfl
  obtain ⟨hloaded, hdocuments, -⟩ := load_of_save hs hintegral (Prod.ext rfl hsaved) hdir
  rw [if_pos hdepth] at hloaded
  exact ⟨hloaded, by decide +kernel, hdocuments⟩

/-- A list in a list, and so on: there are `n` lists around one. -/
def nested : Nat → Json
  | 0 => .arr []
  | n + 1 => .arr [nested n]

/-- Nested lists are sorted. -/
theorem sorted_nested (n : Nat) : Sorted (nested n) := by
  induction n with
  | zero => exact .arr (List.forall_mem_nil _)
  | succ n ih => exact .arr (List.forall_mem_singleton.2 ih)

/-- Nested lists hold no number. -/
theorem plain_nested (n : Nat) : Plain (nested n) := by
  induction n with
  | zero => exact .arr (List.forall_mem_nil _)
  | succ n ih => exact .arr (List.forall_mem_singleton.2 ih)

/-- A note that is nested 124 times is too deep for the file of the graph. -/
theorem load_of_save_deep :
    let person := (Entity.new ⟨0, 0⟩ "person:a" "a" (.person {})).note "k" (nested 123)
    let graph := ofLists [person] []
    let s := { Store.new "docs" "1" with graph }
    let loaded := (Store.new "docs" "1").load (s.save {}).1
    Entity.ofJson? person.toJson = some person ∧ s.Built ∧ s.graph.Integral ∧
      (s.save {}).2 = none ∧ s.graph.entities ≠ [] ∧ loaded.graph.entities = [] := by
  intro person graph s loaded
  have hperson : person.Tidy :=
    (Entity.tidy_new (d := .person {}) Entity.valid_zero _ _ rfl trivial).note "k"
      (sorted_nested 123)
  have hs : s.Built := .change (.new "docs" "1")
    (.ofLists (by simp [hperson]) (List.forall_mem_nil _))
  have hintegral : s.graph.Integral := by
    have hnotes : person.freeForm = [nested 123] := rfl
    exact integral_ofLists (by simp [hnotes, plain_nested]) (List.forall_mem_nil _)
  have hdeep : ¬ s.graph.toJson.nesting ≤ maxNesting := by decide +kernel
  have hsaved : (s.save {}).2 = none := by decide +kernel
  have hcount : s.graph.entities.length = 1 := by decide +kernel
  have hloaded := graph_load_of_save hs.kept.1 hintegral (Prod.ext rfl hsaved)
    (show (Store.new "docs" "1").dir = s.dir from rfl)
  rw [if_neg hdeep] at hloaded
  refine ⟨Entity.ofJson?_toJson hperson, hs, hintegral, hsaved, ?_, ?_⟩
  · exact List.ne_nil_of_length_pos (hcount ▸ Nat.one_pos)
  · exact congrArg Graph.entities hloaded

end Store

end CodeAtlas
