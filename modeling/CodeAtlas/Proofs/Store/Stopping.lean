import CodeAtlas.Proofs.Files.Sparing
import CodeAtlas.Proofs.Store.RoundTrip

/-!
# A save that stops

A save makes the folder, writes and renames the file of the graph, and then writes and renames that
of the registry. Each of these steps may fail, and may have done a part of its work then. What a
store loads afterwards is never a part of a file, and never a new registry. But it is the new graph
with the old registry if the step that failed comes after the renaming of the file of the graph.
-/

namespace CodeAtlas.Store

open CodeAtlas.Tree (Makes Spares)

variable {s s' : Store} {t t' : Tree} {l : Location} {front : List String}
  {name : String} {j : Json}
  {steps steps' done : List FileStep}

/-! ## Steps that fail -/

/-- What a step that fails leaves: the tree as it was, some of the folders, or a file with any
bytes. -/
inductive FileStep.Fails (t : Tree) : FileStep → Tree → Prop
  | untouched (step : FileStep) : Fails t step t
  | folders {l : Location} {t' : Tree} (h : Makes (l :: l.above) t t') : Fails t (.makeFolders l) t'
  | part {l : Location} {path : Path} (h : t.locateFile l = .ok path) (bytes part : List UInt8) :
      Fails t (.write l bytes) (t.put path part)

/-- The steps stop at a tree: those that are done did not fail, and the next one did. -/
inductive Stops : Tree → List FileStep → List FileStep → Tree → Prop
  | here {t t' : Tree} {step : FileStep} {steps : List FileStep} (h : step.Fails t t') :
      Stops t (step :: steps) [] t'
  | later {t t₁ t' : Tree} {step : FileStep} {steps done : List FileStep}
      (hrun : step.run t = (t₁, none)) (h : Stops t₁ steps done t') :
      Stops t (step :: steps) (step :: done) t'

/-- A step that makes folders makes some, whether it fails or not. -/
theorem makes_of_run {e : Option FileError} (h : (FileStep.makeFolders l).run t = (t', e)) :
    Makes (l :: l.above) t t' := by
  have hmakes := Makes.makeFolders t l
  rw [show t.makeFolders l = (t', e) from h] at hmakes
  exact hmakes

/-- Making folders that fails part-way has made some of them. -/
theorem makes_of_fails (h : (FileStep.makeFolders l).Fails t t') : Makes (l :: l.above) t t' := by
  cases h with
  | untouched => exact .refl t
  | folders h => exact h

/-- A step that reports an error fails. -/
theorem fails_of_run {step : FileStep} {e : FileError} (h : step.run t = (t', some e)) :
    step.Fails t t' := by
  have huntouched : ∀ {r : Except FileError Tree}, changed t r = (t', some e) → t' = t := by
    intro r h
    cases r with
    | ok t₁ => cases h
    | error e => exact (congrArg Prod.fst h).symm
  cases step with
  | makeFolders l => exact .folders (makes_of_run h)
  | write l bytes =>
      rw [huntouched h]
      exact .untouched _
  | rename source target =>
      rw [huntouched h]
      exact .untouched _

/-- Steps of which one fails stop at the tree behind it. -/
theorem exists_stops_of_runSteps {fault : Fault} (h : runSteps t steps = (t', some fault)) :
    ∃ done, Stops t steps done t' := by
  induction steps generalizing t with
  | nil => cases h
  | cons step steps ih =>
      rw [runSteps] at h
      split at h
      · next t₁ hrun =>
        obtain ⟨done, hstops⟩ := ih h
        exact ⟨step :: done, .later hrun hstops⟩
      · next t₁ e hrun =>
        obtain rfl : t₁ = t' := congrArg Prod.fst h
        exact ⟨[], .here (fails_of_run hrun)⟩

/-- A list of steps stops at the first one that fails. -/
theorem stops_of_runSteps {t₁ : Tree} {step : FileStep} (h : runSteps t done = (t₁, none))
    (hfails : step.Fails t₁ t') : Stops t (done ++ step :: steps) done t' := by
  induction done generalizing t with
  | nil =>
      cases h
      exact .here hfails
  | cons first done ih =>
      obtain ⟨t₂, hrun, h⟩ := exists_of_runSteps_cons h
      exact .later hrun (ih h)

/-- Two lists of steps stop in the first one, or behind it in the second. -/
theorem Stops.cases_append (h : Stops t (steps ++ steps') done t') :
    Stops t steps done t' ∨
      ∃ t₁ done', done = steps ++ done' ∧ runSteps t steps = (t₁, none)
        ∧ Stops t₁ steps' done' t' := by
  induction steps generalizing t done with
  | nil => exact .inr ⟨t, done, rfl, rfl, h⟩
  | cons step steps ih =>
      cases h with
      | here h => exact .inl (.here h)
      | later hrun h =>
          refine (ih h).imp (.later hrun) ?_
          rintro ⟨t₁, done', rfl, hsteps, hstops⟩
          refine ⟨t₁, done', rfl, ?_, hstops⟩
          rw [runSteps, hrun]
          exact hsteps

/-! ## Files that are written -/

/-- What is written leads to its path and spares everything else. -/
theorem spares_of_write {bytes : List UInt8} (hl : l.names = front ++ [name]) (hname : name ≠ "")
    (h : t.write l bytes = .ok t') : ∃ folder : Path, t'.locate l = .ok (folder ++ [name]) ∧
      t'.isFolder (folder ++ [name]) = false ∧ Spares t t' [name] := by
  rw [Tree.write] at h
  obtain ⟨p, hp, h⟩ := exists_of_bind h
  cases h
  have hspares := Spares.put hl hname hp bytes
  obtain ⟨folder, hfits, rfl⟩ := Tree.fits_of_locateFile hl hname hp
  have hfile : (t.put (folder ++ [name]) bytes).isFile (folder ++ [name]) = true := by
    rw [Tree.isFile, Tree.bytes?_put, if_pos rfl, Option.isSome_some]
  exact ⟨folder, hfits.locate_of_grows (Tree.Grows.put bytes hfits.free) hfile,
    (hspares.isFolder _).trans hfits.free, hspares⟩

/-- Writing a file spares all files with other names. -/
theorem spares_of_writeSteps (hl : l.names = front ++ [name]) (hname : name ≠ "")
    (h : runSteps t (writeSteps l j) = (t', none)) :
    Spares t t' [name ++ mark, name ++ mark, name] := by
  obtain ⟨t₁, hwrite, h⟩ := exists_of_runSteps_cons h
  obtain ⟨t₂, hrename, h⟩ := exists_of_runSteps_cons h
  cases h
  obtain ⟨folder, hlocate, hfree, hspares⟩ :=
    spares_of_write (names_temporary hl) (append_mark_ne hname) (eq_ok_of_changed hwrite)
  exact hspares.trans (Spares.rename hl hname hlocate hfree (eq_ok_of_changed hrename))

/-- A file that is not written to its end was not renamed, and only the marked one is another. -/
theorem spares_of_stops_writeSteps (hl : l.names = front ++ [name]) (hname : name ≠ "")
    (h : Stops t (writeSteps l j) done t') :
    Spares t t' [name ++ mark] ∧ .rename (temporary l) l ∉ done := by
  have hmarked : (temporary l).names = front ++ [name ++ mark] := names_temporary hl
  cases h with
  | here h =>
      refine ⟨?_, List.not_mem_nil⟩
      cases h with
      | untouched => exact .refl t _
      | part h bytes part => exact .put hmarked (append_mark_ne hname) h part
  | later hrun h =>
      obtain ⟨folder, -, -, hspares⟩ :=
        spares_of_write hmarked (append_mark_ne hname) (eq_ok_of_changed hrun)
      cases h with
      | here h =>
          cases h
          exact ⟨hspares, by simp⟩
      | later hrun h => cases h

/-! ## Stores -/

/-- The step that puts a new graph in the place of the old one. -/
def graphRenamed (s : Store) : FileStep := .rename (temporary s.graphFile) s.graphFile

/-- The graph is loaded from its file only. -/
theorem graph_load_congr (h : (t'.read s.graphFile).toOption = (t.read s.graphFile).toOption) :
    (s.load t').graph = (s.load t).graph := by
  show (readFile? Graph.shape Graph.ofJson? t' s.graphFile).getD {} = _
  rw [readFile?, h]
  rfl

/-- The registry is loaded from its file only. -/
theorem documents_load_congr
    (h : (t'.read s.registryFile).toOption = (t.read s.registryFile).toOption) :
    (s.load t').documents = (s.load t).documents := by
  show (readFile? registryShape registryOfJson? t' s.registryFile).getD [] = _
  rw [readFile?, h]
  rfl

/-- A save that stops leaves the registry as it was, and the graph unless its file was renamed. -/
theorem read_of_stops (hdir : (∃ p, t.locate s.dir = .ok p) ∨ ".." ∉ s.dir.names)
    (h : Stops t s.saveSteps done t') :
    (t'.read s.registryFile).toOption = (t.read s.registryFile).toOption ∧
    (s.graphRenamed ∉ done → (t'.read s.graphFile).toOption = (t.read s.graphFile).toOption) ∧
    (s.graphRenamed ∈ done → t'.Holds s.graphFile graphName (fileBytes s.graph.toJson)) := by
  obtain ⟨front, hgraph, hfront⟩ := Tree.exists_front_of_join graphName (by decide) hdir
  obtain ⟨front', hregistry, hfront'⟩ := Tree.exists_front_of_join registryName (by decide) hdir
  -- making folders changes neither file
  have hmade : ∀ {t₁}, Makes (s.dir :: s.dir.above) t t₁ →
      (t₁.read s.graphFile).toOption = (t.read s.graphFile).toOption ∧
        (t₁.read s.registryFile).toOption = (t.read s.registryFile).toOption :=
    fun hmakes => ⟨hmakes.toOption_read hgraph (by decide) hfront,
      hmakes.toOption_read hregistry (by decide) hfront'⟩
  cases h with
  | here h =>
      have hreads := hmade (makes_of_fails h)
      exact ⟨hreads.2, fun _ => hreads.1, fun hmem => absurd hmem List.not_mem_nil⟩
  | later hrun h =>
      have hreads := hmade (makes_of_run hrun)
      rcases h.cases_append with h | ⟨t₂, done, rfl, hsteps, h⟩
      · -- the file of the graph is as it was
        obtain ⟨hspares, hleft⟩ := spares_of_stops_writeSteps hgraph (by decide) h
        have hregistry := hspares.toOption_read hregistry (by decide) (by decide)
        have hgraph := hspares.toOption_read hgraph (by decide) (by decide)
        refine ⟨hregistry.trans hreads.2, fun _ => hgraph.trans hreads.1, fun hmem => ?_⟩
        exact absurd ((List.mem_cons.1 hmem).resolve_left nofun) hleft
      · -- the file of the graph is the new one
        have hspares := spares_of_writeSteps hgraph (by decide) hsteps
        have hspares' := (spares_of_stops_writeSteps hregistry (by decide) h).1
        have hholds := (holds_of_writeSteps hgraph (by decide) hsteps).1
        have hold := hspares.toOption_read hregistry (by decide) (by decide)
        have hold' := hspares'.toOption_read hregistry (by decide) (by decide)
        have hrenamed : s.graphRenamed ∈ writeSteps s.graphFile s.graph.toJson :=
          List.mem_cons_of_mem _ List.mem_cons_self
        refine ⟨(hold'.trans hold).trans hreads.2, fun hmem => ?_, fun _ => ?_⟩
        · exact absurd (List.mem_cons_of_mem _ (List.mem_append_left _ hrenamed)) hmem
        · exact hholds.of_touches hspares'.touches (by decide)

/-- A save that fails stops at one of its steps. Wherever a save stops, and whatever the step that
failed had done, every store with the same folder loads the registry that was there. It loads the
graph that was there, too, if the file of the graph was not yet renamed; else the file holds the
whole document of the new graph, and a store loads it as after a save that did not fail. The
location of the folder leads somewhere before the save, or it does not go back. -/
theorem load_of_stops (hdir : (∃ p, t.locate s.dir = .ok p) ∨ ".." ∉ s.dir.names)
    (hs : s'.dir = s.dir) :
    (∀ fault, s.save t = (t', some fault) → ∃ done, Stops t s.saveSteps done t') ∧
    ∀ done, Stops t s.saveSteps done t' →
      (s'.load t').documents = (s'.load t).documents ∧
      (s.graphRenamed ∉ done → (s'.load t').graph = (s'.load t).graph) ∧
      (s.graphRenamed ∈ done →
        t'.read s.graphFile = .ok (fileBytes s.graph.toJson) ∧
        (s.Built → s.graph.Integral → (s'.load t').graph =
          if s.graph.toJson.nesting ≤ Json.maxNesting then s.graph else Graph.empty)) := by
  have hgraphFile : s'.graphFile = s.graphFile := by rw [graphFile, graphFile, hs]
  have hregistryFile : s'.registryFile = s.registryFile := by rw [registryFile, registryFile, hs]
  refine ⟨fun fault => exists_stops_of_runSteps, fun done h => ?_⟩
  obtain ⟨hdocuments, hold, hnew⟩ := read_of_stops hdir h
  refine ⟨documents_load_congr (hregistryFile ▸ hdocuments), fun hmem => ?_, fun hmem => ?_⟩
  · exact graph_load_congr (hgraphFile ▸ hold hmem)
  · exact ⟨(hnew hmem).read,
      fun hbuilt hintegral => graph_load_of_read hbuilt.kept.1 hintegral (hnew hmem).read hs⟩

/-- A store with a person and a document. -/
def staffed (dir : Location) : Store :=
  let person := Graph.Entity.new ⟨0, 0⟩ "person:a" "a" (.person {})
  ({ Store.new dir "1" with graph := .ofLists [person] [] }.register ⟨0, 0⟩ "a.md" "1" []).2

/-- A folder in the place in which the registry of `docs` is written first. -/
def blocked : Tree := { files := [(["docs", "document_registry.json.tmp", "x"], [])] }

/-- A save is blocked by a folder in the place of the temporary registry. -/
theorem save_blocked :
    ((staffed "docs").save blocked).2 = some ⟨"docs/document_registry.json.tmp", .isFolder⟩ := by
  decide +kernel

/-- The graph with one person is built by operations. -/
theorem built_staffed (dir : Location) : (staffed dir).Built := by
  have hperson : (Graph.Entity.new ⟨0, 0⟩ "person:a" "a" (.person {})).Tidy :=
    Graph.Entity.tidy_new Graph.Entity.valid_zero _ _ rfl trivial
  have hgraph : (Graph.ofLists [.new ⟨0, 0⟩ "person:a" "a" (.person {})] []).Built :=
    .ofLists (List.forall_mem_singleton.2 hperson) (List.forall_mem_nil _)
  exact .register (.change (.new dir "1") hgraph) Graph.Entity.valid_zero _ _ _

/-- The graph with one person is free of fractions. -/
theorem integral_staffed (dir : Location) : (staffed dir).graph.Integral := by
  have hnotes : (Graph.Entity.new ⟨0, 0⟩ "person:a" "a" (.person {})).freeForm = [] := rfl
  exact Graph.integral_ofLists (by simp [hnotes]) (List.forall_mem_nil _)

/-- The graph with one person is nested no deeper than documents are read. -/
theorem nesting_staffed (dir : Location) :
    (staffed dir).graph.toJson.nesting ≤ Json.maxNesting := by
  have hgraph : (staffed dir).graph = (staffed "").graph := rfl
  rw [hgraph]
  decide +kernel

/-- The graph of a store with a person is loaded from its file. -/
theorem graph_load_staffed {dir : Location}
    (hread : t.read (staffed dir).graphFile = .ok (fileBytes (staffed dir).graph.toJson)) :
    ((staffed dir).load t).graph = (staffed dir).graph := by
  rw [graph_load_of_read (built_staffed dir).kept.1 (integral_staffed dir) hread rfl]
  exact if_pos (nesting_staffed dir)

/-- A save that stops with the first letter of the new graph, one that fails at the registry, and
one that stops in front of the registry. -/
theorem load_of_stops_staffed :
    let s := staffed "docs"
    let cut := (({} : Tree).makeFolders "docs").1.put ["docs", "knowledge_graph.json.tmp"] [123]
    let renamed := (runSteps {} (s.saveSteps.take 3)).1
    let fresh := Store.new "docs" "2"
    (fresh.load cut).graph = (fresh.load {}).graph ∧
      ((s.save blocked).2.isSome ∧
        (fresh.load (s.save blocked).1).documents = (fresh.load blocked).documents) ∧
      (fresh.load renamed).graph = s.graph := by
  intro s cut renamed fresh
  have hdir : ∀ t : Tree, (∃ p, t.locate s.dir = .ok p) ∨ ".." ∉ s.dir.names :=
    fun _ => .inr (by decide)
  have hfresh : fresh.dir = s.dir := rfl
  have hcut : Stops {} s.saveSteps [.makeFolders "docs"] cut :=
    .later (Prod.ext rfl (by decide +kernel)) (.here (.part (by decide +kernel) _ _))
  have hrenamed : Stops {} s.saveSteps (s.saveSteps.take 3) renamed := by
    have hrun : runSteps {} (s.saveSteps.take 3) = (renamed, none) :=
      Prod.ext rfl (by decide +kernel)
    exact stops_of_runSteps hrun (.untouched _)
  have hsave : s.save blocked = ((s.save blocked).1, some _) := Prod.ext rfl save_blocked
  obtain ⟨done, hblocked⟩ := (load_of_stops (hdir blocked) hfresh).1 _ hsave
  refine ⟨?_, ⟨?_, ((load_of_stops (hdir blocked) hfresh).2 done hblocked).1⟩, ?_⟩
  · exact ((load_of_stops (hdir {}) hfresh).2 _ hcut).2.1 (by simp [graphRenamed])
  · rw [save_blocked, Option.isSome_some]
  · have hmem : s.graphRenamed ∈ s.saveSteps.take 3 := .tail _ (.tail _ (.head _))
    obtain ⟨-, hloaded⟩ := ((load_of_stops (hdir {}) hfresh).2 _ hrenamed).2.2 hmem
    rw [hloaded (built_staffed _) (integral_staffed _), if_pos (nesting_staffed _)]

/-- A folder in the place in which a graph is written first, behind the file of another. -/
def taken (bytes : List UInt8) : Tree where
  files := [(["st", "knowledge_graph.json"], bytes), (["st", "knowledge_graph.json.tmp", "x"], [])]

/-- After a save that fails at the registry, the new graph is loaded with the old registry. After a
save that fails behind a folder that was missing, a graph may be loaded that was not before. -/
theorem load_of_failed_save :
    let s := staffed "docs"
    let s' := staffed "miss/../st"
    let t := taken (fileBytes s'.graph.toJson)
    ((s.save blocked).2 = some ⟨"docs/document_registry.json.tmp", .isFolder⟩ ∧
      (s.load blocked).graph.entities = [] ∧ s.graph.entities ≠ [] ∧
      (s.load (s.save blocked).1).graph = s.graph ∧
      s.documents ≠ [] ∧ (s.load (s.save blocked).1).documents = []) ∧
    (s'.save t).2 = some ⟨"miss/../st/knowledge_graph.json.tmp", .isFolder⟩ ∧
      (s'.load t).graph.entities = [] ∧ s'.graph.entities ≠ [] ∧
      (s'.load (s'.save t).1).graph = s'.graph := by
  intro s s' t
  have hentities : ∀ dir, (staffed dir).graph.entities ≠ [] := by
    intro dir
    have hcount : (staffed "").graph.entities.length = 1 := by decide +kernel
    exact List.ne_nil_of_length_pos (hcount ▸ Nat.one_pos)
  refine ⟨⟨save_blocked, List.length_eq_zero_iff.1 (by decide +kernel), hentities _, ?_,
    by decide +kernel, by decide +kernel⟩, ?_⟩
  · exact graph_load_staffed (by decide +kernel)
  · exact ⟨by decide +kernel, List.length_eq_zero_iff.1 (by decide +kernel), hentities _,
      graph_load_staffed (by decide +kernel)⟩

end CodeAtlas.Store
