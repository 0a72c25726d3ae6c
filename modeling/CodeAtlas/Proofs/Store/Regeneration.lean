import CodeAtlas.Proofs.Files.Writing
import CodeAtlas.Proofs.Graph.Fingerprint
import CodeAtlas.Proofs.Graph.Reading
import CodeAtlas.Proofs.Json.Fields
import CodeAtlas.Proofs.Json.Printing
import CodeAtlas.Proofs.Text.Utf8
import CodeAtlas.Store.Basic

/-!
# When a document is generated anew

A document is written under the name of its file with a mark at its end, and then renamed. If no
step of that fails, the location of the file leads to the document, whatever the tree was before. So
both files of a store hold their documents when the store was saved.

A document is registered with the fingerprint of the entities that it was generated from. Whatever
happens to other documents and to the files of the store, it is found up to date for the same
entities, in any order and at any times, and found stale for all others, unless two texts have one
short digest.
-/

namespace CodeAtlas

open Json CodeAtlas.Graph

namespace Store

open CodeAtlas.Tree (Holds Touches)

variable {t t' : Tree} {l : Location} {front : List String} {name : String} {j : Json}

/-! ## Steps -/

/-- Steps that succeed do so one by one. -/
theorem exists_of_runSteps_cons {s : FileStep} {steps : List FileStep}
    (h : runSteps t (s :: steps) = (t', none)) :
    ∃ t₁, s.run t = (t₁, none) ∧ runSteps t₁ steps = (t', none) := by
  rw [runSteps] at h
  split at h
  · next t₁ hs => exact ⟨t₁, hs, h⟩
  · cases h

/-- Two lists of steps that succeed do so one behind the other. -/
theorem exists_of_runSteps_append {steps steps' : List FileStep}
    (h : runSteps t (steps ++ steps') = (t', none)) :
    ∃ t₁, runSteps t steps = (t₁, none) ∧ runSteps t₁ steps' = (t', none) := by
  induction steps generalizing t with
  | nil => exact ⟨t, rfl, h⟩
  | cons s steps ih =>
      obtain ⟨t₁, hs, h⟩ := exists_of_runSteps_cons h
      obtain ⟨t₂, hsteps, h⟩ := ih h
      refine ⟨t₂, ?_, h⟩
      rw [runSteps, hs]
      exact hsteps

/-- A change without an error has succeeded. -/
theorem eq_ok_of_changed {r : Except FileError Tree} (h : changed t r = (t', none)) :
    r = .ok t' := by
  cases r with
  | error e => cases h
  | ok t₁ =>
      cases h
      rfl

/-- The bytes of the file of a document. -/
def fileBytes (j : Json) : List UInt8 := Text.encode (Json.writePretty 0 j)

/-- What the name of a file has at its end while it is written. -/
def mark : String := ".tmp"

/-- The temporary file of a location has a marked name in the same folder. -/
theorem names_temporary (hl : l.names = front ++ [name]) :
    (temporary l).names = front ++ [name ++ mark] := by
  obtain ⟨front', last, hlast, happend⟩ := Location.names_append l (s := mark) (by decide)
  obtain ⟨rfl, hname⟩ := List.append_inj' (hl.symm.trans hlast) rfl
  obtain rfl := List.singleton_inj.1 hname
  exact happend

/-- A marked name is not empty. -/
theorem append_mark_ne (hname : name ≠ "") : name ++ mark ≠ "" :=
  fun h => hname (String.append_eq_empty_iff.1 h).1

/-- What is written by way of a temporary file is held, and nothing else but both names is
touched. -/
theorem holds_of_writeSteps (hl : l.names = front ++ [name]) (hname : name ≠ "")
    (h : runSteps t (writeSteps l j) = (t', none)) :
    t'.Holds l name (fileBytes j) ∧ Touches t t' [name ++ mark, name ++ mark, name] := by
  obtain ⟨t₁, hwrite, h⟩ := exists_of_runSteps_cons h
  obtain ⟨t₂, hrename, h⟩ := exists_of_runSteps_cons h
  cases h
  obtain ⟨hsource, htouches⟩ :=
    Tree.holds_of_write (names_temporary hl) (append_mark_ne hname) (eq_ok_of_changed hwrite)
  obtain ⟨hholds, htouches'⟩ := Tree.holds_of_rename hsource hl hname (eq_ok_of_changed hrename)
  exact ⟨hholds, htouches.trans htouches'⟩

/-! ## Reading -/

/-- A document is read back from its bytes, if it is not nested too deep. -/
theorem read?_fileBytes (hplain : Json.Plain j) (hdepth : j.nesting ≤ Json.maxNesting)
    (shape : Json.Shape) : shape.read? (Text.decodeEach (fileBytes j)) = some j := by
  have hchars : ((Json.writePretty 0 j).map some).mapM id = some (Json.writePretty 0 j) := by
    have := Json.mapM_of_forall (f := id) (g := some) (l := Json.writePretty 0 j) fun _ _ => rfl
    exact this
  rw [fileBytes, Text.decodeEach_encode, Json.Shape.read?, hchars, Option.bind_eq_bind,
    Option.bind_some, Json.readChars?_writePretty hplain hdepth, Option.some_or]

/-- A file is read from its bytes. -/
theorem readFile?_of_read {α : Type} {bytes : List UInt8} (h : t.read l = .ok bytes)
    (shape : Json.Shape) (decode? : Json → Option α) :
    readFile? shape decode? t l = (shape.read? (Text.decodeEach bytes)).bind decode? := by
  rw [readFile?, h]
  rfl

/-- What cannot be read gives no document. -/
theorem readFile?_eq_none {α : Type} (h : ∀ bytes, t.read l ≠ .ok bytes) (shape : Json.Shape)
    (decode? : Json → Option α) : readFile? shape decode? t l = none := by
  rw [readFile?]
  cases hread : t.read l with
  | error e => rfl
  | ok bytes => exact absurd hread (h bytes)

/-- A document in a file is read as it was written, if it is not nested too deep. -/
theorem readFile?_of_holds {α : Type} (h : t.Holds l name (fileBytes j)) (hplain : Json.Plain j)
    (hdepth : j.nesting ≤ Json.maxNesting) (shape : Json.Shape) (decode? : Json → Option α) :
    readFile? shape decode? t l = decode? j := by
  rw [readFile?_of_read h.read, read?_fileBytes hplain hdepth, Option.bind_some]

/-! ## Stores -/

/-- The name of the file of the graph. -/
def graphName : String := "knowledge_graph.json"

/-- The name of the file of the registry. -/
def registryName : String := "document_registry.json"

/-- Both files of a store that was saved hold their documents. -/
theorem holds_of_save {s : Store} (h : s.save t = (t', none)) :
    t'.Holds s.graphFile graphName (fileBytes s.graph.toJson) ∧
      t'.Holds s.registryFile registryName (fileBytes (registryToJson s.documents)) := by
  obtain ⟨t₁, -, h⟩ := exists_of_runSteps_cons h
  obtain ⟨t₂, hgraph, hregistry⟩ := exists_of_runSteps_append h
  obtain ⟨front, hfront⟩ := Location.names_join s.dir graphName (by decide)
  obtain ⟨front', hfront'⟩ := Location.names_join s.dir registryName (by decide)
  obtain ⟨hgraph, -⟩ := holds_of_writeSteps hfront (by decide) hgraph
  obtain ⟨hregistry, htouches⟩ := holds_of_writeSteps hfront' (by decide) hregistry
  exact ⟨hgraph.of_touches htouches (by decide), hregistry⟩

end Store

/-! ## Registries

A registry is tidy if its paths ascend and its instants can be written. Whatever happens to a
registry keeps it tidy, and a tidy registry is read back from its document.
-/

/-- A registry as it is read: the paths ascend, and every instant can be written. -/
structure Registry.Tidy (r : Registry) : Prop where
  ascending : Ascending r
  times : ∀ m ∈ r, m.2.generatedAt.Valid

namespace DocumentRecord

/-- A record with a valid time is read back. -/
theorem reads_record {r : DocumentRecord} (h : r.generatedAt.Valid) :
    Reads DocumentRecord.ofJson? r.toJson r := by
  have hkeys : fieldNames.Nodup := by decide
  refine Json.reads_record hkeys fun members hshows => ?_
  have htime : field? instantOfJson? members "generated_at" = some r.generatedAt :=
    (hshows ("generated_at", instantToJson r.generatedAt) (by simp)).field? (reads_instant h)
  have hids : field? strings? members "entity_ids" = some r.entityIds :=
    (hshows ("entity_ids", .strings r.entityIds) (by simp)).field? (reads_strings r.entityIds)
  rw [strField?_of_shows hshows "path" r.path (by simp),
    strField?_of_shows hshows "source_hash" r.sourceHash (by simp), htime,
    strField?_of_shows hshows "agent_version" r.agentVersion (by simp), hids]
  rfl

/-- A record is a plain document. -/
theorem plain_toJson (r : DocumentRecord) : Plain r.toJson := by
  refine .obj ?_
  simp [Plain.str]

/-- A record is nested two levels at most. -/
theorem nesting_toJson_le (r : DocumentRecord) : r.toJson.nesting ≤ 2 := by
  have hids : (Json.strings r.entityIds).nesting ≤ 1 :=
    Nat.succ_le_succ (nestingItems_le (List.forall_mem_map.2 fun _ _ => Nat.le_refl 0))
  refine Nat.succ_le_succ (nestingMembers_le ?_)
  simp [nesting, instantToJson, hids]

/-- The instant of a record that was read can be written. -/
theorem valid_of_ofJson? {j : Json} {r : DocumentRecord} (h : DocumentRecord.ofJson? j = some r) :
    r.generatedAt.Valid := by
  simp only [DocumentRecord.ofJson?, Option.bind_eq_bind, Option.bind_eq_some_iff, Option.pure_def,
    Option.some.injEq] at h
  obtain ⟨_, -, _, -, _, -, time, htime, _, -, _, -, rfl⟩ := h
  obtain ⟨j, hj⟩ := exists_of_field? htime
  exact valid_of_instantOfJson? hj

end DocumentRecord

namespace Registry

open Store

theorem tidy_nil : Tidy [] := ⟨ascending_nil, nofun⟩

/-- Putting in a record with a valid time keeps a registry tidy. -/
theorem Tidy.insertMember {r : Registry} (h : r.Tidy) (path : String) {d : DocumentRecord}
    (hd : d.generatedAt.Valid) : Tidy (Json.insertMember path d r) where
  ascending := h.ascending.insertMember path d
  times := by
    intro m hm
    rcases mem_insertMember hm with rfl | hm
    · exact hd
    · exact h.times m hm

/-- Leaving records out keeps a registry tidy. -/
theorem Tidy.filter {r : Registry} (h : r.Tidy) (p : String × DocumentRecord → Bool) :
    Tidy (r.filter p) where
  ascending := h.ascending.sublist (List.filter_sublist.map Prod.fst)
  times := fun m hm => h.times m (List.mem_of_mem_filter hm)

/-- A registry that was read is tidy. -/
theorem tidy_of_registryOfJson? {j : Json} {r : Registry} (h : registryOfJson? j = some r) :
    r.Tidy := by
  obtain ⟨hascending, hread⟩ := exists_of_members? h
  refine ⟨hascending, fun m hm => ?_⟩
  obtain ⟨j, hj⟩ := hread m hm
  exact DocumentRecord.valid_of_ofJson? hj

/-- A tidy registry is read back from its document. -/
theorem registryOfJson?_toJson {r : Registry} (h : r.Tidy) :
    registryOfJson? (registryToJson r) = some r :=
  (reads_members h.ascending fun m hm => DocumentRecord.reads_record (h.times m hm)).plain

/-- A registry is a plain document. -/
theorem plain_registryToJson (r : Registry) : Plain (registryToJson r) :=
  .obj (List.forall_mem_map.2 fun m _ => m.2.plain_toJson)

/-- A registry is nested no deeper than documents are read. -/
theorem nesting_registryToJson_le (r : Registry) : (registryToJson r).nesting ≤ maxNesting := by
  have hrecords : (registryToJson r).nesting ≤ 3 :=
    Nat.succ_le_succ (nestingMembers_le (List.forall_mem_map.2 fun m _ => m.2.nesting_toJson_le))
  exact Nat.le_trans hrecords (by decide)

end Registry

/-! ## Sources -/

/-- Entities of which a fingerprint is taken: no id is given twice, their parts are as they are
read, and no number in a part of any form is one with a fraction. -/
structure Graph.Sources (entities : List Entity) : Prop where
  ids : (entities.map Entity.id).Nodup
  tidy : ∀ e ∈ entities, e.Tidy
  plain : ∀ e ∈ entities, ∀ j ∈ e.freeForm, Plain j

/-- Whether entities are the same in some order but for the times at which they were made and
changed. -/
def Graph.SameButTimes (l m : List Entity) : Prop :=
  (l.map Entity.untimed).Perm (m.map Entity.untimed)

namespace Store

variable {s s' : Store} {t t' : Tree} {path : String}

/-! ## What is read back -/

/-- The registry of a new store is tidy. -/
theorem tidy_new (dir : Location) (version : String) : (Store.new dir version).documents.Tidy :=
  Registry.tidy_nil

/-- Registering a document at a valid time keeps the registry tidy. -/
theorem tidy_register (h : s.documents.Tidy) {now : Instant} (hnow : now.Valid)
    (path hash : String) (ids : List String) :
    (s.register now path hash ids).2.documents.Tidy :=
  Registry.Tidy.insertMember h path hnow

/-- Removing a document keeps the registry tidy. -/
theorem tidy_removeDocument (h : s.documents.Tidy) (path : String) :
    (s.removeDocument path).documents.Tidy :=
  Registry.Tidy.filter h _

/-- The registry of a loaded store is tidy, whatever the files hold. -/
theorem tidy_load (s : Store) (t : Tree) : (s.load t).documents.Tidy := by
  show ((readFile? registryShape registryOfJson? t s.registryFile).getD []).Tidy
  cases h : readFile? registryShape registryOfJson? t s.registryFile with
  | none => exact Registry.tidy_nil
  | some r =>
      obtain ⟨bytes, -, h⟩ := Option.bind_eq_some_iff.1 h
      obtain ⟨j, -, h⟩ := Option.bind_eq_some_iff.1 h
      exact Registry.tidy_of_registryOfJson? h

/-- What was saved of the registry is loaded by every store with the same folder. -/
theorem documents_load_of_save (h : s.documents.Tidy) (hsave : s.save t = (t', none))
    (hdir : s'.dir = s.dir) : (s'.load t').documents = s.documents := by
  have hfile : s'.registryFile = s.registryFile := by rw [registryFile, registryFile, hdir]
  have hread := readFile?_of_holds (holds_of_save hsave).2
    (Registry.plain_registryToJson s.documents) (Registry.nesting_registryToJson_le s.documents)
    registryShape registryOfJson?
  show (readFile? registryShape registryOfJson? t' s'.registryFile).getD [] = s.documents
  rw [hfile, hread, Registry.registryOfJson?_toJson h]
  rfl

/-! ## While other documents come and go -/

/-- The stores that `s` may become while the document at `path` is neither registered nor removed:
other documents come and go, the graph changes, and a store with the same folder is loaded after a
save. -/
inductive Later (path : String) (s : Store) : Store → Prop
  | refl : Later path s s
  | register {s' : Store} (h : Later path s s') {now : Instant} (hnow : now.Valid) {other : String}
      (hother : other ≠ path) (hash : String) (ids : List String) :
      Later path s (s'.register now other hash ids).2
  | remove {s' : Store} (h : Later path s s') {other : String} (hother : other ≠ path) :
      Later path s (s'.removeDocument other)
  | change {s' : Store} (h : Later path s s') (graph : Graph) : Later path s { s' with graph }
  | reload {s' : Store} (h : Later path s s') {t t' : Tree} (hsave : s'.save t = (t', none))
      {fresh : Store} (hdir : fresh.dir = s'.dir) : Later path s (fresh.load t')

/-- Leaving out one path leaves what is found under the others. -/
theorem lookup_filter_ne {other : String} (hother : other ≠ path) (r : Registry) :
    (r.filter fun d => d.1 != other).lookup path = r.lookup path := by
  induction r with
  | nil => rfl
  | cons m r ih =>
      obtain ⟨k, d⟩ := m
      rw [List.filter_cons, lookup_cons_eq]
      by_cases hk : k = other
      · rw [if_neg (by simp [hk]), ih, if_neg fun h => hother (hk.symm.trans h.symm)]
      · rw [if_pos (by simp [hk]), lookup_cons_eq, ih]

/-- The registry stays tidy, and the record of the document stays as it is. -/
theorem Later.kept (h : Later path s s') (hs : s.documents.Tidy) :
    s'.documents.Tidy ∧ s'.record? path = s.record? path := by
  induction h with
  | refl => exact ⟨hs, rfl⟩
  | register h hnow hother hash ids ih =>
      refine ⟨tidy_register ih.1 hnow _ hash ids, ?_⟩
      rw [← ih.2]
      exact (lookup_insertMember path _ _ _).trans (if_neg hother.symm)
  | remove h hother ih =>
      refine ⟨tidy_removeDocument ih.1 _, ?_⟩
      rw [← ih.2]
      exact lookup_filter_ne hother _
  | change h graph ih => exact ih
  | reload h hsave hdir ih =>
      refine ⟨tidy_load _ _, ?_⟩
      rw [← ih.2, record?, documents_load_of_save ih.1 hsave hdir, record?]

/-- A document needs to be generated anew if it was registered with another fingerprint. -/
theorem Later.needsRegeneration_eq {now : Instant} {hash : String} {ids : List String}
    (h : Later path (s.register now path hash ids).2 s') (hs : s.documents.Tidy) (hnow : now.Valid)
    (hash' : String) : s'.needsRegeneration path hash' = (hash != hash') := by
  have hrecord : (s.register now path hash ids).2.record? path
      = some (s.register now path hash ids).1 :=
    (lookup_insertMember path path _ s.documents).trans (if_pos rfl)
  rw [needsRegeneration, (h.kept (tidy_register hs hnow path hash ids)).2, hrecord]
  rfl

/-! ## Stale documents -/

/-- The stale documents are sorted, and they are those that need to be generated anew. -/
theorem staleDocuments_spec (s : Store) {current : List (String × String)}
    (hkeys : (current.map Prod.fst).Nodup) :
    (s.staleDocuments current).Pairwise (· < ·) ∧ ∀ p, p ∈ s.staleDocuments current ↔
      ∃ hash, (p, hash) ∈ current ∧ s.needsRegeneration p hash = true := by
  let stale := current.filter fun d => s.needsRegeneration d.1 d.2
  have hdocuments : s.staleDocuments current = (stale.map Prod.fst).mergeSort fun a b => !(b < a) :=
    rfl
  have hnodup : ((stale.map Prod.fst).map id).Nodup := by
    rw [List.map_id]
    exact hkeys.sublist (List.filter_sublist.map Prod.fst)
  rw [hdocuments]
  refine ⟨Keyed.pairwise_mergeSort_lt hnodup, fun p => ?_⟩
  rw [(List.mergeSort_perm _ _).mem_iff, List.mem_map]
  constructor
  · rintro ⟨⟨p, hash⟩, hmem, rfl⟩
    obtain ⟨hmem, hneeds⟩ := List.mem_filter.1 hmem
    exact ⟨hash, hmem, hneeds⟩
  · rintro ⟨hash, hmem, hneeds⟩
    exact ⟨(p, hash), List.mem_filter.2 ⟨hmem, hneeds⟩, rfl⟩

end Store

/-! ## Exactness -/

/-- The text of which the digest is taken depends neither on the order nor on the times, and on all
else. -/
theorem Graph.canonicalText_eq_iff {l m : List Entity} (hl : Sources l) (hm : Sources m) :
    canonicalText l = canonicalText m ↔ SameButTimes l m :=
  ⟨perm_of_canonicalText hl.tidy hm.tidy hl.plain hm.plain, canonicalText_congr hl.ids⟩

namespace Store

/-- A document that was registered for the entities `l` is up to date for the same entities in any
order and at any times, and needs to be generated anew for all others unless their two texts have
one short digest. This stays so while other documents come and go and the store is saved and loaded.
The stale documents are those that need to be generated anew, sorted. -/
theorem regeneration_exact {s s' : Store} {path : String} {now : Instant} {ids : List String}
    {l m : List Entity} (hs : s.documents.Tidy) (hnow : now.Valid) (hl : Sources l) (hm : Sources m)
    (h : Later path (s.register now path (fingerprint l) ids).2 s') :
    (SameButTimes l m → s'.needsRegeneration path (fingerprint m) = false) ∧
    ((shortDigest (canonicalText l) = shortDigest (canonicalText m) →
        canonicalText l = canonicalText m) →
      ¬ SameButTimes l m → s'.needsRegeneration path (fingerprint m) = true) ∧
    (canonicalText l = canonicalText m ↔ SameButTimes l m) ∧
    ∀ (s : Store) (current : List (String × String)), (current.map Prod.fst).Nodup →
      (s.staleDocuments current).Pairwise (· < ·) ∧ ∀ p, p ∈ s.staleDocuments current ↔
        ∃ hash, (p, hash) ∈ current ∧ s.needsRegeneration p hash = true := by
  have htexts := canonicalText_eq_iff hl hm
  have hneeds := h.needsRegeneration_eq hs hnow (fingerprint m)
  refine ⟨fun hsame => ?_, fun hdigests hother => ?_, htexts, fun s _ => staleDocuments_spec s⟩
  · rw [hneeds, fingerprint_eq_iff.2 (congrArg shortDigest (htexts.2 hsame)), bne_self_eq_false]
  · rw [hneeds, bne_iff_ne]
    exact fun heq => hother (htexts.1 (hdigests (fingerprint_eq_iff.1 heq)))

/-- Two persons, registered, saved while there is another document, and loaded by another store: in
the other order and at another time they are up to date, and without them the document is stale,
since the text of no entities has another digest. -/
theorem regeneration_exact_persons :
    ∃ l m : List Entity, ∃ s' : Store,
      Later "team.md" ((Store.new "docs" "1").register ⟨0, 0⟩ "team.md" (fingerprint l) []).2 s' ∧
        l ≠ m ∧ s'.needsRegeneration "team.md" (fingerprint m) = false ∧
        s'.needsRegeneration "team.md" (fingerprint []) = true := by
  -- the same two persons in another order and at another time
  let person (id : String) (time : Instant) : Entity := Entity.new time id id (.person {})
  let l := [person "a" ⟨0, 0⟩, person "b" ⟨0, 0⟩]
  let m := [person "b" ⟨9, 0⟩, person "a" ⟨9, 0⟩]
  let s := ((Store.new "docs" "1").register ⟨0, 0⟩ "team.md" (fingerprint l) []).2
  let other := (s.register ⟨9, 0⟩ "other.md" "" []).2
  have hzero : Instant.Valid ⟨0, 0⟩ := Entity.valid_zero
  have hnine : Instant.Valid ⟨9, 0⟩ := ⟨by decide, by decide, by decide⟩
  have hperson : ∀ id {time}, time.Valid → (person id time).Tidy :=
    fun id _ htime => Entity.tidy_new htime id id rfl trivial
  have hl : Sources l := by
    refine ⟨by decide +kernel, ?_, ?_⟩
    · simp [l, hperson, hzero]
    · simp [l, person, Entity.new, Entity.freeForm, Detail.freeForm]
  have hm : Sources m := by
    refine ⟨by decide +kernel, ?_, ?_⟩
    · simp [m, hperson, hnine]
    · simp [m, person, Entity.new, Entity.freeForm, Detail.freeForm]
  have hnil : Sources [] := ⟨List.nodup_nil, List.forall_mem_nil _, List.forall_mem_nil _⟩
  -- another document is registered in between and the store is written and read
  have hother : Later "team.md" s other := .register .refl hnine (by decide) "" []
  have hsaved : (other.save {}).2 = none := by decide +kernel
  have hlater : Later "team.md" s ((Store.new "docs" "2").load (other.save {}).1) :=
    .reload hother (Prod.ext rfl hsaved) rfl
  have hsame : SameButTimes l m := List.Perm.swap _ _ _
  -- the two texts are hashed: this is where the digest is computed
  have hdigests : shortDigest (canonicalText l) ≠ shortDigest (canonicalText []) := by
    have hsorted : sortById l = l := List.mergeSort_of_pairwise (by decide)
    rw [canonicalText, hsorted]
    decide +kernel
  have hexact := regeneration_exact (tidy_new "docs" "1") hzero hl hm hlater
  have hexact' := regeneration_exact (tidy_new "docs" "1") hzero hl hnil hlater
  refine ⟨l, m, _, hlater, ?_, hexact.1 hsame, hexact'.2.1 (fun heq => absurd heq hdigests) ?_⟩
  · intro h
    have hids : l.map Entity.id = m.map Entity.id := congrArg _ h
    exact absurd hids (by decide +kernel)
  · intro h
    exact nomatch List.Perm.eq_nil h

end Store

end CodeAtlas
