import CodeAtlas.Proofs.Files.Placing
import CodeAtlas.Proofs.Store.RoundTrip
import Mathlib.Data.List.Find
import Mathlib.Data.List.Induction

/-!
# Checkpoints

The checkpoint of an agent is a file whose name is made from that of the agent. Calls for agents
whose names make different file names do not disturb each other: behind any of them, an agent has
the checkpoint that it saved last, unless it was removed since. Agents whose names make one file
name share a checkpoint. What is listed are the names of files, so a name in which a character was
replaced is not listed as it is.
-/

namespace CodeAtlas

open Json CodeAtlas.Graph

/-! ## Documents -/

namespace Checkpoint

/-- A checkpoint with a valid time and sorted data is read back. -/
theorem reads_checkpoint {c : Checkpoint} (htime : c.timestamp.Valid) (hdata : Sorted c.data) :
    Reads Checkpoint.ofJson? c.toJson c := by
  have hkeys : fieldNames.Nodup := by decide
  refine Json.reads_record hkeys fun members hshows => ?_
  have htime : field? instantOfJson? members "timestamp" = some c.timestamp :=
    (hshows ("timestamp", instantToJson c.timestamp) (by simp)).field? (reads_instant htime)
  have hdata : field? (fun j => some j.sorted) members "data" = some c.data :=
    (hshows ("data", c.data) (by simp)).field? (reads_sorted hdata)
  rw [strField?_of_shows hshows "agent" c.agent (by simp), htime, hdata]
  rfl

/-- A checkpoint without fractions in its data is a plain document. -/
theorem plain_toJson {c : Checkpoint} (h : Plain c.data) : Plain c.toJson := by
  refine .obj ?_
  simp [Plain.str, h]

/-- A checkpoint is nested one level deeper than its data. -/
theorem nesting_toJson (c : Checkpoint) : c.toJson.nesting = c.data.nesting + 1 := by
  simp [toJson, nesting, nestingMembers, instantToJson]

/-- The document of a checkpoint has the members that are read. -/
theorem covers_toJson (c : Checkpoint) : Shape.Covers (.recordOf fieldNames) c.toJson :=
  Shape.covers_recordOf (by simp [fieldNames])

/-- What is read from the file of a checkpoint. -/
def readBack? (c : Checkpoint) : Option Checkpoint :=
  ((Shape.recordOf fieldNames).read? (Text.decodeEach (Store.fileBytes c.toJson))).bind ofJson?

/-- A checkpoint is read back unless its data are nested too deep. -/
theorem readBack?_eq {c : Checkpoint} (htime : c.timestamp.Valid) (hdata : Sorted c.data)
    (hplain : Plain c.data) :
    c.readBack? = if c.data.nesting < maxNesting then some c else none := by
  have hnesting := c.nesting_toJson
  split
  · next hdepth =>
    rw [readBack?, Store.read?_fileBytes (plain_toJson hplain) (by omega), Option.bind_some,
      (reads_checkpoint htime hdata).plain]
  · next hdepth =>
    rw [readBack?, Store.read?_fileBytes_deep (plain_toJson hplain) (by omega) c.covers_toJson,
      Option.bind_none]

end Checkpoint

namespace Store

open CodeAtlas.Tree (LeadsTo Grows refusal? isOnTheWay)

variable {s : Store} {t t' : Tree}

/-! ## Calls -/

/-- A call that saves or removes the checkpoint of an agent. -/
inductive CheckpointCall where
  | save (now : Instant) (agent : String) (data : Json)
  | clear (agent : String)

namespace CheckpointCall

/-- The agent of a call. -/
def agent : CheckpointCall → String
  | save _ agent _ => agent
  | clear agent => agent

/-- The checkpoint that a call leaves. -/
def left? : CheckpointCall → Option Checkpoint
  | save now agent data => some { agent, timestamp := now, data }
  | clear _ => none

/-- The tree behind a call that does not fail. -/
def run (s : Store) (t : Tree) : CheckpointCall → Except Fault Tree
  | save now agent data =>
      match s.saveCheckpoint t now agent data with
      | (t, none) => .ok t
      | (_, some f) => .error f
  | clear agent => (s.clearCheckpoint t agent).map Prod.snd

/-- The tree behind calls that do not fail. -/
def runAll (s : Store) (t : Tree) (calls : List CheckpointCall) : Except Fault Tree :=
  calls.foldlM (fun t c => c.run s t) t

/-- What the last of the calls leaves whose agent satisfies `p`. -/
def last? (p : String → Bool) (calls : List CheckpointCall) : Option Checkpoint :=
  calls.reverse.find? (fun c => p c.agent) >>= left?

/-- One call more is the last one if it is for the agent. -/
theorem last?_append (p : String → Bool) (calls : List CheckpointCall) (c : CheckpointCall) :
    last? p (calls ++ [c]) = if p c.agent then c.left? else last? p calls := by
  rw [last?, List.reverse_append, List.reverse_singleton, List.singleton_append, List.find?_cons]
  cases p c.agent with
  | true => rfl
  | false => rfl

end CheckpointCall

open CheckpointCall

/-- The checkpoint that an agent has behind the calls. -/
def checkpointOf? (calls : List CheckpointCall) (agent : String) : Option Checkpoint :=
  last? (· == agent) calls

/-- The checkpoint in the file with a name behind the calls. -/
def contentOf? (calls : List CheckpointCall) (stem : String) : Option Checkpoint :=
  last? (agentFileName · == stem) calls

/-! ## Files -/

/-- The name of a file of a checkpoint. -/
def checkpointName (stem : String) : String := stem ++ ".json"

/-- There is no slash in the file name of a checkpoint. -/
theorem slash_not_mem_checkpointName (agent : String) :
    '/' ∉ (checkpointName (agentFileName agent)).toList := by
  rw [checkpointName, agentFileName, String.toList_append, String.toList_map, List.mem_append,
    List.mem_map]
  rintro (⟨c, -, hc⟩ | h)
  · split at hc
    · exact absurd hc (by decide)
    · next hkept =>
      rw [hc] at hkept
      exact hkept rfl
  · exact absurd h (by decide)

/-- The file name of a checkpoint is longer than any short one. -/
theorem checkpointName_ne {stem name : String} (h : name.length < 5) :
    checkpointName stem ≠ name := by
  rintro rfl
  have hlength : (".json" : String).length = 5 := rfl
  rw [checkpointName, String.length_append] at h
  omega

/-- The file name of a checkpoint is neither this folder nor the one above. -/
theorem isOnTheWay_checkpointName (stem : String) : isOnTheWay (checkpointName stem) = false := by
  rw [isOnTheWay, beq_eq_false_iff_ne.2 (checkpointName_ne (by decide)),
    beq_eq_false_iff_ne.2 (checkpointName_ne (by decide)),
    beq_eq_false_iff_ne.2 (checkpointName_ne (by decide))]
  rfl

/-- Checkpoints of different stems have different files. -/
theorem checkpointName_inj {stem stem' : String} (h : checkpointName stem = checkpointName stem') :
    stem = stem' := by
  rw [← String.toList_inj, checkpointName, checkpointName, String.toList_append,
    String.toList_append] at h
  exact String.toList_inj.1 (List.append_cancel_right h)

/-- A file that is written under its name with a mark is no checkpoint yet. -/
theorem checkpointName_ne_marked (stem stem' : String) :
    checkpointName stem ≠ checkpointName stem' ++ mark := by
  intro h
  rw [← String.toList_inj, checkpointName, String.toList_append, String.toList_append] at h
  have hjson : (".json" : String).toList.getLast? = some 'n' := rfl
  have hmark : mark.toList.getLast? = some 'p' := rfl
  have hlast := congrArg List.getLast? h
  rw [List.getLast?_append, List.getLast?_append, hjson, hmark, Option.some_or,
    Option.some_or] at hlast
  exact absurd hlast (by decide)

/-- The folder of checkpoints is the last name of its location. -/
theorem exists_names_checkpointDir (s : Store) :
    ∃ front, s.checkpointDir.names = front ++ ["checkpoints"] :=
  Location.names_join s.dir "checkpoints" (by decide)

/-- The file of an agent's checkpoint stands in the folder of checkpoints. -/
theorem checkpointFile_eq (s : Store) (agent : String) :
    s.checkpointFile agent
      = s.checkpointDir ++ "/" ++ checkpointName (agentFileName agent) := by
  obtain ⟨front, hfront⟩ := s.exists_names_checkpointDir
  exact Location.join_eq hfront (by decide) (slash_not_mem_checkpointName agent)

/-- The file of an agent is found in the folder if it is there. -/
theorem locate_checkpointFile {folder : Path} {agent : String}
    (h : t.LeadsTo s.checkpointDir folder) (haccepted : refusal? (s.checkpointFile agent) = none) :
    t.locate (s.checkpointFile agent)
      = if t.isThere (folder ++ [checkpointName (agentFileName agent)]) then
          .ok (folder ++ [checkpointName (agentFileName agent)])
        else .error (if (checkpointName (agentFileName agent)).utf8ByteSize ≤ Tree.maxNameBytes
          then .missing else .tooLong) := by
  rw [checkpointFile_eq] at haccepted ⊢
  exact h.locate_name (slash_not_mem_checkpointName agent) (isOnTheWay_checkpointName _) haccepted

/-- The file of an agent's checkpoint is found in the folder that its location leads to. -/
theorem eq_of_locate_checkpointFile {folder p : Path} {agent : String}
    (h : t.LeadsTo s.checkpointDir folder) (hp : t.locate (s.checkpointFile agent) = .ok p) :
    p = folder ++ [checkpointName (agentFileName agent)] := by
  rw [checkpointFile_eq] at hp
  exact h.eq_of_locate_name (slash_not_mem_checkpointName agent) (isOnTheWay_checkpointName _) hp

/-- The files of the checkpoints are in a folder, each with the checkpoint that has its name. -/
structure Keeps (s : Store) (folder : Path) (content : String → Option Checkpoint) (t : Tree) :
    Prop where
  leads : t.LeadsTo s.checkpointDir folder
  bytes : ∀ stem, t.bytes? (folder ++ [checkpointName stem])
    = (content stem).map fun c => fileBytes c.toJson
  noFolder : ∀ stem, t.isFolder (folder ++ [checkpointName stem]) = false
  accepted : ∀ stem, content stem ≠ none →
    refusal? (s.checkpointDir ++ "/" ++ checkpointName stem) = none

section
variable {folder p : Path} {content : String → Option Checkpoint}

/-- Writing a file makes no folders. -/
theorem isFolder_of_writeSteps {l : Location} {j : Json} {q : Path}
    (h : runSteps t (writeSteps l j) = (t', none)) (hq : t'.isFolder q = true) :
    t.isFolder q = true := by
  obtain ⟨t₁, hwrite, h⟩ := exists_of_runSteps_cons h
  obtain ⟨t₂, hrename, h⟩ := exists_of_runSteps_cons h
  cases h
  exact Tree.isFolder_of_write (eq_ok_of_changed hwrite)
    (Tree.isFolder_of_rename (eq_ok_of_changed hrename) hq)

/-- A file is removed, or it is missing and all stays as it is. -/
theorem clearCheckpoint_cases {agent : String} {b : Bool}
    (h : s.clearCheckpoint t agent = .ok (b, t')) :
    (∃ p, t.locate (s.checkpointFile agent) = .ok p ∧ t.isFile p = true ∧ t' = t.drop p) ∨
      t.locate (s.checkpointFile agent) = .error .missing ∧ t' = t := by
  unfold clearCheckpoint at h
  dsimp only at h
  split at h
  · next t₁ hremove =>
    obtain ⟨-, rfl⟩ := Prod.mk.inj (Except.ok.inj h)
    exact .inl (Tree.eq_drop_of_remove hremove)
  · next hremove =>
    obtain ⟨-, rfl⟩ := Prod.mk.inj (Except.ok.inj h)
    exact .inr ⟨Tree.locate_of_remove hremove, rfl⟩
  · cases h

namespace Keeps

/-- In a folder that keeps checkpoints the files are those of the contents. -/
theorem isThere_eq (h : Keeps s folder content t) (stem : String) :
    t.isThere (folder ++ [checkpointName stem]) = (content stem).isSome := by
  rw [Tree.isThere, h.noFolder, Bool.false_or, Tree.isFile, h.bytes, Option.isSome_map]

/-- Behind a file that was written are the checkpoints of before and the one that was written. -/
theorem write (h : Keeps s folder content t) {agent : String} {c : Checkpoint}
    (hsteps : runSteps t (writeSteps (s.checkpointFile agent) c.toJson) = (t', none)) :
    Keeps s folder (fun stem => if agentFileName agent = stem then some c else content stem)
      t' := by
  have hnames := Location.names_append_slash_append s.checkpointDir
    (slash_not_mem_checkpointName agent)
  rw [← checkpointFile_eq] at hnames
  obtain ⟨hholds, htouches⟩ := holds_of_writeSteps hnames (checkpointName_ne (by decide)) hsteps
  obtain ⟨paths, hgrows⟩ := htouches.grows
  obtain ⟨folder', hlocate, hbytes⟩ := hholds.locate
  have hleads := h.leads.of_grows hgrows
  refine ⟨hleads, fun stem => ?_, fun stem => ?_, fun stem hstem => ?_⟩
  · split
    · next heq =>
      obtain rfl := heq
      rw [← eq_of_locate_checkpointFile hleads hlocate, hbytes]
      rfl
    · next hne =>
      -- neither the file nor the one that it was before it was renamed
      rw [← h.bytes stem]
      refine htouches.kept _ (fun hmem => ?_) folder
      rw [List.mem_cons, List.mem_cons, List.mem_singleton] at hmem
      rcases hmem with hmem | hmem | hmem
      · exact checkpointName_ne_marked _ _ hmem
      · exact checkpointName_ne_marked _ _ hmem
      · exact hne (checkpointName_inj hmem).symm
  · refine Bool.eq_false_iff.2 fun hfolder => Bool.eq_false_iff.1 (h.noFolder stem) ?_
    exact isFolder_of_writeSteps hsteps hfolder
  · split at hstem
    · next heq =>
      rw [← heq, ← checkpointFile_eq]
      exact (Tree.accepted_of_locate hlocate).1
    · exact h.accepted stem hstem

/-- Behind a file that was removed, or was not there, are the other checkpoints of before. -/
theorem clear (h : Keeps s folder content t) {agent : String} {b : Bool}
    (hclear : s.clearCheckpoint t agent = .ok (b, t')) :
    Keeps s folder (fun stem => if agentFileName agent = stem then none else content stem) t' := by
  have haccepted : ∀ stem, (if agentFileName agent = stem then none else content stem) ≠ none →
      refusal? (s.checkpointDir ++ "/" ++ checkpointName stem) = none := by
    intro stem hstem
    split at hstem
    · exact absurd rfl hstem
    · exact h.accepted stem hstem
  -- the file was there and is dropped, or it was not and the tree is as before
  obtain ⟨p, hp, hfile, rfl⟩ | ⟨hmissing, rfl⟩ := clearCheckpoint_cases hclear
  · obtain rfl := eq_of_locate_checkpointFile h.leads hp
    refine ⟨h.leads.of_grows (Grows.drop t _), fun stem => ?_, fun stem => ?_, haccepted⟩
    · rw [Tree.bytes?_drop]
      split
      · next heq =>
        rw [if_pos (checkpointName_inj (List.singleton_inj.1 (List.append_cancel_left heq))).symm]
        rfl
      · next hne =>
        rw [if_neg fun heq => hne (by rw [heq]), h.bytes]
    · refine Bool.eq_false_iff.2 fun hfolder => Bool.eq_false_iff.1 (h.noFolder stem) ?_
      exact Tree.isFolder_of_drop hfile hfolder
  · refine ⟨h.leads, fun stem => ?_, h.noFolder, haccepted⟩
    split
    · next heq =>
      rw [locate_checkpointFile h.leads (Tree.accepted_of_missing hmissing), h.isThere_eq]
        at hmissing
      rw [h.bytes, ← heq]
      cases hcontent : content (agentFileName agent) with
      | none => rfl
      | some c =>
          rw [hcontent] at hmissing
          cases hmissing
    · exact h.bytes stem

/-- From a folder that keeps checkpoints an agent's is loaded by the stem of its file. -/
theorem loadCheckpoint? (h : Keeps s folder content t) (agent : String) :
    s.loadCheckpoint? t agent = (content (agentFileName agent)).bind Checkpoint.readBack? := by
  have hbytes := h.bytes (agentFileName agent)
  cases hcontent : content (agentFileName agent) with
  | none =>
      refine readFile?_eq_none (fun bytes hread => ?_) _ _
      obtain ⟨p, hp, hfile⟩ := Tree.bytes?_of_read hread
      rw [eq_of_locate_checkpointFile h.leads hp, hbytes, hcontent] at hfile
      cases hfile
  | some c =>
      have haccepted := h.accepted (agentFileName agent) (by rw [hcontent]; exact nofun)
      rw [← checkpointFile_eq] at haccepted
      have hlocate := locate_checkpointFile h.leads haccepted
      rw [h.isThere_eq, hcontent, Option.isSome_some, if_pos rfl] at hlocate
      rw [hcontent] at hbytes
      exact readFile?_of_read (Tree.read_of_bytes? hlocate hbytes) _ _

end Keeps

/-! ## Listing -/

/-- The stem of a name that ends as that of a checkpoint. -/
def stem? (name : String) : Option String :=
  if Path.extensionOf? name == some "json" then
    some (String.ofList (name.toList.take (name.length - 5)))
  else none

/-- The stem of a file name is what stands in front of its ending, if not empty. -/
theorem stem?_eq_some_iff {name stem : String} :
    stem? name = some stem ↔ stem ≠ "" ∧ name = checkpointName stem := by
  have hjson : ("." ++ "json" : String) = ".json" := rfl
  have hext : Path.extensionOf? name = some "json"
      ↔ ∃ stem, stem ≠ "" ∧ name = stem ++ ("." ++ "json") :=
    Path.extensionOf?_eq_some_iff (by decide) (by decide)
  have htake : ∀ stem : String, String.ofList
      ((checkpointName stem).toList.take ((checkpointName stem).length - 5)) = stem := by
    intro stem
    have hlength : (".json" : String).length = 5 := rfl
    rw [checkpointName, String.length_append, hlength, Nat.add_sub_cancel, String.toList_append,
      ← String.length_toList, List.take_left', String.ofList_toList]
    rfl
  rw [stem?]
  split
  · next h =>
    obtain ⟨stem', hne, rfl⟩ := hext.1 (beq_iff_eq.1 h)
    rw [hjson, ← checkpointName, htake, Option.some.injEq]
    constructor
    · rintro rfl
      exact ⟨hne, rfl⟩
    · rintro ⟨-, hname⟩
      exact checkpointName_inj hname
  · next h =>
    refine ⟨nofun, fun ⟨hne, hname⟩ => absurd (beq_iff_eq.2 (hext.2 ⟨stem, hne, ?_⟩)) h⟩
    rw [hname, hjson, checkpointName]

/-- The checkpoints in the files are listed by the names of the files, in ascending order, but for
one whose file has nothing in front of its ending. -/
theorem Keeps.listCheckpoints (h : Keeps s folder content t) :
    ∃ stems, s.listCheckpoints t = .ok stems ∧ stems.Pairwise (· < ·) ∧
      ∀ stem, stem ∈ stems ↔ stem ≠ "" ∧ (content stem).isSome = true := by
  obtain ⟨hpairwise, hmem⟩ := t.names_spec folder
  have hlist : t.list s.checkpointDir = .ok (t.names folder) := by
    simp only [Tree.list, h.leads.locate, bind, Except.bind, h.leads.isFolder, if_true]
  have hnodup : ((t.names folder).filterMap stem?).Nodup := by
    refine List.Nodup.filterMap (fun a a' b ha ha' => ?_) (hpairwise.imp String.ne_of_lt)
    rw [(stem?_eq_some_iff.1 ha).2, (stem?_eq_some_iff.1 ha').2]
  refine ⟨((t.names folder).filterMap stem?).mergeSort fun a b => !(b < a), ?_, ?_, fun stem => ?_⟩
  · unfold Store.listCheckpoints
    rw [hlist]
    rfl
  · exact Keyed.pairwise_mergeSort_lt (f := id) (by rwa [List.map_id])
  · rw [(List.mergeSort_perm _ _).mem_iff, List.mem_filterMap, ← h.isThere_eq, ← hmem]
    simp only [stem?_eq_some_iff]
    constructor
    · rintro ⟨name, hname, hne, rfl⟩
      exact ⟨hne, hname⟩
    · rintro ⟨hne, hname⟩
      exact ⟨_, hname, hne, rfl⟩

/-! ## Calls one after the other -/

/-- The folder of the checkpoints has no file of a checkpoint in it, once it is made. -/
def Vacant (s : Store) (t : Tree) : Prop :=
  ∃ folder, (t.makeFolders s.checkpointDir).1.LeadsTo s.checkpointDir folder ∧
    ∀ stem, checkpointName stem ∉ (t.makeFolders s.checkpointDir).1.names folder

/-- A vacant folder keeps no checkpoints when it is made. -/
theorem Vacant.keeps (h : s.Vacant t) :
    ∃ folder, Keeps s folder (fun _ => none) (t.makeFolders s.checkpointDir).1 := by
  obtain ⟨folder, hleads, habsent⟩ := h
  have hthere : ∀ stem, (t.makeFolders s.checkpointDir).1.isThere (folder ++ [checkpointName stem])
      = false := by
    intro stem
    rw [← Bool.not_eq_true, ← (Tree.names_spec _ folder).2]
    exact habsent stem
  simp only [Tree.isThere, Bool.or_eq_false_iff] at hthere
  refine ⟨folder, hleads, fun stem => ?_, fun stem => (hthere stem).1, fun stem h => absurd rfl h⟩
  exact Option.isSome_eq_false_iff.1 (hthere stem).2 |> Option.isNone_iff_eq_none.1

/-- The checkpoints of a tree: they are in their folder, or the folder is missing and there are
none. -/
def Stands (s : Store) (content : String → Option Checkpoint) (t : Tree) : Prop :=
  (∃ folder, Keeps s folder content t) ∨
    t.locate s.checkpointDir = .error .missing ∧ s.Vacant t ∧ ∀ stem, content stem = none

/-- In a vacant place no checkpoints stand. -/
theorem Vacant.stands (h : s.Vacant t) : Stands s (fun _ => none) t := by
  obtain ⟨front, hfront⟩ := s.exists_names_checkpointDir
  rcases Tree.makeFolders_cases hfront (by decide) t with hmade | hmissing
  · obtain ⟨folder, hkeeps⟩ := h.keeps
    exact .inl ⟨folder, hmade ▸ hkeeps⟩
  · exact .inr ⟨hmissing, h, fun _ => rfl⟩

/-- While the folder is missing, no file of a checkpoint is found. -/
theorem locate_checkpointFile_ne (h : t.locate s.checkpointDir = .error .missing) (agent : String)
    (p : Path) : t.locate (s.checkpointFile agent) ≠ .ok p := by
  obtain ⟨front, hfront⟩ := s.exists_names_checkpointDir
  rw [checkpointFile_eq]
  intro hp
  rw [Tree.locate_append (Location.isEmpty_eq_false_of_names hfront (by decide))
    (slash_not_mem_checkpointName agent) (Tree.accepted_of_locate hp).1, h] at hp
  cases hp

namespace Stands

/-- Once the folder is made, the checkpoints are in it. -/
theorem makeFolders (h : Stands s content t) :
    ∃ folder, Keeps s folder content (t.makeFolders s.checkpointDir).1 := by
  obtain ⟨front, hfront⟩ := s.exists_names_checkpointDir
  rcases h with ⟨folder, hkeeps⟩ | ⟨-, hvacant, hnone⟩
  · refine ⟨folder, ?_⟩
    rw [hkeeps.leads.makeFolders_eq hfront (by decide)]
    exact hkeeps
  · obtain rfl : content = fun _ => none := funext hnone
    exact hvacant.keeps

/-- A call changes the checkpoint in the file of its agent and no other. -/
theorem run (h : Stands s content t) {c : CheckpointCall} (hrun : c.run s t = .ok t') :
    Stands s (fun stem => if agentFileName c.agent = stem then c.left? else content stem) t' := by
  cases c with
  | save now agent data =>
      rw [CheckpointCall.run] at hrun
      split at hrun
      · next t₁ hsave =>
        cases hrun
        obtain ⟨t₀, hmake, hwrite⟩ := exists_of_runSteps_cons hsave
        -- the folder is there from here on, whether it was missing or not
        obtain ⟨folder, hkeeps⟩ := h.makeFolders
        have hmade : (t.makeFolders s.checkpointDir).1 = t₀ := congrArg Prod.fst hmake
        rw [hmade] at hkeeps
        exact .inl ⟨folder, hkeeps.write hwrite⟩
      · cases hrun
  | clear agent =>
      obtain ⟨⟨b, t₁⟩, hclear, rfl⟩ : ∃ r, s.clearCheckpoint t agent = .ok r ∧ r.2 = t' := by
        rw [CheckpointCall.run] at hrun
        cases hclear : s.clearCheckpoint t agent with
        | error f =>
            rw [hclear] at hrun
            cases hrun
        | ok r =>
            rw [hclear] at hrun
            cases hrun
            exact ⟨r, rfl, rfl⟩
      rcases h with ⟨folder, hkeeps⟩ | ⟨hmissing, hvacant, hnone⟩
      · exact .inl ⟨folder, hkeeps.clear hclear⟩
      · obtain ⟨p, hp, -⟩ | ⟨-, rfl⟩ := clearCheckpoint_cases hclear
        · exact absurd hp (locate_checkpointFile_ne hmissing agent p)
        · refine .inr ⟨hmissing, hvacant, fun stem => ?_⟩
          dsimp only
          rw [hnone, ite_eq_right_iff]
          exact fun _ => rfl

/-- Where checkpoints stand an agent's is loaded by the stem of its file. -/
theorem loadCheckpoint? (h : Stands s content t) (agent : String) :
    s.loadCheckpoint? t agent = (content (agentFileName agent)).bind Checkpoint.readBack? := by
  rcases h with ⟨folder, hkeeps⟩ | ⟨hmissing, -, hnone⟩
  · exact hkeeps.loadCheckpoint? agent
  · rw [hnone]
    refine readFile?_eq_none (fun bytes hread => ?_) _ _
    obtain ⟨p, hp, -⟩ := Tree.bytes?_of_read hread
    exact locate_checkpointFile_ne hmissing agent p hp

/-- Where checkpoints stand the stems of their files are listed in ascending order. -/
theorem listCheckpoints (h : Stands s content t) :
    ∃ stems, s.listCheckpoints t = .ok stems ∧ stems.Pairwise (· < ·) ∧
      ∀ stem, stem ∈ stems ↔ stem ≠ "" ∧ (content stem).isSome = true := by
  rcases h with ⟨folder, hkeeps⟩ | ⟨hmissing, -, hnone⟩
  · exact hkeeps.listCheckpoints
  · refine ⟨[], ?_, .nil, fun stem => ⟨nofun, fun ⟨_, hsome⟩ => ?_⟩⟩
    · have hlist : t.list s.checkpointDir = .error .missing := by
        simp only [Tree.list, hmissing, bind, Except.bind]
      unfold Store.listCheckpoints
      rw [hlist]
    · rw [hnone] at hsome
      cases hsome

end Stands

/-- Behind any calls, every file has what the last call left whose agent has this file. -/
theorem stands_of_runAll (hvacant : s.Vacant t) {calls : List CheckpointCall}
    (hrun : runAll s t calls = .ok t') : Stands s (contentOf? calls) t' := by
  induction calls using List.reverseRecOn generalizing t' with
  | nil =>
      cases hrun
      exact hvacant.stands
  | append_singleton calls c ih =>
      rw [runAll, List.foldlM_append] at hrun
      obtain ⟨t₁, hcalls, hrun⟩ := exists_of_bind hrun
      rw [List.foldlM_cons] at hrun
      obtain ⟨t₂, hc, hrun⟩ := exists_of_bind hrun
      cases hrun
      have hcontent : contentOf? (calls ++ [c]) = fun stem =>
          if agentFileName c.agent = stem then c.left? else contentOf? calls stem := by
        funext stem
        rw [contentOf?, last?_append, contentOf?]
        simp only [beq_iff_eq]
      rw [hcontent]
      exact (ih hcalls).run hc

/-- The last call for some agents is told by the agents of the calls. -/
theorem last?_congr {p q : String → Bool} {calls : List CheckpointCall}
    (h : ∀ c ∈ calls, p c.agent = q c.agent) : last? p calls = last? q calls := by
  rw [last?, last?, List.find?_congr fun c hc => h c (List.mem_reverse.1 hc)]

/-- If there is a last call for some agents one of the calls is for one of them. -/
theorem exists_of_last? {p : String → Bool} {calls : List CheckpointCall}
    (h : (last? p calls).isSome = true) : ∃ c ∈ calls, p c.agent = true := by
  rw [last?, Option.bind_eq_bind, Option.isSome_bind, Option.any_eq_true] at h
  obtain ⟨c, hc, -⟩ := h
  exact ⟨c, List.mem_reverse.1 (List.mem_of_find?_eq_some hc),
    List.find?_some (p := fun c : CheckpointCall => p c.agent) hc⟩

end

variable {calls : List CheckpointCall}

/-- Behind calls a checkpoint is loaded from the last call for its file. -/
theorem loadCheckpoint?_of_runAll (hvacant : s.Vacant t) (hrun : runAll s t calls = .ok t')
    (agent : String) : s.loadCheckpoint? t' agent
      = (contentOf? calls (agentFileName agent)).bind Checkpoint.readBack? :=
  (stands_of_runAll hvacant hrun).loadCheckpoint? agent

/-- Behind calls the files are listed whose last call has left something. -/
theorem listCheckpoints_of_runAll (hvacant : s.Vacant t) (hrun : runAll s t calls = .ok t') :
    ∃ stems, s.listCheckpoints t' = .ok stems ∧ stems.Pairwise (· < ·) ∧
      ∀ stem, stem ∈ stems ↔ stem ≠ "" ∧ (contentOf? calls stem).isSome = true :=
  (stands_of_runAll hvacant hrun).listCheckpoints

/-- Behind calls that do not fail, in a folder that had no checkpoints: an agent has the checkpoint
that it saved last, as it is read back, and none if that was removed since, unless a call was for
another agent whose name makes the same file name. If the file names are made of the names of the
agents as they are, and no name is empty, the agents that have checkpoints are listed in ascending
order. A checkpoint is read back as it was saved if its data are not nested too deep, and else it
is not read back. -/
theorem checkpoints_of_calls (hvacant : s.Vacant t) (hrun : runAll s t calls = .ok t') :
    (∀ a, (∀ c ∈ calls, agentFileName c.agent = agentFileName a → c.agent = a) →
      s.loadCheckpoint? t' a = (checkpointOf? calls a).bind Checkpoint.readBack?)
    ∧ ((∀ c ∈ calls, agentFileName c.agent = c.agent ∧ c.agent ≠ "") →
      ∃ agents, s.listCheckpoints t' = .ok agents ∧ agents.Pairwise (· < ·) ∧
        ∀ a, a ∈ agents ↔ (checkpointOf? calls a).isSome = true)
    ∧ ∀ c : Checkpoint, c.timestamp.Valid → Sorted c.data → Plain c.data →
      c.readBack? = if c.data.nesting < maxNesting then some c else none := by
  refine ⟨fun a hown => ?_, fun hkept => ?_, fun c => Checkpoint.readBack?_eq⟩
  · have hsame : contentOf? calls (agentFileName a) = checkpointOf? calls a := by
      refine last?_congr fun c hc => Bool.eq_iff_iff.2 ?_
      rw [beq_iff_eq, beq_iff_eq]
      exact ⟨hown c hc, congrArg agentFileName⟩
    rw [loadCheckpoint?_of_runAll hvacant hrun, hsame]
  · obtain ⟨agents, hlist, hpairwise, hmem⟩ := listCheckpoints_of_runAll hvacant hrun
    refine ⟨agents, hlist, hpairwise, fun a => ?_⟩
    have hsame : contentOf? calls a = checkpointOf? calls a :=
      last?_congr fun c hc => by rw [(hkept c hc).1]
    rw [hmem, hsame, and_iff_right_iff_imp]
    intro hsome
    obtain ⟨c, hc, hagent⟩ := exists_of_last? hsome
    rw [← beq_iff_eq.1 hagent]
    exact (hkept c hc).2

/-- An answer that has a value has succeeded. -/
theorem exists_of_isSome_toOption {ε α : Type} {x : Except ε α} (h : x.toOption.isSome = true) :
    ∃ a, x = .ok a := by
  cases x with
  | error e => cases h
  | ok a => exact ⟨a, rfl⟩

/-- A folder that is not there has no checkpoints. -/
theorem vacant_empty : (Store.new "docs" "1").Vacant {} := by
  refine ⟨["docs", "checkpoints"], ⟨by decide +kernel, by decide +kernel⟩, fun stem hmem => ?_⟩
  have hnames : (Tree.makeFolders {} (Store.new "docs" "1").checkpointDir).1.names
      ["docs", "checkpoints"] = [] := by decide +kernel
  rw [hnames] at hmem
  cases hmem

/-- A writer saves twice, and a reviewer saves and is cleared. -/
theorem checkpoints_of_calls_two :
    let s := Store.new "docs" "1"
    let calls : List CheckpointCall := [.save ⟨0, 0⟩ "writer" (.nat 1),
      .save ⟨1, 0⟩ "reviewer" .null, .save ⟨2, 0⟩ "writer" (.nat 2), .clear "reviewer"]
    ∃ t, runAll s {} calls = .ok t
      ∧ s.loadCheckpoint? t "writer" = some ⟨"writer", ⟨2, 0⟩, .nat 2⟩
      ∧ s.loadCheckpoint? t "reviewer" = none
      ∧ ∃ agents, s.listCheckpoints t = .ok agents ∧ "writer" ∈ agents ∧ "reviewer" ∉ agents := by
  intro s calls
  have hsome : (runAll s {} calls).toOption.isSome = true := by decide +kernel
  obtain ⟨t, hrun⟩ := exists_of_isSome_toOption hsome
  obtain ⟨hload, hlist, hread⟩ := checkpoints_of_calls vacant_empty hrun
  have hagents : ∀ c ∈ calls, agentFileName c.agent = c.agent ∧ c.agent ≠ "" := by decide +kernel
  have hwriter : checkpointOf? calls "writer" = some ⟨"writer", ⟨2, 0⟩, .nat 2⟩ := rfl
  have hreviewer : checkpointOf? calls "reviewer" = none := rfl
  obtain ⟨agents, hagents', -, hmem⟩ := hlist hagents
  refine ⟨t, hrun, ?_, ?_, agents, hagents', ?_, ?_⟩
  · rw [hload _ (by decide +kernel), hwriter, Option.bind_some,
      hread _ ⟨by decide, by decide, by decide⟩ (.num _) (.int ⟨by decide, by decide⟩)]
    rfl
  · rw [hload _ (by decide +kernel), hreviewer, Option.bind_none]
  · rw [hmem, hwriter]
    rfl
  · rw [hmem, hreviewer]
    exact nofun

/-- Two agents whose names make one file name: the one has the checkpoint of the other, and is not
listed. -/
theorem checkpoints_shared :
    let s := Store.new "docs" "1"
    let calls : List CheckpointCall := [.save ⟨0, 0⟩ "a/b" (.nat 1), .save ⟨1, 0⟩ "a_b" (.nat 2)]
    ∃ t, s.Vacant {} ∧ runAll s {} calls = .ok t
      ∧ checkpointOf? calls "a/b" = some ⟨"a/b", ⟨0, 0⟩, .nat 1⟩
      ∧ s.loadCheckpoint? t "a/b" = some ⟨"a_b", ⟨1, 0⟩, .nat 2⟩
      ∧ ∃ agents, s.listCheckpoints t = .ok agents ∧ "a/b" ∉ agents := by
  intro s calls
  have hsome : (runAll s {} calls).toOption.isSome = true := by decide +kernel
  obtain ⟨t, hrun⟩ := exists_of_isSome_toOption hsome
  obtain ⟨agents, hlist, -, hmem⟩ := listCheckpoints_of_runAll vacant_empty hrun
  have hshared : (agentFileName "a_b" == agentFileName "a/b") = true := by decide +kernel
  have hcontent : contentOf? calls (agentFileName "a/b") = some ⟨"a_b", ⟨1, 0⟩, .nat 2⟩ :=
    (last?_append _ [.save ⟨0, 0⟩ "a/b" (.nat 1)] (.save ⟨1, 0⟩ "a_b" (.nat 2))).trans
      (if_pos hshared)
  have hnone : (contentOf? calls "a/b").isSome = false := by decide +kernel
  refine ⟨t, vacant_empty, hrun, rfl, ?_, agents, hlist, ?_⟩
  · rw [loadCheckpoint?_of_runAll vacant_empty hrun, hcontent, Option.bind_some,
      Checkpoint.readBack?_eq ⟨by decide, by decide, by decide⟩ (.num _)
        (.int ⟨by decide, by decide⟩)]
    rfl
  · rw [hmem, hnone]
    exact fun h => Bool.false_ne_true h.2

end Store

end CodeAtlas
