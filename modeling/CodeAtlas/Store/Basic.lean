import CodeAtlas.Files.Change
import CodeAtlas.Graph.Fingerprint
import CodeAtlas.Json.Draft

/-!
# Stores

A store keeps a graph and a registry of generated documents, and writes both to files in its
folder. A file is written under another name first and then renamed. A file that is missing or
cannot be read counts as empty.
-/

namespace CodeAtlas

/-- What is known about a generated document. -/
structure DocumentRecord where
  path : String
  /-- The fingerprint of what it was generated from. -/
  sourceHash : String
  generatedAt : Instant
  agentVersion : String
  entityIds : List String
  deriving DecidableEq, Repr

namespace DocumentRecord

/-- The document of a record. -/
def toJson (r : DocumentRecord) : Json :=
  .obj [("path", r.path), ("source_hash", r.sourceHash),
    ("generated_at", Graph.instantToJson r.generatedAt), ("agent_version", r.agentVersion),
    ("entity_ids", .strings r.entityIds)]

/-- The names of the fields of a record. -/
def fieldNames : List String :=
  ["path", "source_hash", "generated_at", "agent_version", "entity_ids"]

/-- The record that a document describes. -/
def ofJson? (j : Json) : Option DocumentRecord := do
  let r ← j.record? fieldNames 0
  return {
    path := ← Json.field? Json.str? r "path"
    sourceHash := ← Json.field? Json.str? r "source_hash"
    generatedAt := ← Json.field? Graph.instantOfJson? r "generated_at"
    agentVersion := ← Json.field? Json.str? r "agent_version"
    entityIds := ← Json.field? Json.strings? r "entity_ids" }

end DocumentRecord

/-- The state of an agent that it can resume from. -/
structure Checkpoint where
  agent : String
  timestamp : Instant
  data : Json
  deriving Repr, BEq

namespace Checkpoint

/-- The document of a checkpoint. -/
def toJson (c : Checkpoint) : Json :=
  .obj [("agent", c.agent), ("timestamp", Graph.instantToJson c.timestamp), ("data", c.data)]

/-- The names of the fields of a checkpoint. -/
def fieldNames : List String := ["agent", "timestamp", "data"]

/-- The checkpoint that a document describes. -/
def ofJson? (j : Json) : Option Checkpoint := do
  let r ← j.record? fieldNames 0
  return {
    agent := ← Json.field? Json.str? r "agent"
    timestamp := ← Json.field? Graph.instantOfJson? r "timestamp"
    data := ← Json.field? (fun j => some j.sorted) r "data" }

end Checkpoint

/-- The registry: records by the path under which they were registered, sorted. -/
abbrev Registry := List (String × DocumentRecord)

/-- The version of the agent, unless another is given. -/
def agentVersion : String := "0.1.0"

/-- A store: its folder, its graph and its registry. -/
structure Store where
  dir : Location
  graph : Graph := {}
  documents : Registry := []
  version : String := agentVersion

namespace Store

/-! ## Files -/

/-- One operation on files. -/
inductive FileStep where
  | makeFolders (location : Location)
  | write (location : Location) (bytes : List UInt8)
  | rename (source target : Location)

/-- The location that an error of a step speaks of. -/
def FileStep.location : FileStep → Location
  | makeFolders location => location
  | write location _ => location
  | rename _ target => target

/-- What becomes of a tree by a change that may fail. -/
def changed (t : Tree) : Except FileError Tree → Tree × Option FileError
  | .ok t => (t, none)
  | .error e => (t, some e)

/-- The tree behind a step, and why the step failed. -/
def FileStep.run (t : Tree) : FileStep → Tree × Option FileError
  | makeFolders location => t.makeFolders location
  | write location bytes => changed t (t.write location bytes)
  | rename source target => changed t (t.rename source target)

/-- An operation that failed, and its location. -/
structure Fault where
  location : Location
  error : FileError
  deriving DecidableEq, Repr

/-- What is said about a fault. -/
def Fault.message (f : Fault) : String := "I/O error on " ++ f.location ++ ": " ++ f.error.message

/-- The tree behind the steps, up to the first that fails. -/
def runSteps (t : Tree) : List FileStep → Tree × Option Fault
  | [] => (t, none)
  | s :: steps =>
      match s.run t with
      | (t, none) => runSteps t steps
      | (t, some e) => (t, some ⟨s.location, e⟩)

/-- The location at which a file is written first. -/
def temporary (l : Location) : Location := l ++ ".tmp"

/-- The steps that write a document to a file. -/
def writeSteps (l : Location) (j : Json) : List FileStep :=
  [.write (temporary l) (Text.encode (Json.writePretty 0 j)), .rename (temporary l) l]

/-- What `decode?` finds in what counts of a file, if the file can be read and holds a document. -/
def readFile? {α : Type} (shape : Json.Shape) (decode? : Json → Option α) (t : Tree)
    (l : Location) : Option α := do
  let bytes ← (t.read l).toOption
  decode? (← shape.read? (Text.decodeEach bytes))

/-- The file of the graph. -/
def graphFile (s : Store) : Location := .join s.dir "knowledge_graph.json"

/-- The file of the registry. -/
def registryFile (s : Store) : Location := .join s.dir "document_registry.json"

/-- The folder of the checkpoints. -/
def checkpointDir (s : Store) : Location := .join s.dir "checkpoints"

/-- A store at a folder, with a version of the agent. -/
def new (dir : Location) (version : String) : Store := { dir, version }

/-- The document of the registry. -/
def registryToJson (r : Registry) : Json := .obj (r.map fun (path, d) => (path, d.toJson))

/-- What counts in the document of the registry. -/
def registryShape : Json.Shape := .map (.recordOf DocumentRecord.fieldNames)

/-- The registry that a document describes. -/
def registryOfJson? : Json → Option Registry := Json.members? DocumentRecord.ofJson?

/-- The store with what its files hold. -/
def load (s : Store) (t : Tree) : Store :=
  { s with
    graph := (readFile? Graph.shape Graph.ofJson? t s.graphFile).getD {}
    documents := (readFile? registryShape registryOfJson? t s.registryFile).getD [] }

/-- The steps that write the store to its files: the graph, then the registry. -/
def saveSteps (s : Store) : List FileStep :=
  .makeFolders s.dir :: (writeSteps s.graphFile s.graph.toJson ++
    writeSteps s.registryFile (registryToJson s.documents))

/-- Writes the store to its files. -/
def save (s : Store) (t : Tree) : Tree × Option Fault := runSteps t s.saveSteps

/-! ## Checkpoints -/

/-- The name of an agent in the name of its file. -/
def agentFileName (agent : String) : String :=
  agent.map fun c => if c == '/' || c == '\\' || c == ':' then '_' else c

/-- The file of the checkpoint of an agent. -/
def checkpointFile (s : Store) (agent : String) : Location :=
  .join s.checkpointDir (agentFileName agent ++ ".json")

/-- Writes the checkpoint of an agent. -/
def saveCheckpoint (s : Store) (t : Tree) (now : Instant) (agent : String) (data : Json) :
    Tree × Option Fault :=
  let c : Checkpoint := { agent, timestamp := now, data }
  runSteps t (.makeFolders s.checkpointDir :: writeSteps (s.checkpointFile agent) c.toJson)

/-- The checkpoint of an agent. -/
def loadCheckpoint? (s : Store) (t : Tree) (agent : String) : Option Checkpoint :=
  readFile? (.recordOf Checkpoint.fieldNames) Checkpoint.ofJson? t (s.checkpointFile agent)

/-- Removes the checkpoint of an agent, and says whether there was one. -/
def clearCheckpoint (s : Store) (t : Tree) (agent : String) : Except Fault (Bool × Tree) :=
  let file := s.checkpointFile agent
  match t.remove file with
  | .ok t => .ok (true, t)
  | .error .missing => .ok (false, t)
  | .error e => .error ⟨file, e⟩

/-- The agents that have checkpoints, by the names of their files. -/
def listCheckpoints (s : Store) (t : Tree) : Except Fault (List String) :=
  match t.list s.checkpointDir with
  | .error .missing => .ok []
  | .error e => .error ⟨s.checkpointDir, e⟩
  | .ok names =>
      let stems := names.filterMap fun name =>
        if Path.extensionOf? name == some "json" then
          some (String.ofList (name.toList.take (name.length - 5)))
        else none
      .ok (stems.mergeSort fun a b => !(b < a))

/-! ## The registry -/

/-- The store with a document registered at `now`, and its record. -/
def register (s : Store) (now : Instant) (path hash : String) (ids : List String) :
    DocumentRecord × Store :=
  let r : DocumentRecord :=
    { path, sourceHash := hash, generatedAt := now, agentVersion := s.version, entityIds := ids }
  (r, { s with documents := Json.insertMember path r s.documents })

/-- The record of a document. -/
def record? (s : Store) (path : String) : Option DocumentRecord := s.documents.lookup path

/-- Whether a document was not generated from what has this fingerprint. -/
def needsRegeneration (s : Store) (path hash : String) : Bool :=
  (s.record? path).all fun r => r.sourceHash != hash

/-- The store without a document. -/
def removeDocument (s : Store) (path : String) : Store :=
  { s with documents := s.documents.filter fun d => d.1 != path }

/-- The paths of the documents that need to be generated anew, given their fingerprints. -/
def staleDocuments (s : Store) (current : List (String × String)) : List String :=
  let stale := current.filter fun (path, hash) => s.needsRegeneration path hash
  (stale.map (·.1)).mergeSort fun a b => !(b < a)

end Store

end CodeAtlas
