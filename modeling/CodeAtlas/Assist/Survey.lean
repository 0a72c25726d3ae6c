import CodeAtlas.Assist.Finding
import CodeAtlas.Assist.Prompt
import CodeAtlas.Facts.Analysis
import CodeAtlas.Manifest.Basic

/-!
# Surveying a repository with a model

For each topic the selected files are sent in batches, one request a batch, and the facts of all
answers are collected in the order of the requests. A request that fails costs the facts of its
batch and nothing else.
-/

namespace CodeAtlas.Assist

/-- The limits of a survey. -/
structure Options where
  /-- Files for each topic. -/
  maxFiles : Nat := 40
  /-- Files in a request; 0 counts as 1. -/
  batchSize : Nat := 5
  /-- Characters of a file that are sent. -/
  maxFileChars : Nat := 12000
  maxTokens : Nat := defaultMaxTokens
  /-- Seconds that a request may take. -/
  timeoutSeconds : Nat := 120
  /-- Requests at one time; the facts do not depend on it. -/
  concurrency : Nat := 1
  deriving DecidableEq, Repr

/-- Cuts a list into pieces of one more than so many items; the last may have fewer. -/
def pieces {α : Type} (n : Nat) : List α → List (List α)
  | [] => []
  | a :: rest => (a :: rest.take n) :: pieces n (rest.drop n)
termination_by l => l.length
decreasing_by simp only [List.length_drop, List.length_cons]; omega

/-- The files of one request. -/
structure Batch where
  topic : Topic
  files : List SourceFile

/-- The batches of a survey, in the order of their requests. -/
def batches (o : Options) (files : List SourceFile) : List Batch :=
  Topic.all.flatMap fun topic =>
    (pieces (o.batchSize - 1) (select topic o.maxFiles files)).map fun files => { topic, files }

/-- The file that a fact of a batch is attributed to when the model names none. -/
def Batch.defaultFile (b : Batch) : String := (b.files.head?.map (·.rel)).getD ""

/-- The request for a batch. -/
def Batch.request (b : Batch) (o : Options) (language : String) : Request :=
  let files := String.join (b.files.map (fileText o.maxFileChars))
  askFor systemText (b.topic.instructions language ++ "\n\n" ++ files) o.maxTokens b.topic.shape

/-- A model: the answer to the request with a number, or none if the request fails. -/
abbrev Client := Nat → Request → Option String

/-- The records of an answer; a request that failed has none. -/
def itemsOf : Option String → List Reply.Item
  | some reply => Reply.items reply.toList
  | none => []

/-- A survey: the batches with the records that each was answered with. -/
abbrev Answers := List (Batch × List Reply.Item)

/-- Asks the model about each batch. -/
def ask (client : Client) (o : Options) (language : String) (batches : List Batch) : Answers :=
  batches.zipIdx.map fun (b, i) => (b, itemsOf (client i (b.request o language)))

/-- The facts on one topic. -/
def Answers.collect {α : Type} (answers : Answers) (topic : Topic)
    (fact? : String → Reply.Item → Option α) : List α :=
  answers.flatMap fun (b, items) =>
    if b.topic = topic then items.filterMap (fact? b.defaultFile) else []

/-- The files of a repository that a model may read. -/
def sourceFiles (r : Repository) : List SourceFile := r.sourceFiles sourceExtensions

/-- The requests of a survey. -/
def requests (r : Repository) (o : Options) (language : String) : List Request :=
  (batches o (sourceFiles r)).map fun b => b.request o language

/-- The analysis that the answers to a survey amount to. Dependencies come from the manifests. -/
def report (r : Repository) (language : String) (answers : Answers) : Analysis where
  language := "ai:" ++ language
  models := answers.collect .models (modelOf? r)
  endpoints := answers.collect .endpoints (endpointOf? r)
  sideEffects := answers.collect .sideEffects fun file item => some (sideEffectOf r file item)
  settings := answers.collect .settings (settingOf? r)
  dependencies := r.dependencies ManifestKind.all

/-- The analysis of a repository by a model. -/
def survey (client : Client) (r : Repository) (o : Options) (language : String) : Analysis :=
  report r language (ask client o language (batches o (sourceFiles r)))

end CodeAtlas.Assist
