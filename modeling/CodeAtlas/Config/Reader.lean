import CodeAtlas.Assist.Survey
import CodeAtlas.Files.Change
import CodeAtlas.Json.Basic
import CodeAtlas.Language.Basic
import CodeAtlas.Repository
import CodeAtlas.Yaml.Decode

/-!
# Configurations

A configuration says what to analyze in a repository, where its store is, and how to ask a model.
Everything in it may be left out. It is written as a document of members and is found in the root of
its repository under one of several names.
-/

namespace CodeAtlas

/-- How to ask a model. -/
structure ModelConfig where
  isEnabled : Bool := false
  /-- The address of the service that answers. -/
  endpoint : String := "https://api.openai.com/v1"
  model : String := "gpt-4o-mini"
  /-- The variable with the key for the service. -/
  keyVariable : Option String := some "OPENAI_API_KEY"
  options : Assist.Options := {}
  deriving DecidableEq, Repr

/-- A configuration. -/
structure Config where
  baseUrl : Option String := none
  branch : Option String := none
  maxFileSize : Option Nat := none
  excludedDirs : List String := []
  excludedPaths : List String := []
  /-- The languages to analyze; those of the repository if there are none. -/
  languages : List String := []
  storeDir : Option String := none
  assist : ModelConfig := {}
  deriving DecidableEq, Repr

namespace Config

/-- The name of the folder for the store, unless another is given. -/
def defaultStoreDir : String := ".repograph"

/-- The languages that words mean, or the first word that means none. -/
def readLanguages (words : List String) : Except String (List Language) :=
  words.mapM fun word => match Language.ofWord? word with
    | some l => .ok l
    | none => .error (Language.unknownMessage word)

/-- The languages to analyze, or what is wrong with them. -/
def knownLanguages (c : Config) : Except String (List Language) := readLanguages c.languages

/-- What is wrong with a configuration, if anything is. -/
def invalid? (c : Config) : Option String :=
  if c.assist.options.batchSize = 0 then some "ai.batch_size must be at least 1"
  else if c.assist.options.concurrency = 0 then some "ai.concurrency must be at least 1"
  else if c.maxFileSize = some 0 then some "max_file_size must be positive"
  else match c.knownLanguages with
    | .ok _ => none
    | .error message => some message

/-- What the configuration says about looking at files. -/
def scope (c : Config) : Scope where
  baseUrl := c.baseUrl
  branch := c.branch
  maxFileSize := c.maxFileSize
  excludedDirs := c.excludedDirs
  excludedPaths := c.excludedPaths

/-- Where the store of the repository at a root is. -/
def storeLocation (c : Config) (root : Location) : Location :=
  .join root (c.storeDir.getD defaultStoreDir)

/-- The document of how to ask a model. -/
def modelJson (m : ModelConfig) : Json :=
  .obj [("enabled", m.isEnabled), ("endpoint", m.endpoint), ("model", m.model),
    ("api_key_env", Json.ofString? m.keyVariable), ("max_files", .nat m.options.maxFiles),
    ("batch_size", .nat m.options.batchSize), ("max_file_chars", .nat m.options.maxFileChars),
    ("max_tokens", .nat m.options.maxTokens), ("timeout_secs", .nat m.options.timeoutSeconds),
    ("concurrency", .nat m.options.concurrency)]

/-- The document of a configuration. -/
def toJson (c : Config) : Json :=
  .obj [("base_url", Json.ofString? c.baseUrl), ("branch", Json.ofString? c.branch),
    ("max_file_size", Json.ofOption Json.nat c.maxFileSize),
    ("excluded_dirs", .strings c.excludedDirs), ("excluded_paths", .strings c.excludedPaths),
    ("languages", .strings c.languages), ("store_dir", Json.ofString? c.storeDir),
    ("ai", modelJson c.assist)]

end Config

end CodeAtlas

/-! ## Reading -/

namespace CodeAtlas.Config

open Yaml

/-- A member of the options for asking a model. -/
def optionMember (key type : String) (bound : Nat)
    (set : Assist.Options → Nat → Assist.Options) : Member ModelConfig :=
  member key (natural type bound) fun m n => { m with options := set m.options n }

/-- The members that say how to ask a model. -/
def modelMembers : List (Member ModelConfig) := [
  member "enabled" bool fun m b => { m with isEnabled := b },
  member "endpoint" (string "a string") fun m s => { m with endpoint := s },
  member "model" (string "a string") fun m s => { m with model := s },
  member "api_key_env" (optional (string "a string")) fun m s => { m with keyVariable := s },
  optionMember "max_files" "usize" Text.wordBound fun o n => { o with maxFiles := n },
  optionMember "batch_size" "usize" Text.wordBound fun o n => { o with batchSize := n },
  optionMember "max_file_chars" "usize" Text.wordBound fun o n => { o with maxFileChars := n },
  optionMember "max_tokens" "u32" (Nat.pow 2 32) fun o n => { o with maxTokens := n },
  optionMember "timeout_secs" "u64" Text.wordBound fun o n => { o with timeoutSeconds := n },
  optionMember "concurrency" "usize" Text.wordBound fun o n => { o with concurrency := n }]

/-- The members of a configuration. -/
def members : List (Member Config) := [
  member "base_url" (optional (string "a string")) fun c s => { c with baseUrl := s },
  member "branch" (optional (string "a string")) fun c s => { c with branch := s },
  member "max_file_size" (optional (natural "u64" Text.wordBound)) fun c n =>
    { c with maxFileSize := n },
  member "excluded_dirs" strings fun c l => { c with excludedDirs := l },
  member "excluded_paths" strings fun c l => { c with excludedPaths := l },
  member "languages" strings fun c l => { c with languages := l },
  member "store_dir" (optional (string "path string")) fun c s => { c with storeDir := s },
  member "ai" (record "AiConfig" modelMembers {}) fun c m => { c with assist := m }]

/-- The configuration that a text describes. A text without anything says nothing. -/
def ofText (text : List Char) : Except Fault Config :=
  if (Text.trim text).isEmpty then .ok {} else decode (record "Config" members {}) text

/-! ## Files -/

/-- Why there is no configuration: a file cannot be read, holds no configuration, or holds one in
which something is wrong. -/
inductive LoadError where
  | unreadable (file : Location) (reason : String)
  | malformed (file : Location) (fault : Fault)
  | invalid (message : String)
  deriving DecidableEq, Repr

/-- What is said about an error. -/
def LoadError.message : LoadError → String
  | unreadable file reason => "failed to read " ++ file ++ ": " ++ reason
  | malformed file fault => "invalid YAML in " ++ file ++ ": " ++ fault.message
  | invalid message => message

/-- The names of files for configurations, the first one first. -/
def fileNames : List String := ["repograph.yaml", "repograph.yml", ".repograph.yaml"]

/-- The configuration file of the repository at a root. -/
def discover? (t : Tree) (root : Location) : Option Location :=
  (fileNames.map (Location.join root)).find? t.leadsToFile

/-- Reads the configuration in a file. -/
def ofFile (t : Tree) (file : Location) : Except LoadError Config :=
  match t.read file with
  | .error e => .error (.unreadable file e.message)
  | .ok bytes =>
      match Text.decode? bytes with
      | none => .error (.unreadable file "stream did not contain valid UTF-8")
      | some text =>
          match ofText text with
          | .error fault => .error (.malformed file fault)
          | .ok c => match c.invalid? with
            | some message => .error (.invalid message)
            | none => .ok c

/-- Reads the configuration of the repository at a root: the one in the given file, or in a file of
the root. With it comes the file, if there is one. -/
def load (t : Tree) (root : Location) (given? : Option Location) :
    Except LoadError (Config × Option Location) :=
  match given?.or (discover? t root) with
  | some file => (ofFile t file).map (·, some file)
  | none => .ok ({}, none)

end CodeAtlas.Config
