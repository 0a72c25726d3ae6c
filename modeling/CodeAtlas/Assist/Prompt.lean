import CodeAtlas.Repository
import CodeAtlas.Json.Printer

/-!
# Prompts

The texts that are sent to a model: what it is, what to report on a topic, the files, and the shape
of the records that it is to answer with.
-/

namespace CodeAtlas.Assist

/-!
## What a model is asked about

A model reads source files for one topic at a time. Each topic has words that suggest, in a path,
that a file belongs to it; only the most promising files are sent.
-/

/-- A topic on which a model reports. -/
inductive Topic where
  | endpoints
  | models
  | settings
  | sideEffects
  deriving DecidableEq, Repr

namespace Topic

/-- All topics, in the order in which a model is asked about them. -/
def all : List Topic := [endpoints, models, settings, sideEffects]

/-- The name of a topic. -/
def label : Topic → String
  | endpoints => "endpoints"
  | models => "models"
  | settings => "config"
  | sideEffects => "side_effects"

/-- The topic of a name. -/
def ofLabel? (s : String) : Option Topic := all.find? fun t => t.label == s

/-- The words that suggest a topic in a path. -/
def keywords : Topic → List String
  | endpoints => ["controller", "handler", "route", "router", "api", "view", "resource"]
  | models => ["model", "schema", "entity", "dto", "type", "struct"]
  | settings => ["config", "settings", "env", "constants"]
  | sideEffects => ["service", "repository", "client", "dao", "gateway", "db", "store"]

/-- Whether a path suggests a topic, in whatever case of ASCII letters. -/
def suits (t : Topic) (path : String) : Bool :=
  t.keywords.any fun word => hasWord (asciiLowered path) word

end Topic

/-- The extensions of the files that a model may read. They cover more languages than the analyzers,
since a model helps most where there is no analyzer. -/
def sourceExtensions : List String := [
  "go", "php", "ts", "tsx", "js", "jsx", "mjs", "py", "cls", "trigger", "lua", "rs", "c", "h",
  "cc", "cpp", "hpp", "sh", "as", "tf", "java", "kt", "scala", "swift", "rb", "cs", "ex", "exs",
  "erl", "clj", "dart"]

/-- The folders that conventionally hold sources. -/
def sourceFolders : List String := ["src", "lambda", "lib", "app"]

/-- Whether a path goes through a folder that conventionally holds sources, or ends in its name. -/
def inSourceFolder (path : String) : Bool :=
  (Text.splitChar '/' path.toList).any fun name => sourceFolders.contains (String.ofList name)

/-- The first list, or the second if it is empty. -/
def orElse {α : Type} (first second : List α) : List α := if first.isEmpty then second else first

/-- The files to send for a topic, at most so many: those whose path suggests the topic; without
any, those in the usual source folders; without any, all. Tests are left out. -/
def select (t : Topic) (limit : Nat) (files : List SourceFile) : List SourceFile :=
  let eligible := files.filter fun f => !isTestFile f.rel
  let suited := eligible.filter fun f => t.suits f.rel
  let usual := eligible.filter fun f => inSourceFolder f.rel
  (orElse suited (orElse usual eligible)).take limit

/-! ## Requests -/

/-- One question to a model, with the number of tokens that the answer may take. -/
structure Request where
  system : String
  user : String
  maxTokens : Nat
  deriving DecidableEq, Repr

/-- The tokens that an answer may take unless something else is asked for. -/
def defaultMaxTokens : Nat := 16000

/-- What the model is told about itself. -/
def systemText : String :=
  "You are a senior software engineer documenting an unfamiliar codebase. You read source files and " ++
  "report only facts that are visible in the code. Never invent names, paths or keys. When nothing "
    ++ "relevant is present, return an empty JSON array."

namespace Topic

/-- What the model is to list on a topic. -/
def task : Topic → String
  | endpoints =>
      "List every externally reachable entry point: HTTP routes, RPC handlers, GraphQL resolvers, "
        ++ "message consumers and CLI commands. Use the HTTP verb as the method when there is one, otherwise " ++
      "a short upper-case kind such as GRAPHQL, RPC or CONSUMER."
  | models =>
      "List the data models: classes, structs, interfaces, enums, schemas and DTOs that carry domain " ++
      "data. Include their fields with declared types."
  | settings =>
      "List every configuration input: environment variables, settings keys, command line flags and " ++
      "constants that tune behaviour. Mark a key as not required when the code supplies a default."
  | sideEffects =>
      "List operations with effects outside the process: database queries, HTTP calls, file writes, " ++
      "queue publishes, cache access, e-mail and cloud SDK calls."

/-- The task on a topic for files of one language. -/
def instructions (t : Topic) (language : String) : String :=
  "The following files are written in " ++ language ++ ".\n" ++ t.task

end Topic

/-! ## The shape of answers -/

/-- The shape of a value of a plain type. -/
def plainShape (type : String) : Json := .obj [("type", type)]

/-- The shape of a text. -/
def textShape : Json := plainShape "string"

/-- The shape of a list of values of one shape. -/
def listShape (item : Json) : Json := .obj [("type", "array"), ("items", item)]

/-- The shape of one of some words. -/
def wordShape (words : List String) : Json := .obj [("type", "string"), ("enum", .strings words)]

/-- The shape of a record, with the members that it must have. -/
def recordShape (required : List String) (members : List (String × Json)) : Json :=
  .obj [("type", "object"), ("required", .strings required), ("properties", .obj members)]

/-- The shape of a field of a data model. -/
def fieldShape : Json :=
  recordShape ["name"] [("name", textShape), ("type", textShape), ("description", textShape),
    ("required", plainShape "boolean")]

namespace Topic

/-- The shape of one record of an answer. -/
def shape : Topic → Json
  | endpoints => recordShape ["method", "path"] [
      ("method", textShape), ("path", textShape), ("file", textShape),
        ("line", plainShape "integer"),
      ("handler", textShape), ("description", textShape), ("parameters", listShape textShape),
      ("response_type", textShape)]
  | models => recordShape ["name"] [
      ("name", textShape),
      ("model_type", wordShape ["class", "struct", "interface", "type_alias", "enum", "trait",
        "protocol", "dataclass", "pydantic", "schema"]),
      ("file", textShape), ("line", plainShape "integer"), ("description", textShape),
      ("parent", textShape), ("fields", listShape fieldShape), ("methods", listShape textShape)]
  | settings => recordShape ["key"] [
      ("key", textShape),
      ("source", .obj [("type", "string"), ("description", "env, file, constant, flag, ...")]),
      ("file", textShape), ("line", plainShape "integer"), ("default", textShape),
      ("description", textShape), ("required", plainShape "boolean")]
  | sideEffects => recordShape ["category", "operation"] [
      ("category", wordShape ["database", "http", "file", "queue", "cache", "email", "notification",
        "external_api", "cloud_service"]),
      ("operation", textShape), ("target", textShape), ("file", textShape),
      ("line", plainShape "integer"), ("description", textShape)]

end Topic

/-! ## Questions -/

/-- A file as it is sent: its path and its text between fences, the text cut to so many
characters. -/
def fileText (limit : Nat) (f : SourceFile) : String :=
  let shown := f.content.take limit
  let more := if shown.length < f.content.length then "\n... (truncated)" else ""
  let fence := String.ofList (List.replicate 3 (Char.ofNat 96))
  "### File: " ++ f.rel ++ "\n" ++ fence ++ "\n" ++ String.ofList shown ++ more ++ "\n" ++ fence ++
    "\n\n"

/-- The request for records of a shape. -/
def askFor (system user : String) (maxTokens : Nat) (shape : Json) : Request where
  system := system
  user := user ++ "\n\nRespond with a JSON array only. Each element must match this JSON schema:\n"
    ++ shape.sorted.renderPretty
  maxTokens := maxTokens

end CodeAtlas.Assist
