import CodeAtlas.Analyzer
import CodeAtlas.Manifest.Basic
import CodeAtlas.Source.Go.Types

/-!
# Go sources

Routes of routers and of the standard multiplexer, environment variables that the tags of fields
name, and the tables of rules for side effects and settings.
-/

namespace CodeAtlas.Source.Go

open Text

/-! ## Endpoints -/

/-- A route that names its method. -/
def methodRoute : Pattern := .ofString
  r#"\b\w+\.(?P<method>Get|Post|Put|Delete|Patch|Head|Options|Connect|Trace|GET|POST|PUT|DELETE|PATCH|HEAD|OPTIONS|Any)\(\s*"(?P<path>/[^"]*)"\s*(?:,\s*(?P<handler>[\w.]+))?"#

/-- A route whose methods follow, if any. -/
def handleRoute : Pattern := .ofString
  r#"\b(?P<recv>\w+)\.(?:HandleFunc|Handle)\(\s*"(?P<path>/[^"]*)"\s*,\s*(?P<handler>[\w.]+)(?:[^\n]*?\.Methods\((?P<methods>[^)]*)\))?"#

/-- A text in double quotes. -/
def quotedText : Pattern := .ofString r#""([^"]*)""#

/-- The endpoint of a route. -/
def endpoint (r : Repository) (f : SourceFile) (line : Nat) (m : Match)
    (method decorator : String) :
    Endpoint where
  method
  path := m.textOf "path"
  file := f.rel
  line
  handler := m.capture? "handler"
  decorators := [decorator]
  sourceLink := r.sourceLink f.rel line

/-- The methods that a route lists, or any. -/
def routeMethods (m : Match) : List String :=
  match (quotedText.findAll (m.textOf "methods").toList).map fun q => asciiUppered (q.text 1) with
  | [] => ["ANY"]
  | methods => methods

/-- The endpoints of a file. -/
def fileEndpoints (r : Repository) (f : SourceFile) : List Endpoint :=
  ((f.find methodRoute).map fun (line, m) =>
    endpoint r f line m (asciiUppered (m.textOf "method")) "router") ++
  (f.find handleRoute).flatMap fun (line, m) =>
    let decorator := if m.textOf "recv" == "http" then "net_http" else "mux"
    (routeMethods m).map fun method => endpoint r f line m method decorator

/-! ## Side effects and settings -/

/-- The rules for side effects. -/
def effects : List EffectRule := effectRules [
  (r#"\b(?:db|tx|conn|pool|DB|sqlDB|database)\.(?P<op>QueryRowContext|QueryContext|QueryRow|Query|SelectContext|Select|GetContext|Get)\([^"`\n)]*(?:[`"][^`"]*?\b(?i:from|join)\s+(?P<target>\w+))?"#,
    .database, "query", ""),
  (r#"\b(?:db|tx|conn|pool|DB|sqlDB|database)\.(?P<op>ExecContext|Exec|NamedExecContext|NamedExec)\([^"`\n)]*(?:[`"]\s*(?i:insert\s+into|update|delete\s+from)\s+(?P<target>\w+))?"#,
    .database, "exec", ""),
  (r"\bdb\.(?P<op>Create|Save|First|Find|Delete|Updates)\(", .database, "orm", "gorm"),
  (r"\.(?P<op>PutItem|GetItem|UpdateItem|DeleteItem|Scan|BatchWriteItem|BatchGetItem|TransactWriteItems)(?:WithContext)?\(",
    .database, "dynamodb", "dynamodb"),
  (r"\.(?P<op>PutObject|GetObject|DeleteObject|HeadObject|CopyObject|ListObjectsV2)(?:WithContext)?\(",
    .cloudService, "s3", "s3"),
  (r"\.(?P<op>SendMessageBatch|SendMessage|ReceiveMessage|DeleteMessage)(?:WithContext)?\(",
    .queue, "sqs", "sqs"),
  (r"\b(?:sns\w*|\w*[Ss]ns\w*)\.(?P<op>PublishBatch|Publish)(?:WithContext)?\(",
    .notification, "sns", "sns"),
  (r"\b(?:lambda\w*|\w*[Ll]ambda\w*)\.(?P<op>InvokeAsync|Invoke)(?:WithContext)?\(",
    .cloudService, "lambda", "lambda"),
  (r#"\bhttp\.(?P<op>Get|Post|PostForm|Head)\(\s*(?:"(?P<target>[^"]+)")?"#, .http, "request", ""),
  (r#"\bhttp\.NewRequest(?:WithContext)?\((?:\s*ctx\s*,)?\s*(?:http\.Method(?P<op>\w+)|"[A-Z]+")"#,
    .http, "request", ""),
  (r"\b\w+\.Do\(\s*req\b", .http, "do", ""),
  (r"\b(?:rdb|redis\w*|\w*[Rr]edis\w*|cache)\.(?P<op>Get|Set|SetNX|SetEX|Del|HGet|HSet|HGetAll|Expire|Incr|LPush|RPush|Publish|Subscribe)\(\s*ctx\b",
    .cache, "redis", "redis"),
  (r#"\b(?:os|ioutil)\.(?P<op>Create|OpenFile|Open|WriteFile|ReadFile|Remove|RemoveAll|MkdirAll)\(\s*(?:"(?P<target>[^"]+)")?"#,
    .file, "file", ""),
  (r"\bsmtp\.SendMail\(", .email, "send_mail", "smtp")]

/-- The rules for settings. -/
def settingCalls : List SettingRule := settingRules [
  (r#"\bviper\.SetDefault\(\s*"(?P<key>[^"]+)"\s*,\s*(?P<default>[^)]+)\)"#, "viper"),
  (r#"\bos\.(?:Getenv|LookupEnv)\(\s*"(?P<key>[^"]+)"\s*\)"#, "env"),
  (r#"\bviper\.Get(?:String|Int|Int64|Bool|Duration|Float64|StringSlice|StringMap)?\(\s*"(?P<key>[^"]+)"\s*\)"#,
    "viper")]

/-- A field's tag that names an environment variable. -/
def environmentTag : Pattern := .ofString r#"`(?P<tag>[^`]*\benv:"[^"]+"[^`]*)`"#

/-- The pairs of a tag, the last ones first. -/
def tagPairs (tag : List Char) : List (String × String) :=
  ((tagPair.findAll tag).map fun m => (m.textOf "k", m.textOf "v")).reverse

/-- The setting that a tag names. -/
def tagSetting? (r : Repository) (f : SourceFile) (tag : Group) : Option Setting := do
  let pairs := tagPairs tag.text.toList
  let value ← pairs.lookup "env"
  let key := String.ofList (value.toList.takeWhile (· != ','))
  if key.isEmpty then none
  let line := lineAt f.content tag.start
  let default := (pairs.lookup "default").or (pairs.lookup "envDefault")
  return {
    key, source := "struct_tag", file := f.rel, line, default
    description := (pairs.lookup "help").or (pairs.lookup "description")
    required := match pairs.lookup "required" with
      | some "true" => true
      | some "false" => false
      | _ => default.isNone
    sourceLink := r.sourceLink f.rel line }

/-- The settings of a file: first those that tags name. -/
def fileSettings (r : Repository) (f : SourceFile) : List Setting :=
  let tags := (environmentTag.findAll f.content).filterMap (·.named? "tag")
  let (tagged, seen) := newSettings (tags.filterMap (tagSetting? r f)) {}
  tagged ++ (scanSettings r settingCalls f seen).1

/-! ## The analyzer -/

/-- Analyzes Go sources. -/
def analyzer : Analyzer where
  language := "go"
  extensions := ["go"]
  extract r :=
    let files := r.examined ["go"]
    { models := .ok (models r files)
      endpoints := .ok (files.flatMap (fileEndpoints r))
      sideEffects := .ok (scanAllEffects r effects files)
      settings := .ok (files.flatMap (fileSettings r))
      dependencies := .ok (r.dependencies [.goMod]) }

end CodeAtlas.Source.Go
