import CodeAtlas.Manifest.Basic
import CodeAtlas.Source.Python.Classes

/-!
# Python sources

Endpoints come from decorators of functions and from tables of paths, settings from calls and from
the fields of classes that are read from the environment.
-/

namespace CodeAtlas.Source.Python

open Text

/-! ## Endpoints -/

/-- The decorator of a function that answers requests. -/
def routeDecorator : Pattern := .ofString
  r#"(?m)^[ \t]*@(?P<recv>\w+)\.(?P<method>route|api_route|get|post|put|patch|delete|options|head|websocket)\(\s*[rfb]?['"](?P<path>[^'"]*)['"](?P<args>[^\n]*)"#

/-- The methods in the arguments of a decorator. -/
def methodsArgument : Pattern := .ofString
  r"\bmethods\s*=\s*[\[(](?P<m>[^\])]*)[\])]"

/-- A router with the path in front of its routes. -/
def routerPath : Pattern := .ofString
  r#"(?m)^(?P<var>\w+)\s*=\s*(?:APIRouter|Blueprint)\([^)]*?\b(?:url_)?prefix\s*=\s*['"](?P<prefix>[^'"]*)['"]"#

/-- The keyword and the name of a function. -/
def functionName : Pattern := .ofString
  r"\bdef\s+(?P<name>\w+)"

/-- An entry in a table of paths. -/
def pathCall : Pattern := .ofString
  r#"(?m)(?:^|[\s(\[,=])(?:re_path|path|url)\(\s*r?['"](?P<path>[^'"]*)['"]\s*,\s*(?P<view>[\w.]+(?:\.as_view\(\))?)"#

/-- A parameter in a path. -/
def pathParameter : Pattern := .ofString
  r"\x7b(?P<a>\w+)(?::[^\x7d]*)?\x7d|<(?:\w+:)?(?P<b>\w+)>"

/-- A text in quotes. -/
def quotedText : Pattern := .ofString
  r#"['"]([^'"]+)['"]"#

/-- The parameters in a path. -/
def pathParameters (path : String) : List String :=
  (pathParameter.findAll path.toList).filterMap fun m => (m.capture? "a").or (m.capture? "b")

/-- The path with a slash in front. -/
def rooted (path : List Char) : List Char := if path.head? == some '/' then path else '/' :: path

/-- The path of a route below the path of its router. -/
def joinRoute (router path : String) : String :=
  let front := trimEndWhile (· == '/') router.toList
  let path := path.toList.dropWhile (· == '/')
  String.ofList (
    if front.isEmpty then '/' :: path
    else if path.isEmpty then rooted front
    else rooted front ++ '/' :: path)

/-- The framework that a file mentions. -/
def framework (text : List Char) : String :=
  if containsWord text "fastapi".toList then "fastapi"
  else if containsWord text "flask".toList then "flask"
  else "router"

/-- The methods of a route: the one that its decorator names, or those in its arguments. -/
def routeMethods (m : Match) : List String :=
  let word := m.textOf "method"
  if word == "route" || word == "api_route" then
    let named := ((methodsArgument.find? (m.textOf "args").toList).map fun a =>
      (quotedText.findAll (a.textOf "m").toList).map fun q => asciiUppered (q.text 1)).getD []
    if named.isEmpty then ["GET"] else named
  else [asciiUppered word]

/-- The endpoints of a file's decorators. -/
def decoratorEndpoints (r : Repository) (f : SourceFile) : List Endpoint :=
  let routers := ((routerPath.findAll f.content).map fun m =>
    (m.textOf "var", m.textOf "prefix")).reverse
  (f.find routeDecorator).flatMap fun (line, m) =>
    let path := joinRoute ((routers.lookup (m.textOf "recv")).getD "") (m.textOf "path")
    let below := (dropBytes? m.stop f.content).getD []
    (routeMethods m).map fun method =>
      { r.endpoint f line method path with
        handler := (functionName.find? below).map (·.textOf "name")
        parameters := pathParameters path
        decorators := [framework f.content] }

/-- The endpoint of an entry in a table of paths. -/
def tableEndpoint? (r : Repository) (f : SourceFile) (m : Match) : Option Endpoint :=
  (m.named? "path").map fun path =>
    let text := trimEndWhile (· == '$') (path.text.toList.dropWhile (· == '^'))
    let route := String.ofList ('/' :: text.dropWhile (· == '/'))
    { r.endpoint f (lineAt f.content path.start) "ANY" route with
      handler := m.capture? "view"
      parameters := pathParameters route
      decorators := ["django"] }

/-- The endpoints of a file's table of paths. -/
def tableEndpoints (r : Repository) (f : SourceFile) : List Endpoint :=
  if f.name == "urls.py" || containsWord f.content "urlpatterns".toList then
    (pathCall.findAll f.content).filterMap (tableEndpoint? r f)
  else []

/-! ## Side effects and settings -/

/-- The rules for side effects. -/
def effects : List EffectRule := effectRules [
  (r"\b\w*session\.(?P<op>query|add_all|add|delete|commit|merge|execute|flush)\(\s*(?P<target>[A-Z]\w*)?",
    .database, "session", ""),
  (r#"\b(?:cursor|cur|conn|connection|engine|db)\.(?P<op>executemany|execute)\(\s*(?:f?(?:'''|"""|'|")[^'"]*?\b(?i:from|into|update)\s+(?P<target>\w+))?"#,
    .database, "execute", ""),
  (r"\b(?P<target>[A-Z]\w+)\.objects\.(?P<op>filter|get_or_create|update_or_create|get|create|all|exclude|update|delete|bulk_create|values|count|first)\(",
    .database, "orm", ""),
  (r#"\b(?:requests|httpx)\.(?P<op>get|post|put|patch|delete|head|request)\(\s*(?:f?['"](?P<target>[^'"]+)['"])?"#,
    .http, "request", ""),
  (r"\b(?:httpx\.(?:Async)?Client|aiohttp\.ClientSession)\(", .http, "client", ""),
  (r#"\burlopen\(\s*(?:f?['"](?P<target>[^'"]+)['"])?"#, .http, "urlopen", ""),
  (r#"\bboto3\.(?:client|resource)\(\s*['"]s3['"]"#, .cloudService, "client", "s3"),
  (r#"\bboto3\.(?:client|resource)\(\s*['"]dynamodb['"]"#, .database, "client", "dynamodb"),
  (r#"\bboto3\.(?:client|resource)\(\s*['"]sqs['"]"#, .queue, "client", "sqs"),
  (r#"\bboto3\.(?:client|resource)\(\s*['"]sns['"]"#, .notification, "client", "sns"),
  (r#"\bboto3\.(?:client|resource)\(\s*['"]lambda['"]"#, .cloudService, "client", "lambda"),
  (r#"\bboto3\.(?:client|resource)\(\s*['"]ses['"]"#, .email, "client", "ses"),
  (r#"\bboto3\.(?:client|resource)\(\s*['"]kinesis['"]"#, .queue, "client", "kinesis"),
  (r#"\bboto3\.(?:client|resource)\(\s*['"](?P<target>secretsmanager|ssm|stepfunctions|events|sts|ecs|cloudwatch)['"]"#,
    .cloudService, "client", ""),
  (r"\.(?P<op>put_object|get_object|upload_file|download_file|delete_object|upload_fileobj)\(",
    .cloudService, "s3", "s3"),
  (r"\b\w*(?:table|dynamodb)\w*\.(?P<op>put_item|get_item|update_item|delete_item|batch_write_item|query|scan)\(",
    .database, "dynamodb", "dynamodb"),
  (r"\.(?P<op>send_message_batch|send_message|receive_message|delete_message)\(",
    .queue, "sqs", "sqs"),
  (r"\b\w*sns\w*\.publish\(", .notification, "publish", "sns"),
  (r"\.invoke\(\s*FunctionName\s*=", .cloudService, "invoke", "lambda"),
  (r#"\bopen\(\s*(?:f?['"](?P<target>[^'"]+)['"])?"#, .file, "open", ""),
  (r"\.(?P<op>write_text|write_bytes|read_text|read_bytes)\(", .file, "path", ""),
  (r"\bshutil\.(?P<op>copy2|copyfile|copy|move|rmtree)\(", .file, "shutil", ""),
  (r"\bos\.(?P<op>remove|unlink|makedirs|rename)\(", .file, "os", ""),
  (r"\bredis\.(?:Redis|StrictRedis|from_url)\(", .cache, "connect", "redis"),
  (r"\b\w*[Rr]edis\w*\.(?P<op>get|set|setex|delete|hget|hset|incr|expire|lpush|rpush|publish)\(",
    .cache, "redis", "redis"),
  (r"\bcache\.(?P<op>get|set|delete|get_or_set)\(", .cache, "cache", "cache"),
  (r"\bsmtplib\.SMTP(?:_SSL)?\(", .email, "smtp", "smtp"),
  (r"\.sendmail\(", .email, "sendmail", "smtp"),
  (r"\bsend_mail\(", .email, "send_mail", "django"),
  (r"\b\w+\.(?P<op>delay|apply_async)\(", .queue, "task", "celery")]

/-- The rules for settings. -/
def settingCalls : List SettingRule := settingRules [
  (r#"\bos\.environ\.get\(\s*['"](?P<key>\w+)['"]\s*(?:,\s*(?P<default>[^)]+?)\s*)?\)"#, "env"),
  (r#"\bos\.getenv\(\s*['"](?P<key>\w+)['"]\s*(?:,\s*(?P<default>[^)]+?)\s*)?\)"#, "env"),
  (r#"\bos\.environ\[\s*['"](?P<key>\w+)['"]\s*\]"#, "env"),
  (r#"\bconfig\(\s*['"](?P<key>[A-Z][A-Z0-9_]*)['"]\s*(?:,\s*default\s*=\s*(?P<default>[^,)]+))?"#,
    "decouple")]

/-- What the environment variables of a class start with. -/
def variablePrefix : Pattern := .ofString
  r#"\benv_prefix\s*=\s*['"](?P<p>[^'"]*)['"]"#

/-- The settings of a class whose fields are read from the environment. -/
def classSettings (r : Repository) (f : SourceFile) (c : Class) : List Setting :=
  if c.bases.any fun b => shortName b == "BaseSettings" then
    let found := variablePrefix.find? (['\n'].intercalate c.body)
    let lead := (found.map (·.textOf "p")).getD ""
    c.model.fields.map fun field =>
      let declares (l : List Char) : Bool := startsWith (trimStart l) (field.name.toList ++ [':'])
      let line := ((c.body.findIdx? declares).map fun i => c.start + i + 1).getD c.model.line
      { r.setting f line (asciiUppered (lead ++ field.name)) "pydantic_settings" with
        default := field.default
        description := field.description
        required := field.required }
  else []

/-- A setting without a default that only says that there is none. -/
def dropNoDefault (s : Setting) : Setting :=
  if s.default = some "None" then { s with default := none, required := false } else s

/-- The settings of a file. -/
def fileSettings (r : Repository) (f : SourceFile) : Except Failure (List Setting) := do
  let (called, seen) := scanSettings r settingCalls f {}
  let classes ← if containsWord f.content "BaseSettings".toList then classes r f else .ok []
  let read := (newSettings (classes.flatMap (classSettings r f)) seen).1
  return (called ++ read).map dropNoDefault

/-! ## The analyzer -/

/-- Analyzes Python sources. -/
def analyzer : Analyzer where
  language := "python"
  extensions := ["py"]
  extract r :=
    let files := r.examined ["py"]
    { models := models r files
      endpoints := .ok (files.flatMap fun f => decoratorEndpoints r f ++ tableEndpoints r f)
      sideEffects := .ok (scanAllEffects r effects files)
      settings := (files.mapM (fileSettings r)).map List.flatten
      dependencies := .ok (r.dependencies [.requirements, .pyproject]) }

end CodeAtlas.Source.Python
