import CodeAtlas.Analyzer
import CodeAtlas.Manifest.Basic
import CodeAtlas.Source.Rust.Types

/-!
# Rust sources

Endpoints come from routers, from resources and from attributes of functions; side effects and
settings from tables of rules.
-/

namespace CodeAtlas.Source.Rust

open Text

/-! ## Endpoints -/

/-- A route of a router. -/
def routeCall : Pattern := .ofString
  r#"\.route\(\s*"(?P<path>[^"]+)"\s*,"#

/-- A method of a route with its handler. -/
def methodCall : Pattern := .ofString
  r"(?:^|[^\w])(?P<method>get|post|put|patch|delete|head|options|any)\s*\(\s*(?P<handler>[A-Za-z_][\w:]*)?"

/-- A method of a resource with its handler. -/
def resourceMethod : Pattern := .ofString
  r"\bweb::(?P<method>get|post|put|patch|delete|head)\(\)\s*\.to\(\s*(?P<handler>[\w:]+)"

/-- A resource with its path. -/
def resourceCall : Pattern := .ofString
  r#"\bweb::resource\(\s*"(?P<path>[^"]+)"\s*\)"#

/-- The attribute of a function that answers requests. -/
def routeAttribute : Pattern := .ofString
  r#"(?m)^\s*#\[(?:(?:actix_web|rocket)::)?(?P<method>get|post|put|patch|delete|head|options)\(\s*"(?P<path>[^"]+)"[^\]]*\]"#

/-- The keyword and the name of a function. -/
def functionName : Pattern := .ofString
  r"\bfn\s+(?P<name>\w+)"

/-- A parameter in a path. -/
def pathParameter : Pattern := .ofString
  r"\x7b(?P<a>\w+)[^\x7d]*\x7d|<(?P<b>\w+)(?:\.\.)?>|/:(?P<c>\w+)|/\*(?P<d>\w+)"

/-- The parameters in a path. -/
def pathParameters (path : String) : List String :=
  (pathParameter.findAll path.toList).filterMap fun m =>
    ["a", "b", "c", "d"].findSome? m.capture?

/-- An endpoint with its parameters. -/
def endpoint (r : Repository) (f : SourceFile) (line : Nat) (method path : String)
    (handler : Option String) (framework : String) : Endpoint :=
  { r.endpoint f line (asciiUppered method) path with
    handler, parameters := pathParameters path, decorators := [framework] }

/-- The endpoints of a route: what its arguments behind the path name. -/
def routeEndpoints (r : Repository) (f : SourceFile) (line : Nat) (m : Match) : List Endpoint :=
  let arguments? := delimitedBody? .rust f.content (m.start + ".route".length)
  match arguments? >>= cut? [','] with
  | none => []
  | some (_, rest) =>
      let endpointsOf (framework : String) (calls : List Match) : List Endpoint :=
        calls.map fun c =>
        endpoint r f line (c.textOf "method") (m.textOf "path") (c.capture? "handler") framework
      match resourceMethod.findAll rest with
      | [] => endpointsOf "axum" (methodCall.findAll rest)
      | calls => endpointsOf "actix" calls

/-- The endpoints of a resource: the methods up to the next resource or the end of the statement. -/
def resourceEndpoints (r : Repository) (f : SourceFile) (line : Nat) (m : Match) : List Endpoint :=
  let rest := (dropBytes? m.stop f.content).getD []
  let statement := upTo [';'] (upTo "web::resource(".toList rest)
  (resourceMethod.findAll statement).map fun c =>
    endpoint r f line (c.textOf "method") (m.textOf "path") (c.capture? "handler") "actix"

/-- The endpoint of an attribute. -/
def attributeEndpoint (r : Repository) (f : SourceFile) (framework : String) (m : Match) :
    Endpoint :=
  let below := (dropBytes? m.stop f.content).getD []
  endpoint r f (lineAt f.content m.textStart) (m.textOf "method") (m.textOf "path")
    (functionName.find? below >>= (·.capture? "name")) framework

/-- The endpoints of a file. -/
def fileEndpoints (r : Repository) (f : SourceFile) : List Endpoint :=
  let framework := if containsWord f.content "rocket".toList then "rocket" else "actix"
  ((f.find routeCall).flatMap fun (line, m) => routeEndpoints r f line m) ++
  ((f.find resourceCall).flatMap fun (line, m) => resourceEndpoints r f line m) ++
  (routeAttribute.findAll f.content).map (attributeEndpoint r f framework)

/-! ## Side effects and settings -/

/-- The rules for side effects. -/
def effects : List EffectRule := effectRules [
  (r#"(?i)\bsqlx::query\w*!?\s*(?:::<[^>]*>)?\(\s*r?#?"(?:[^"]*?\b(?:FROM|INTO|UPDATE)\s+(?P<target>\w+))?"#,
    .database, "sqlx_query", ""),
  (r"\bsqlx::(?:Pg|MySql|Sqlite|Any)Pool::connect\w*\(", .database, "connect", "sqlx"),
  (r"(?:^|[^:\w])(?P<op>query(?:_as|_scalar)?)!\(", .database, "query", ""),
  (r"\bdiesel::(?P<op>insert_into|update|delete)\(\s*(?P<target>\w+)", .database, "diesel", ""),
  (r"\b(?:Pg|Mysql|Sqlite)Connection::establish\(", .database, "connect", "diesel"),
  (r"\breqwest::(?:blocking::)?get\(", .http, "get", "reqwest"),
  (r"\breqwest::(?:blocking::)?Client::(?:new|builder)\(\)", .http, "client", "reqwest"),
  (r#"\bclient\s*\.\s*(?P<op>get|post|put|patch|delete)\(\s*(?:"(?P<target>[^"]+)")?"#,
    .http, "request", ""),
  (r"\btokio::fs::(?P<op>read_to_string|read|write|create_dir_all|remove_file|remove_dir_all|copy|rename|create_dir)\(",
    .file, "fs", ""),
  (r"(?:^|[^:\w])(?:std::)?fs::(?P<op>read_to_string|read|write|create_dir_all|remove_file|remove_dir_all|copy|rename|create_dir)\(",
    .file, "fs", ""),
  (r"\bFile::(?P<op>open|create)\(", .file, "file", ""),
  (r"\baws_sdk_(?P<target>s3|dynamodb|sqs|sns|lambda|secretsmanager|ses|kinesis)::Client::new\(",
    .cloudService, "client", ""),
  (r"\.(?P<op>put_object|get_object|delete_object|list_objects_v2|head_object)\(\)",
    .cloudService, "s3", "s3"),
  (r"\.(?P<op>put_item|get_item|delete_item|update_item|batch_write_item)\(\)",
    .database, "dynamodb", "dynamodb"),
  (r"\.(?P<op>send_message|receive_message)\(\)", .queue, "sqs", "sqs"),
  (r"\.publish\(\)\s*\.\s*topic_arn\(", .notification, "publish", "sns"),
  (r"\.invoke\(\)\s*\.\s*function_name\(", .cloudService, "invoke", "lambda"),
  (r"\bredis::Client::open\(", .cache, "connect", "redis"),
  (r#"\bredis::cmd\(\s*"(?P<op>\w+)""#, .cache, "command", "redis"),
  (r"\b(?:con|conn|redis|redis_conn|cache)\s*\.\s*(?P<op>get|set|set_ex|del|incr|expire|hget|hset|lpush|rpush)\s*(?:::<[^>]*>)?\(",
    .cache, "command", "redis"),
  (r"\b(?:Async)?SmtpTransport::(?:relay|starttls_relay|builder_dangerous)\(",
    .email, "smtp", "lettre"),
  (r"\bbasic_publish\(", .queue, "publish", "amqp"),
  (r#"\bFutureRecord::to\(\s*&?\s*(?:"(?P<target>[^"]+)")?"#, .queue, "produce", "kafka")]

/-- The rules for settings whose absence the caller handles. -/
def optionalLookups : List SettingRule := settingRules [
  (r#"\boption_env!\(\s*"(?P<key>[^"]+)""#, "env"),
  (r#"\benv::var_os\(\s*"(?P<key>[^"]+)""#, "env"),
  (r#"\benv::var\(\s*"(?P<key>[^"]+)"\s*\)\s*\.\s*(?:ok|is_ok|is_err)\(\)"#, "env")]

/-- The rules for the other settings. -/
def lookups : List SettingRule := settingRules [
  (r#"\benv::var\(\s*"(?P<key>[^"]+)"\s*\)(?:\s*\.\s*unwrap_or(?:_else)?\(\s*(?:\|[^|]*\|\s*)?"(?P<default>[^"]*)")?"#,
    "env"),
  (r#"(?:^|[^_\w])env!\(\s*"(?P<key>[^"]+)""#, "compile_env"),
  (r#"\bdotenvy?::var\(\s*"(?P<key>[^"]+)"\s*\)(?:\s*\.\s*unwrap_or(?:_else)?\(\s*(?:\|[^|]*\|\s*)?"(?P<default>[^"]*)")?"#,
    "env"),
  (r#"#\[(?:clap|arg)\([^\]]*?\benv\s*=\s*"(?P<key>[^"]+)"(?:[^\]]*?\bdefault_value(?:_t)?\s*=\s*"?(?P<default>[^",)\]]+)"?)?"#,
    "clap")]

/-- The settings of a file. -/
def fileSettings (r : Repository) (f : SourceFile) : List Setting :=
  let (handled, seen) := scanSettings r optionalLookups f {}
  (handled.map fun s => { s with required := false }) ++ (scanSettings r lookups f seen).1

/-! ## The analyzer -/

/-- Analyzes Rust sources. -/
def analyzer : Analyzer where
  language := "rust"
  extensions := ["rs"]
  extract r :=
    let files := r.examined ["rs"]
    { models := .ok (models r files)
      endpoints := .ok (files.flatMap (fileEndpoints r))
      sideEffects := .ok (scanAllEffects r effects files)
      settings := .ok (files.flatMap (fileSettings r))
      dependencies := .ok (r.dependencies [.cargoToml]) }

end CodeAtlas.Source.Rust
