import CodeAtlas.Analyzer
import CodeAtlas.Manifest.Basic
import CodeAtlas.Source.Php.Types
import CodeAtlas.Source.Php.Validation

/-!
# PHP sources

Endpoints come from calls that declare routes, and from controllers whose validation rules or whose
dispatch of calls names what can be asked for.
-/

namespace CodeAtlas.Source.Php

open Text

/-! ## Controllers -/

/-- The property with the validation rules of a controller. -/
def validationRules : Pattern := .ofString
  r"\$_validationRules\s*=\s*(?:array\s*\(|\[)"

/-- The header of the method that dispatches calls. -/
def dispatchHeader : Pattern := .ofString
  r"function\s+__call\s*\("

/-- A case of a dispatch. -/
def caseLabel : Pattern := .ofString
  r#"\bcase\s+['"](?P<name>[\w-]+)['"]\s*:"#

/-- The first part of the paths of a controller, from its name. -/
def controllerPath (name : String) : String :=
  let chars := name.toList
  let stem :=
    ((before? "_Controller".toList chars).or (after? "Controller_".toList chars)).getD chars
  String.ofList (asciiLower stem)

/-- The endpoints of a controller's validation rules; its body starts at a byte offset. -/
def ruleEndpoints (r : Repository) (f : SourceFile) (name : String) (start : Nat)
    (body : List Char) : List Endpoint :=
  let found? := do
    let m ← validationRules.find? body
    let opener := start + m.stop - 1
    let isList := ((dropBytes? opener f.content).getD []).head? == some '['
    let stop ← if isList then findBalanced .php '[' ']' f.content opener
      else findBalanced .php '(' ')' f.content opener
    return ruleKeys (slice f.content (opener + 1) stop) (opener + 1)
  (found?.getD []).map fun key =>
    let path := "/" ++ controllerPath name ++ "/" ++ key.entity
    { r.endpoint f (lineAt f.content key.offset) key.method path with
      handler := some name, decorators := ["kohana_rest"] }

/-- The endpoints of a controller's dispatch of calls. -/
def dispatchEndpoints (r : Repository) (f : SourceFile) (name : String) (start : Nat)
    (body : List Char) : List Endpoint :=
  (dispatchHeader.findAll body).flatMap fun m =>
    match braceRange? .php f.content (start + m.start) with
    | none => []
    | some (first, stop) =>
        (caseLabel.findAll (slice f.content first stop)).filterMap fun c =>
          (c.named? "name").map fun label =>
            let path := "/" ++ controllerPath name ++ "/" ++ label.text
            { r.endpoint f (lineAt f.content (first + label.start)) "ANY" path with
              handler := some (name ++ "::__call"), decorators := ["kohana_call"] }

/-- The endpoints of a file's controllers. A dispatch counts only where there are no rules. -/
def controllerEndpoints (r : Repository) (f : SourceFile) : List Endpoint :=
  (typeHeader.findAll f.content).flatMap fun m =>
    match braceRange? .php f.content m.start with
    | none => []
    | some (start, stop) =>
        let body := slice f.content start stop
        let name := m.textOf "name"
        match ruleEndpoints r f name start body with
        | [] => dispatchEndpoints r f name start body
        | found => found

/-! ## Routes -/

/-- A route of one method. -/
def routeCall : Pattern := .ofString
  r#"\bRoute::(?P<method>get|post|put|patch|delete|options|any)\(\s*['"](?P<path>[^'"]*)['"]\s*(?:,\s*(?:\[\s*(?P<class>[\w\\]+)::class\s*,\s*['"](?P<action>\w+)['"]\s*\]|['"](?P<handler>[^'"]+)['"]))?"#

/-- A route of several methods. -/
def matchCall : Pattern := .ofString
  r#"\bRoute::match\(\s*\[(?P<methods>[^\]]*)\]\s*,\s*['"](?P<path>[^'"]*)['"]"#

/-- A route that an application or router object declares. -/
def slimCall : Pattern := .ofString
  r#"\$(?:app|router|group|r)->(?P<method>get|post|put|patch|delete|options|any)\(\s*['"](?P<path>/[^'"]*)['"]\s*(?:,\s*['"]?(?P<handler>[\w\\:@]+))?"#

/-- A text in quotes. -/
def quotedText : Pattern := .ofString
  r#"['"]([^'"]+)['"]"#

/-- The path with a slash in front. -/
def rooted (path : String) : String := if path.toList.head? == some '/' then path else "/" ++ path

/-- The endpoint of a route. -/
def route (r : Repository) (f : SourceFile) (line : Nat) (m : Match) (method : String)
    (handler : Option String) (framework : String) : Endpoint :=
  { r.endpoint f line (asciiUppered method) (rooted (m.textOf "path")) with
    handler, decorators := [framework] }

/-- The handler of a route: the action of a class, or a name. -/
def routeHandler? (m : Match) : Option String :=
  match m.capture? "class", m.capture? "action" with
  | some c, some action => some (c ++ "@" ++ action)
  | _, _ => m.capture? "handler"

/-- The endpoints of a file's routes. -/
def routeEndpoints (r : Repository) (f : SourceFile) : List Endpoint :=
  ((f.find routeCall).map fun (line, m) =>
    route r f line m (m.textOf "method") (routeHandler? m) "laravel") ++
  ((f.find matchCall).flatMap fun (line, m) =>
    (quotedText.findAll (m.textOf "methods").toList).map fun q =>
      route r f line m (q.text 1) none "laravel") ++
  (f.find slimCall).map fun (line, m) =>
    route r f line m (m.textOf "method") (m.capture? "handler") "slim"

/-! ## Side effects and settings -/

/-- The rules for side effects. -/
def effects : List EffectRule := effectRules [
  (r#"->(?P<op>query|exec|prepare)\(\s*["'][^"']*?\b(?i:from|into|update)\s+`?(?P<target>\w+)"#,
    .database, "query", ""),
  (r"->(?P<op>query|exec|prepare)\(\s*\$", .database, "query", ""),
  (r#"\bmysqli_(?P<op>query|prepare|multi_query)\(\s*\$\w+\s*,\s*(?:["'][^"']*?\b(?i:from|into|update)\s+`?(?P<target>\w+))?"#,
    .database, "query", ""),
  (r#"\bDB::table\(\s*['"](?P<target>\w+)['"]"#, .database, "table", ""),
  (r#"\bDB::(?P<op>select|insert|update|delete|statement)\(\s*['"][^'"]*?\b(?i:from|into|update)\s+`?(?P<target>\w+)"#,
    .database, "query", ""),
  (r"\b(?P<target>[A-Z]\w+)::(?P<op>where|find|findOrFail|create|firstOrCreate|updateOrCreate|destroy)\(",
    .database, "eloquent", ""),
  (r#"\bcurl_init\(\s*(?:['"](?P<target>[^'"]+)['"])?"#, .http, "curl", ""),
  (r#"\$(?:client|http|guzzle|httpClient)\w*->(?P<op>get|post|put|patch|delete|request|requestAsync|send)\(\s*(?:['"](?:[A-Z]+['"]\s*,\s*['"])?(?P<target>[^'"]+)['"])?"#,
    .http, "request", ""),
  (r"\bnew\s+\\?(?:GuzzleHttp\\)?Client\(", .http, "guzzle_client", "guzzle"),
  (r#"\bHttp::(?P<op>get|post|put|patch|delete)\(\s*['"](?P<target>[^'"]+)['"]"#,
    .http, "request", ""),
  (r#"\bfile_get_contents\(\s*['"](?P<target>https?://[^'"]+)['"]"#, .http, "file_get_contents", ""),
  (r#"\b(?P<op>file_put_contents|fopen|fwrite|unlink|mkdir|move_uploaded_file)\(\s*(?:['"](?P<target>[^'"]+)['"])?"#,
    .file, "file", ""),
  (r"(?m)(?:^|[\s;=(!@])mail\(", .email, "mail", "mail"),
  (r"\bMail::(?P<op>send|to|queue|raw)\(", .email, "mail", "laravel_mail"),
  (r"\bnew\s+\\?(?:PHPMailer\\PHPMailer\\)?PHPMailer\b", .email, "phpmailer", "phpmailer"),
  (r"\bredis\w*->(?P<op>get|set|setex|setnx|del|hget|hset|hgetall|incr|expire|lpush|rpush|publish)\(",
    .cache, "redis", "redis"),
  (r"\bRedis::(?P<op>\w+)\(", .cache, "redis", "redis"),
  (r"\bnew\s+\\?Redis\(", .cache, "connect", "redis"),
  (r"\bnew\s+\\?Memcached?\(", .cache, "connect", "memcache"),
  (r"\bmemcached?\w*->(?P<op>get|set|add|replace|delete|increment|decrement)\(",
    .cache, "memcache", "memcache"),
  (r"\bCache::(?P<op>get|put|remember|forget|has|forever)\(", .cache, "cache", "cache"),
  (r"\bQueue::(?P<op>push|later|pushOn)\(", .queue, "queue", "queue")]

/-- Names of the framework's own classes, which look like models. -/
def facades : List String := ["Route", "Cache", "Mail", "Http"]

/-- The side effects of files, without those on the framework's own classes. -/
def sideEffects (r : Repository) (files : List SourceFile) : List SideEffect :=
  (scanAllEffects r effects files).filter fun e =>
    !(e.target.map facades.contains).getD false

/-- The rules for settings. -/
def settingCalls : List SettingRule := settingRules [
  (r#"\bdefine\(\s*['"](?P<key>\w+)['"]\s*,\s*(?P<default>[^)]+?)\s*\)"#, "constant"),
  (r#"\benv\(\s*['"](?P<key>\w+)['"]\s*(?:,\s*(?P<default>[^)]+?)\s*)?\)"#, "env"),
  (r#"\bgetenv\(\s*['"](?P<key>\w+)['"]\s*\)"#, "env"),
  (r#"\$_ENV\[\s*['"](?P<key>\w+)['"]\s*\]"#, "env")]

/-- A variable of the server. -/
def serverVariable : Pattern := .ofString
  r#"\$_SERVER\[\s*['"](?P<key>[A-Z][A-Z0-9_]*)['"]\s*\]"#

/-- What the names of those server variables start with that describe a request. -/
def requestVariables : List String := [
  "HTTP_", "REQUEST_", "SERVER_", "REMOTE_", "SCRIPT_", "QUERY_", "PHP_", "DOCUMENT_", "PATH_",
  "CONTENT_", "HTTPS", "ARGV", "ARGC"]

/-- The setting of a server variable that does not describe a request. -/
def serverSetting? (r : Repository) (f : SourceFile) (line : Nat) (m : Match) : Option Setting :=
  let key := m.textOf "key"
  if requestVariables.any fun lead => startsWith key.toList lead.toList then none
  else some (r.setting f line key "env")

/-- The settings of a file. -/
def fileSettings (r : Repository) (f : SourceFile) : List Setting :=
  let (called, seen) := scanSettings r settingCalls f {}
  let found := (f.find serverVariable).filterMap fun (line, m) => serverSetting? r f line m
  called ++ (newSettings found seen).1

/-! ## The analyzer -/

/-- Analyzes PHP sources. -/
def analyzer : Analyzer where
  language := "php"
  extensions := ["php"]
  extract r :=
    let files := r.examined ["php"]
    { models := .ok ((untested files).flatMap (fileModels r))
      endpoints := .ok (files.flatMap fun f => controllerEndpoints r f ++ routeEndpoints r f)
      sideEffects := .ok (sideEffects r files)
      settings := .ok (files.flatMap (fileSettings r))
      dependencies := .ok (r.dependencies [.composerJson]) }

end CodeAtlas.Source.Php
