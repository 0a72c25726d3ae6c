import CodeAtlas.Scan
import CodeAtlas.Text.Block
import CodeAtlas.Analyzer
import CodeAtlas.Language.Basic
import CodeAtlas.Manifest.Basic
import CodeAtlas.Source.Script.Types

/-!
# Script sources

The rules for side effects and settings of TypeScript and JavaScript, and their analyzers. Both
languages are analyzed in the same way; only the extensions differ.
-/

namespace CodeAtlas.Source.Script

open Text

/-!
## Routes in script sources

Routes that a router object declares, methods of controller classes with decorators, and files whose
place makes them routes.
-/

/-- A route that a router object declares. -/
def routeCall : Pattern := .ofString
  r#"\b(?:app|router|server|api|fastify|hono|routes|r)\.(?P<method>get|post|put|patch|delete|options|head|all)\(\s*['"`](?P<path>/[^'"`]*)['"`]\s*(?:,\s*(?P<handler>[\w.]+)\s*[,)])?"#

/-- The decorator of a controller. -/
def controllerDecorator : Pattern := .ofString
  r#"@Controller\(\s*(?:['"`](?P<prefix>[^'"`]*)['"`])?\s*\)"#

/-- The keyword and the name of a class. -/
def classKeyword : Pattern := .ofString
  r"\bclass\s+\w+"

/-- The decorator of a controller's method, and the method's name. -/
def routeDecorator : Pattern := .ofString
  r#"@(?P<method>Get|Post|Put|Patch|Delete|Options|Head|All)\(\s*(?:['"`](?P<path>[^'"`]*)['"`])?\s*\)(?:\s*@\w+\([^)]*\))*\s*(?:public\s+|private\s+|protected\s+)?(?:async\s+)?(?P<handler>\w+)\s*\("#

/-- A handler that a file exports under the name of its method. -/
def exportedMethod : Pattern := .ofString
  r"(?m)^export\s+(?:async\s+function\s+|function\s+|const\s+)(?P<method>GET|POST|PUT|PATCH|DELETE|HEAD|OPTIONS)\b"

/-- The path of two parts, without empty names. -/
def joinPaths (front path : String) : String :=
  let names := [front, path].flatMap fun p => (splitChar '/' p.toList).filter fun s => !s.isEmpty
  "/" ++ String.ofList (['/'].intercalate names)

/-- The method of a route, in capitals, with `ANY` for all. -/
def methodOf (all word : String) : String := if word == all then "ANY" else asciiUppered word

/-- The endpoints that router objects declare. -/
def routerEndpoints (r : Repository) (f : SourceFile) : List Endpoint :=
  (f.find routeCall).map fun (line, m) =>
    { r.endpoint f line (methodOf "all" (m.textOf "method")) (m.textOf "path") with
      handler := m.capture? "handler", decorators := ["router"] }

/-- The endpoint of a controller's method; the body of the controller starts at a byte offset. -/
def controllerEndpoint (r : Repository) (f : SourceFile) (front : String) (start : Nat)
    (m : Match) :
    Endpoint :=
  let path := joinPaths front (m.textOf "path")
  { r.endpoint f (lineAt f.content (start + m.start)) (methodOf "All" (m.textOf "method")) path with
    handler := m.capture? "handler", decorators := ["nestjs"] }

/-- The endpoints of the controllers of a file. -/
def controllerEndpoints (r : Repository) (f : SourceFile) : List Endpoint :=
  (controllerDecorator.findAll f.content).flatMap fun m =>
    let found? := do
      let keyword ← classKeyword.find? (← dropBytes? m.stop f.content)
      let (start, stop) ← braceRange? .slashed f.content (m.stop + keyword.stop)
      let front := (m.capture? "prefix").getD ""
      return (routeDecorator.findAll (slice f.content start stop)).map
        (controllerEndpoint r f front start)
    found?.getD []

/-- What the place of a file says about its route. -/
inductive FileRoute where
  /-- The file's default export answers all methods. -/
  | page (path : String)
  /-- The file exports a handler for each method. -/
  | app (path : String)
  deriving DecidableEq, Repr

/-- The names behind the first pair of names that are next to each other. -/
def namesFrom? (a b : String) : List String → Option (List String)
  | x :: y :: rest => if x == a && y == b then some (y :: rest) else namesFrom? a b (y :: rest)
  | _ => none

/-- The path that some names make. -/
def pathOf (names : List String) : String := "/" ++ String.intercalate "/" names

/-- Whether a folder only groups routes, so that its name is not in their paths. -/
def isGroup (name : String) : Bool :=
  let chars := name.toList
  startsWith chars ['('] && endsWith chars [')']

/-- The route of a file, from its path. -/
def fileRoute? (rel : String) : Option FileRoute :=
  let stem := ((cutLast? ['.'] rel.toList).map (·.1)).getD rel.toList
  let names := (splitChar '/' stem).map String.ofList
  match namesFrom? "pages" "api" names with
  | some names =>
      some (.page (pathOf (if names.getLast? == some "index" then names.dropLast else names)))
  | none =>
      if names.getLast? == some "route" && names.contains "app" then
        let inner := ((names.dropWhile (· != "app")).drop 1).dropLast
        some (.app (pathOf (inner.filter fun name => !isGroup name)))
      else none

/-- The line of the first default export, or the first line. -/
def defaultExportLine (text : List Char) : Nat :=
  match (lines text).findIdx? fun line => containsWord line "export default".toList with
  | some i => i + 1
  | none => 1

/-- The endpoints that a file has by its place. -/
def fileEndpoints (r : Repository) (f : SourceFile) : List Endpoint :=
  let endpoint (line : Nat) (method path handler : String) : Endpoint :=
    { r.endpoint f line method path with handler := some handler, decorators := ["nextjs"] }
  match fileRoute? f.rel with
  | none => []
  | some (.page path) => [endpoint (defaultExportLine f.content) "ANY" path "default"]
  | some (.app path) => (f.find exportedMethod).map fun (line, m) =>
      endpoint line (m.textOf "method") path (m.textOf "method")

/-! ## Side effects and settings -/

/-- The rules for side effects. -/
def effects : List EffectRule := effectRules [
  (r"\bprisma\.(?P<target>\w+)\.(?P<op>findMany|findUnique|findFirst|create|createMany|update|updateMany|upsert|delete|deleteMany|count|aggregate)\(",
    .database, "prisma", ""),
  (r"\bprisma\.\$(?P<op>queryRaw|executeRaw)", .database, "raw", "prisma"),
  (r"\bgetRepository\(\s*(?P<target>\w+)\s*\)", .database, "repository", ""),
  (r"\b\w*[Rr]epo(?:sitory)?\.(?P<op>save|find|findOne|findOneBy|findBy|insert|update|delete|remove|createQueryBuilder)\(",
    .database, "typeorm", ""),
  (r"\b(?P<target>[A-Z]\w+)\.(?P<op>findAll|findByPk|findOne|findOrCreate|bulkCreate|destroy|create|findById|findOneAndUpdate|insertMany|updateOne|updateMany|deleteOne|deleteMany|aggregate|countDocuments)\(",
    .database, "model", ""),
  (r#"\bmongoose\.model\(\s*['"](?P<target>\w+)['"]"#, .database, "model", ""),
  (r#"\bfetch\(\s*(?:['"`](?P<target>[^'"`]+)['"`])?"#, .http, "fetch", ""),
  (r#"\baxios\.(?P<op>get|post|put|patch|delete|request|head)\(\s*(?:['"`](?P<target>[^'"`]+)['"`])?"#,
    .http, "request", ""),
  (r"\baxios\(\s*\x7b", .http, "request", "axios"),
  (r"\bnew\s+S3(?:Client)?\(", .cloudService, "client", "s3"),
  (r"\bnew\s+(?P<op>PutObject|GetObject|DeleteObject|CopyObject|ListObjectsV2)Command\(",
    .cloudService, "s3", "s3"),
  (r"\bnew\s+(?:DynamoDB(?:Client)?|DocumentClient|DynamoDBDocumentClient)\(",
    .database, "client", "dynamodb"),
  (r"\bnew\s+(?P<op>PutItem|GetItem|UpdateItem|DeleteItem|BatchWriteItem|Put|Get|Query|Scan|Update|Delete)Command\(",
    .database, "dynamodb", "dynamodb"),
  (r"\bnew\s+SQS(?:Client)?\(", .queue, "client", "sqs"),
  (r"\bnew\s+(?P<op>SendMessage|SendMessageBatch|ReceiveMessage|DeleteMessage)Command\(",
    .queue, "sqs", "sqs"),
  (r"\bnew\s+(?:SNS(?:Client)?\(|PublishCommand\()", .notification, "publish", "sns"),
  (r"\bnew\s+(?:Lambda(?:Client)?\(|InvokeCommand\()", .cloudService, "invoke", "lambda"),
  (r"\bnew\s+(?:SES(?:Client)?\(|SendEmailCommand\()", .email, "send_email", "ses"),
  (r#"\bfs(?:\.promises)?\.(?P<op>writeFileSync|writeFile|readFileSync|readFile|appendFileSync|appendFile|unlinkSync|unlink|mkdirSync|mkdir|createWriteStream|createReadStream|rmSync|rm)\(\s*(?:['"`](?P<target>[^'"`]+)['"`])?"#,
    .file, "file", ""),
  (r"\b\w*[Rr]edis\w*\.(?P<op>get|set|setex|del|hget|hset|hgetall|expire|incr|lpush|rpush|publish|subscribe)\(",
    .cache, "redis", "redis"),
  (r"\bnew\s+(?:Redis|IORedis)\(", .cache, "connect", "redis"),
  (r"\bredis\.createClient\(", .cache, "connect", "redis"),
  (r"\bnodemailer\.createTransport\(", .email, "create_transport", "smtp"),
  (r"\b\w*[Tt]ransport(?:er)?\.sendMail\(", .email, "send_mail", "smtp"),
  (r#"\bnew\s+(?:Queue|Bull)\(\s*['"](?P<target>[^'"]+)['"]"#, .queue, "queue", "")]

/-- The built-in classes that look like models. -/
def builtinClasses : List String := [
  "Object", "Array", "Promise", "Math", "JSON", "Date", "Reflect", "Number", "String", "Symbol",
  "Map", "Set", "React", "Buffer", "URL"]

/-- The side effects of files, without those on built-in classes. -/
def sideEffects (r : Repository) (files : List SourceFile) : List SideEffect :=
  (scanAllEffects r effects files).filter fun e =>
    !(e.target.map builtinClasses.contains).getD false

/-- The pattern for a default behind an environment variable. -/
def defaultValue : String :=
  r#"(?:\s*(?:\|\||\?\?)\s*(?P<default>'[^']*'|"[^"]*"|`[^`]*`|[\w.-]+))?"#

/-- The rules for settings. -/
def settingCalls : List SettingRule := settingRules [
  (r"\bprocess\.env\.(?P<key>[A-Za-z_]\w*)" ++ defaultValue, "env"),
  (r#"\bprocess\.env\[\s*['"](?P<key>[^'"]+)['"]\s*\]"# ++ defaultValue, "env"),
  (r"\bimport\.meta\.env\.(?P<key>[A-Za-z_]\w*)" ++ defaultValue, "import_meta")]

/-- Whether a file only declares the types of another one. -/
def isDeclarationFile (f : SourceFile) : Bool := endsWith f.rel.toList ".d.ts".toList

/-- Analyzes the script sources with certain extensions. -/
def analyzerFor (language : Language) (extensions : List String) : Analyzer where
  language := language.label
  extensions
  extract r :=
    let files := r.examined extensions
    let declaring := (untested files).filter fun f => !isDeclarationFile f
    { models := .ok (declaring.flatMap (fileModels r))
      endpoints := .ok (files.flatMap fun f =>
        routerEndpoints r f ++ controllerEndpoints r f ++ fileEndpoints r f)
      sideEffects := .ok (sideEffects r files)
      settings := .ok (scanAllSettings r settingCalls files)
      dependencies := .ok (r.dependencies [.packageJson]) }

/-- The extensions of plain scripts. -/
def plainExtensions : List String := ["js", "jsx", "mjs", "cjs"]

/-- Analyzes TypeScript sources, and the plain scripts beside them. -/
def typedAnalyzer : Analyzer := analyzerFor .typeScript ("ts" :: "tsx" :: plainExtensions)

/-- Analyzes JavaScript sources. -/
def plainAnalyzer : Analyzer := analyzerFor .javaScript plainExtensions

end CodeAtlas.Source.Script
