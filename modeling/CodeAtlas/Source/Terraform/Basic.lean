import CodeAtlas.Analyzer
import CodeAtlas.Infra.Diagram
import CodeAtlas.Scan
import CodeAtlas.Source.Terraform.Block

/-!
# Terraform configurations

Resources, data and modules are models; the resources of a cloud are side effects too, and the
routes of its gateways are endpoints.
-/

namespace CodeAtlas.Source.Terraform

open Text

/-! ## What blocks depend on

A block depends on those whose addresses its body mentions. A mention may go on behind the address
with the name of one more part.
-/

/-- A mention of an address. -/
def mention : Pattern := .ofString
  r"\b(?:data\.[a-z][\w-]*\.[\w-]+|module\.[\w-]+|[a-z][a-z0-9]*_[\w-]+\.[A-Za-z_][\w-]*)"

/-- The known address that a mention leads to: its own text, or that without the last part. -/
def addressOf? (known : List String) (text : String) : Option String :=
  if known.contains text then some text
  else match cutLast? ['.'] text.toList with
    | some (front, _) =>
        let front := String.ofList front
        if known.contains front then some front else none
    | none => none

/-- The other known addresses that a body mentions, each once. -/
def mentions (known : List String) (address : String) (body : List Char) : List String :=
  let found := (mention.findAll body).filterMap fun m => addressOf? known (m.text 0)
  addNew [] (found.filter (· != address))

/-- The attributes that are not nested, sorted by name. The last of several with one name counts. -/
def plainAttributes (attributes : List Attribute) : List (String × String) :=
  let plain := (attributes.filter fun a => !a.isNested).map fun a => (a.name, a.value)
  let names := (plain.map (·.1)).eraseDups.mergeSort fun a b => !(b < a)
  names.filterMap fun name => (plain.reverse.lookup name).map fun value => (name, value)

/-- The resource that a block declares. -/
def resourceOf (known : List String) (d : Declared) (b : Block) : Infra.Resource where
  address := d.address
  resourceType := d.type?.getD "module"
  name := d.name
  kind := d.kind
  file := b.file
  line := b.line
  dependencies := mentions known d.address b.body
  attributes := plainAttributes b.attributes

/-- The diagram of the blocks that have addresses. -/
def diagram (blocks : List Block) : Infra.Diagram :=
  let declared := blocks.filterMap fun b => b.declared?.map fun d => (d, b)
  let known := declared.map fun (d, _) => d.address
  Infra.Diagram.link ⟨declared.map fun (d, b) => resourceOf known d b⟩

/-! ## Places -/

/-- The facts about a block stand at its place. -/
def Block.place (b : Block) : SourceFile where
  rel := b.file
  name := ""
  extension := ""
  content := []

/-! ## Models -/

/-- The field for an attribute. -/
def Attribute.field (a : Attribute) : Field where
  name := a.name
  type := if a.isNested then "block" else "attribute"
  default := if a.isNested then none else some a.value

/-- The model of a block with an address. -/
def model? (r : Repository) (b : Block) : Option Model :=
  b.declared?.map fun d =>
    { r.model b.place b.line d.address .schema with
      fields := (b.attributes.take maxFields).map Attribute.field
      description := b.value? "description"
      decorators := d.kind :: d.type?.toList }

/-! ## Endpoints -/

/-- The endpoint of a gateway's block, which is marked with a type of resources. -/
def gatewayEndpoint (r : Repository) (b : Block) (method path type : String) : Endpoint :=
  { r.endpoint b.place b.line method path with decorators := [type] }

/-- The resources of a type. -/
def resourcesOf (type : String) (blocks : List Block) : List Block :=
  blocks.filter fun b => b.kind = .resource && b.labels.head? == some type

/-- The endpoint of a route, whose key has the method and the path. -/
def routeEndpoint? (r : Repository) (b : Block) : Option Endpoint := do
  let key ← b.value? "route_key"
  let (method, path) := match cut? [' '] key.toList with
    | some (method, path) => (String.ofList method, String.ofList path)
    | none => ("ANY", key)
  return { gatewayEndpoint r b method path "aws_apigatewayv2_route" with
    handler := b.value? "target" }

/-- The last resource with a name. -/
def resourceNamed? (resources : List Block) (name : String) : Option Block :=
  resources.reverse.find? fun b => b.labels[1]? == some name

/-- The path of a resource of a gateway. -/
def resourcePath (b : Block) : String := "/" ++ (b.value? "path_part").getD ""

/-- The name of the resource that a method belongs to. -/
def methodResource? (b : Block) : Option String := do
  let value := (← b.attribute? "resource_id").value.toList
  let rest ← after? "aws_api_gateway_resource.".toList value
  return String.ofList (upTo ['.'] rest)

/-- The endpoint of a method. -/
def methodEndpoint (r : Repository) (resources : List Block) (b : Block) : Endpoint :=
  let path := match methodResource? b >>= resourceNamed? resources with
    | some resource => resourcePath resource
    | none => "/"
  gatewayEndpoint r b ((b.value? "http_method").getD "ANY") path "aws_api_gateway_method"

/-- Whether a block comes in front of another or at the same place, by file and line. -/
def Block.isInFront (a b : Block) : Bool :=
  a.file < b.file || (a.file == b.file && a.line ≤ b.line)

/-- The resources without methods, by place. Of several with one name only the last counts. -/
def bareResources (resources methods : List Block) : List Block :=
  let names := (resources.filterMap fun b => b.labels[1]?).eraseDups
  let bare := names.filter fun name => !(methods.filterMap methodResource?).contains name
  (bare.filterMap (resourceNamed? resources)).mergeSort Block.isInFront

/-- The endpoints of gateways: their routes, their methods and their resources without methods. -/
def endpoints (r : Repository) (blocks : List Block) : List Endpoint :=
  let resources := resourcesOf "aws_api_gateway_resource" blocks
  let methods := resourcesOf "aws_api_gateway_method" blocks
  (resourcesOf "aws_apigatewayv2_route" blocks).filterMap (routeEndpoint? r) ++
  methods.map (methodEndpoint r resources) ++
  (bareResources resources methods).map fun b =>
    gatewayEndpoint r b "ANY" (resourcePath b) "aws_api_gateway_resource"

/-! ## Side effects -/

/-- How the types of resources start that provide a service, with the category of its effects. -/
def services : List (String × EffectCategory × String) := [
  ("aws_s3_bucket", .cloudService, "s3"),
  ("aws_dynamodb_table", .database, "dynamodb"),
  ("aws_sqs_queue", .queue, "sqs"),
  ("aws_sns_topic", .notification, "sns"),
  ("aws_lambda_function", .cloudService, "lambda"),
  ("aws_api_gateway_", .http, "api_gateway"),
  ("aws_apigatewayv2_", .http, "api_gateway"),
  ("aws_elasticache_", .cache, "elasticache"),
  ("aws_db_instance", .database, "rds"),
  ("aws_rds_", .database, "rds"),
  ("aws_ses_", .email, "ses"),
  ("aws_kinesis_", .queue, "kinesis"),
  ("aws_secretsmanager_", .cloudService, "secretsmanager"),
  ("aws_cloudwatch_event_", .queue, "eventbridge"),
  ("google_storage_bucket", .file, "gcs"),
  ("google_pubsub_", .queue, "pubsub"),
  ("google_sql_", .database, "cloudsql"),
  ("google_redis_instance", .cache, "memorystore"),
  ("google_cloudfunctions", .cloudService, "cloudfunctions"),
  ("azurerm_storage_", .file, "azure_storage"),
  ("azurerm_servicebus_", .queue, "servicebus"),
  ("azurerm_cosmosdb_", .database, "cosmosdb"),
  ("azurerm_mssql_", .database, "azure_sql"),
  ("azurerm_redis_cache", .cache, "azure_redis"),
  ("azurerm_function_app", .cloudService, "azure_functions")]

/-- The side effect of a resource that provides a service. -/
def sideEffect? (r : Repository) (b : Block) : Option SideEffect := do
  if b.kind != .resource then none
  let d ← b.declared?
  let type ← d.type?
  let (_, category, service) ←
    services.find? fun (start, _) => startsWith type.toList start.toList
  return { r.sideEffect b.place b.line category d.address (some service) with
    description := some ("provisions " ++ type) }

/-! ## Settings -/

/-- The settings that a block declares: a variable, an output or local values. -/
def settingsOf (r : Repository) (b : Block) : List Setting :=
  match b.kind, b.labels with
  | .inputVariable, name :: _ =>
      let default := (b.attribute? "default").map fun a => unquoted a.value
      [{ r.setting b.place b.line name "terraform_variable" with
         default, description := b.value? "description", required := default.isNone }]
  | .output, name :: _ =>
      [{ r.setting b.place b.line name "terraform_output" with
         description := b.value? "description" }]
  | .locals, _ => b.attributes.map fun a =>
      { r.setting b.place a.line a.name "terraform_local" with
        default := if a.isNested then none else some (unquoted a.value) }
  | _, _ => []

/-- The settings of a file. Of several from one source with one name the first counts. -/
def fileSettings (r : Repository) (blocks : List Block) : List Setting :=
  (blocks.flatMap (settingsOf r)).eraseDupsBy fun a b => a.source == b.source && a.key == b.key

/-! ## Dependencies -/

/-- What is required of a provider, as the lines of a body. An entry on one line has its brackets
around it and commas in it. -/
def requirements (entry : Attribute) : List Char :=
  if entry.isNested then entry.value.toList
  else
    let inside := trimEndWhile (· == '\x7d') ((trim entry.value.toList).dropWhile (· == '\x7b'))
    replace [','] ['\n'] inside

/-- The dependency on a provider. -/
def providerDependency (b : Block) (entry : Attribute) : Dependency :=
  let inner := attributesOf (requirements entry) (entry.line + 1)
  let get? (name : String) := (inner.find? fun a => a.name == name).map fun a => unquoted a.value
  { name := (get? "source").getD entry.name
    version := get? "version"
    importPath := some entry.name
    file := b.file
    line := entry.line }

/-- The dependencies of a block: the providers that it requires, or the source of a module. -/
def dependenciesOf (b : Block) : List Dependency :=
  match b.kind with
  | .terraform =>
      match b.attributes.find? fun a => a.isNested && a.name == "required_providers" with
      | some providers =>
          (attributesOf providers.value.toList (providers.line + 1)).map (providerDependency b)
      | none => []
  | .module =>
      ((b.value? "source").map fun source =>
        { name := source, version := b.value? "version"
          importPath := b.labels.head?.map ("module." ++ ·), file := b.file, line :=
            b.line }).toList
  | _ => []

/-! ## The analyzer -/

/-- Analyzes Terraform configurations. -/
def analyzer : Analyzer where
  language := "terraform"
  extensions := ["tf"]
  extract r :=
    let files := (r.examined ["tf"]).map blocksOf
    let blocks := files.flatten
    let diagram := diagram blocks
    { models := .ok (blocks.filterMap (model? r))
      endpoints := .ok (endpoints r blocks)
      sideEffects := .ok (files.flatMap fun blocks =>
        (newEffects (blocks.filterMap (sideEffect? r)) {}).1)
      settings := .ok (files.flatMap (fileSettings r))
      dependencies := .ok (blocks.flatMap dependenciesOf)
      infrastructure := .ok (if diagram.isEmpty then none else some diagram) }

end CodeAtlas.Source.Terraform
