import CodeAtlas.Scan
import CodeAtlas.Analyzer
import CodeAtlas.Manifest.Basic
import CodeAtlas.Source.Salesforce.Classes
import CodeAtlas.Source.Salesforce.Objects

/-!
# Salesforce sources

Apex classes and triggers, Lightning web components and the metadata of objects.
-/

namespace CodeAtlas.Source.Salesforce

open Text

/-!
## Lightning web components

A component is a class in a folder below `lwc`. Its properties are public or tracked, its wires and
imports lead to Apex classes.
-/

/-- The header of the class of a component. -/
def componentHeader : Pattern := .ofString
  r"(?m)^export\s+default\s+class\s+(?P<name>\w+)\s+extends\s+(?P<parent>[\w.]+)\s*\x7b"

/-- A property of a component. -/
def componentProperty : Pattern := .ofString
  r"(?m)^\s*@(?P<kind>api|track)\s+(?:get\s+|set\s+)?(?P<name>\w+)\s*(?:=\s*(?P<default>[^;\n]+?))?\s*[;(\n]"

/-- A member of a component that is wired to an adapter. -/
def wireDecorator : Pattern := .ofString
  r"@wire\(\s*(?P<adapter>[\w.]+)[^)]*\)\s*(?P<handler>\w+)"

/-- An import of a method of an Apex class. -/
def apexImport : Pattern := .ofString
  r#"import\s+\w+\s+from\s+['"]@salesforce/apex/(?P<target>[\w.]+)['"]"#

/-- The rules for side effects of components. -/
def componentEffects : List EffectRule := effectRules [
  (r#"\bfetch\(\s*(?:['"`](?P<target>[^'"`]+)['"`])?"#, .http, "fetch", ""),
  (r"\b(?P<op>createRecord|updateRecord|deleteRecord)\(", .database, "lds", "ui_record_api")]

/-- Whether an entry belongs to a component and not to its tests. -/
def isComponent (e : Repository.Entry) : Bool :=
  e.extension? == some "js" && e.rel.contains "lwc" && !e.rel.contains "__tests__"

/-- The files of components that are looked at. -/
def components (r : Repository) : List SourceFile :=
  ((r.entries isComponent).take maxFiles).map Repository.load

/-- The model of a component. -/
def component? (r : Repository) (f : SourceFile) : Option Model :=
  (componentHeader.find? f.content).map fun m =>
    { r.model f (lineAt f.content m.start) (m.textOf "name") .class_ with
      fields := ((componentProperty.findAll f.content).take maxFields).map fun p =>
        { name := p.textOf "name", type := "any", default := p.capture? "default"
          required := false, tag := some ("@" ++ p.textOf "kind") }
      parent := some (m.textOf "parent")
      decorators := ["lwc"] }

/-- The wires of a component. -/
def wires (r : Repository) (f : SourceFile) : List Endpoint :=
  let component := ((Path.ofString f.rel).dropLast.getLast?).getD "component"
  (f.find wireDecorator).map fun (line, m) =>
    { r.endpoint f line "WIRE" ("/lwc/" ++ component ++ "/" ++ m.textOf "adapter") with
      handler := m.capture? "handler", decorators := ["wire"] }

/-- The side effects of a component. -/
def componentSideEffects (r : Repository) (f : SourceFile) : List SideEffect :=
  let (found, seen) := scanEffects r componentEffects f {}
  let calls := (f.find apexImport).map fun (line, m) =>
    r.sideEffect f line .externalApi "apex_call" (m.capture? "target")
  found ++ (newEffects calls seen).1

/-! ## Endpoints -/

/-- The annotation of a class with the path of its resource. -/
def restResource : Pattern := .ofString
  r#"(?i)@RestResource\s*\(\s*urlMapping\s*=\s*['"](?P<path>[^'"]+)['"]"#

/-- A method that answers requests. -/
def httpHandler : Pattern := .ofString
  r"(?i)@Http(?P<method>Get|Post|Put|Patch|Delete)\b(?:\s*@\w+(?:\([^)]*\))?)*\s*(?:(?:global|public|static|webservice|override)\s+)*[\w.<>,\[\] ]+?\s+(?P<handler>\w+)\s*\("

/-- A method that pages call. -/
def clientHandler : Pattern := .ofString
  r"(?i)@(?P<kind>AuraEnabled|RemoteAction)\b(?:\s*\([^)]*\))?(?:\s*@\w+(?:\([^)]*\))?)*\s*(?:(?:global|public|static|webservice|override)\s+)*[\w.<>,\[\] ]+?\s+(?P<handler>\w+)\s*\("

/-- An endpoint for a method of a class. -/
def handlerEndpoint (r : Repository) (f : SourceFile) (line : Nat) (type method path kind : String)
    (m : Match) : Endpoint :=
  { r.endpoint f line method path with
    handler := some (type ++ "." ++ m.textOf "handler"), decorators := [kind] }

/-- The path of the resource of a class. It is given in front of the header of the class, behind
what ends there before. -/
def resourcePath? (f : SourceFile) (header : Match) : Option String :=
  let front := takeBytes header.start f.content
  let gap := (front.reverse.takeWhile fun c => c != '\x7d' && c != ';').reverse
  (restResource.find? (gap ++ slice f.content header.start header.stop)).map (·.textOf "path")

/-- The endpoints of the class with a header. -/
def classEndpoints (r : Repository) (f : SourceFile) (header : Match) : List Endpoint :=
  match braceRange? .slashed f.content header.start with
  | none => []
  | some (start, stop) =>
      let body := slice f.content start stop
      let type := header.textOf "name"
      let line (m : Match) := lineAt f.content (start + m.start)
      let resource := match resourcePath? f header with
        | some path => (httpHandler.findAll body).map fun m =>
            handlerEndpoint r f (line m) type (asciiUppered (m.textOf "method")) path
              "rest_resource" m
        | none => []
      resource ++ (clientHandler.findAll body).map fun m =>
        let path := "/" ++ type ++ "/" ++ m.textOf "handler"
        if asciiLowered (m.textOf "kind") == "auraenabled" then
          handlerEndpoint r f (line m) type "AURA" path "aura_enabled" m
        else handlerEndpoint r f (line m) type "REMOTE" path "remote_action" m

/-- The endpoints of a file. -/
def fileEndpoints (r : Repository) (f : SourceFile) : List Endpoint :=
  (typeHeader.findAll f.content).flatMap (classEndpoints r f)

/-! ## Side effects and settings -/

/-- The rules for side effects. -/
def effects : List EffectRule := effectRules [
  (r"(?i)\[\s*SELECT\b[^\]]*?\bFROM\s+(?P<target>\w+)", .database, "soql", ""),
  (r"(?i)\[\s*FIND\b[^\]]*\]", .database, "sosl", ""),
  (r"(?i)\bDatabase\.query\(", .database, "dynamic_soql", ""),
  (r"(?i)\bSearch\.query\(", .database, "sosl", ""),
  (r"(?im)^\s*(?P<op>insert|update|delete|upsert|undelete|merge)\s+(?P<target>\w+)\s*;",
    .database, "dml", ""),
  (r"(?i)\bDatabase\.(?P<op>insert|update|delete|upsert|undelete|merge)\(\s*(?P<target>\w+)",
    .database, "dml", ""),
  (r"(?i)\bnew\s+Http\(\s*\)\.send\(|\bhttp\w*\.send\(", .http, "callout", ""),
  (r"(?i)\bnew\s+HttpRequest\(\s*\)", .http, "http_request", ""),
  (r"(?i)\.setEndpoint\(\s*'(?P<target>[^']+)'", .http, "callout", ""),
  (r"(?i)\bMessaging\.sendEmail\(", .email, "send_email", "messaging"),
  (r"(?i)\bEventBus\.publish\(", .queue, "publish", "event_bus"),
  (r"(?i)\bSystem\.enqueueJob\(", .queue, "enqueue_job", "queueable"),
  (r"(?i)\bDatabase\.executeBatch\(", .queue, "execute_batch", "batch")]

/-- The rules for settings. -/
def lookups : List SettingRule := settingRules [
  (r"(?i)\b(?P<key>\w+__c)\.(?:getInstance|getOrgDefaults|getValues|getAll)\(", "custom_setting"),
  (r"(?i)\b(?P<key>\w+__mdt)\.(?:getInstance|getAll)\(", "custom_metadata"),
  (r"(?i)\b(?:System\.)?Label\.(?P<key>\w+)", "custom_label")]

/-- The settings of files. Whatever is looked up may be absent, so none is required. -/
def settings (r : Repository) (files : List SourceFile) : List Setting :=
  (scanAllSettings r lookups files).map fun s => { s with required := false }

/-! ## The analyzer -/

/-- Analyzes Salesforce sources. -/
def analyzer : Analyzer where
  language := "apex"
  extensions := ["cls", "trigger"]
  extract r :=
    let files := r.examined ["cls", "trigger"]
    let components := components r
    { models := .ok ((untested files).flatMap (fileModels r) ++
        (untested components).filterMap (component? r) ++ objects r)
      endpoints := .ok (files.flatMap (fileEndpoints r) ++ components.flatMap (wires r))
      sideEffects := .ok (scanAllEffects r effects files ++
        components.flatMap (componentSideEffects r))
      settings := .ok (settings r files)
      dependencies := .ok (r.dependencies [.sfdxProject]) }

end CodeAtlas.Source.Salesforce
