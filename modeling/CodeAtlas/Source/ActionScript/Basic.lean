import CodeAtlas.Scan
import CodeAtlas.Text.Block
import CodeAtlas.Text.Split
import CodeAtlas.Text.Indent
import CodeAtlas.Analyzer

/-!
# ActionScript sources

The endpoints are those of the servers that a client talks to: connections, requests, remote objects
and services.
-/

namespace CodeAtlas.Source.ActionScript

open Text

/-!
## Types in ActionScript sources

Classes and interfaces with their variables and functions. Metadata in brackets stands above a
declaration or in front of it.
-/

/-- The header of a package. -/
def packageHeader : Pattern := .ofString
  r"(?m)^\s*package\s+(?P<name>[\w.]+)"

/-- The header of a class or an interface. -/
def typeHeader : Pattern := .ofString
  r"(?m)^[ \t]*(?:(?:public|internal|final|dynamic)\s+)*(?P<kind>class|interface)\s+(?P<name>\w+)(?P<rest>[^\x7b]*)\x7b"

/-- The clause with the types that a type extends. -/
def extendsClause : Pattern := .ofString
  r"\bextends\s+(?P<names>[\w.,\s]+?)(?:\s+implements\b|\s*$)"

/-- The clause with the interfaces that a class implements. -/
def implementsClause : Pattern := .ofString
  r"\bimplements\s+(?P<names>[\w.,\s]+)"

/-- A line that holds only metadata. -/
def metadataLine : Pattern := .ofString
  r"^\s*\[(?P<name>\w+)(?:\([^)]*\))?\]\s*$"

/-- A line that declares a variable or a constant. -/
def variableLine : Pattern := .ofString
  r"^\s*(?P<meta>(?:\[[^\]]*\]\s*)*)(?P<mods>(?:(?:public|private|protected|internal|static|override)\s+)*)(?P<kw>var|const)\s+(?P<name>\w+)\s*(?::\s*(?P<type>[\w.*<>]+))?\s*(?:=\s*(?P<default>[^;]+?))?\s*;"

/-- A line that declares a function. -/
def functionLine : Pattern := .ofString
  r"^\s*(?:(?:public|private|protected|internal|static|override|final)\s+)*function\s+(?:(?P<accessor>get|set)\s+)?(?P<name>\w+)\s*\("

/-- The last parts of the names in a list. -/
def shortNames (text : String) : List String :=
  let names := (splitChar ',' text.toList).map trim
  (names.filter fun name => !name.isEmpty).map fun name => String.ofList (lastPiece ['.'] name)

/-- The names in a clause of a header, if it has the clause. -/
def clauseNames (clause : Pattern) (header : List Char) : List String :=
  ((clause.find? header).map fun m => shortNames (m.textOf "names")).getD []

/-- The variable of a match, behind lines of metadata. -/
def fieldOf (metadata : List String) (m : Match) : Field :=
  let default := m.capture? "default"
  let own := (words (m.textOf "meta").toList).map String.ofList
  let tags := metadata ++ own ++ (if m.textOf "kw" == "const" then ["const"] else []) ++
    (if hasWord (m.textOf "mods") "static" then ["static"] else [])
  { name := m.textOf "name", type := (m.capture? "type").getD "*", default
    required := default.isNone
    tag := if tags.isEmpty then none else some (String.intercalate " " tags) }

/-- The function of a match, with the word that makes it an accessor. -/
def functionOf (m : Match) : String :=
  match m.capture? "accessor" with
  | some accessor => accessor ++ " " ++ m.textOf "name"
  | none => m.textOf "name"

/-- The members that the lines of a type declare, behind some lines of metadata. The function with
the name of the type constructs it and is none of them. -/
def members (type : String) (metadata : List String) : List (List Char) → List (String ⊕ Field)
  | [] => []
  | line :: lines =>
      match metadataLine.find? line with
      | some m => members type (metadata ++ ["[" ++ m.textOf "name" ++ "]"]) lines
      | none => match functionLine.find? line with
        | some m =>
            let rest := members type [] lines
            if m.textOf "name" == type then rest else .inl (functionOf m) :: rest
        | none => match variableLine.find? line with
          | some m => .inr (fieldOf metadata m) :: members type [] lines
          | none => members type (if isBlankLine line then metadata else []) lines

/-- The model of a header. -/
def model? (r : Repository) (f : SourceFile) (lines : List (List Char)) (m : Match) :
    Option Model := do
  let name ← m.named? "name"
  let line := lineAt f.content name.start
  let isInterface := m.textOf "kind" == "interface"
  let header := trim (m.textOf "rest").toList
  let extended := clauseNames extendsClause header
  let metadata := namesAbove metadataLine lines line
  let markers := ["*/", "/**", "/*", "*", "//"].map String.toList
  let comment := (docComment? lines (line - metadata.length) markers).map String.ofList
  let package := (packageHeader.find? f.content).map fun p => "package " ++ p.textOf "name"
  let body := ((braceBody? .slashed f.content (m.stop - 1)).map Text.lines).getD []
  let members := members name.text [] (topLines .slashed body)
  return { r.model f line name.text (if isInterface then .interface else .class_) with
    fields := (members.filterMap Sum.getRight?).take maxFields
    methods := (addNew [] (members.filterMap Sum.getLeft?)).take maxMethods
    description := comment.or package
    parent := if isInterface then none else extended.head?
    interfaces := if isInterface then extended else clauseNames implementsClause header
    decorators := metadata }

/-- The models of a file. -/
def fileModels (r : Repository) (f : SourceFile) : List Model :=
  (typeHeader.findAll f.content).filterMap (model? r f (lines f.content))

/-! ## Endpoints -/

/-- A connection to a server. -/
def connectCall : Pattern := .ofString
  r#"\.connect\(\s*["'](?P<url>(?:rtmp[a-z]*|https?)://[^"']+)["']"#

/-- A request that is made for an address. -/
def requestCall : Pattern := .ofString
  r#"\bnew\s+URLRequest\(\s*["'](?P<url>[^"']+)["']"#

/-- The method of a request. -/
def requestMethod : Pattern := .ofString
  r"URLRequestMethod\.(?P<method>GET|POST|PUT|DELETE|HEAD)"

/-- An object on a server. -/
def remoteObject : Pattern := .ofString
  r#"<(?:\w+:)?RemoteObject\b[^>]*?\bdestination\s*=\s*"(?P<mxml>[^"]+)"|\bnew\s+RemoteObject\(\s*["'](?P<ctor>[^"']+)["']|\.destination\s*=\s*["'](?P<assign>[^"']+)["']"#

/-- A service with its address. -/
def serviceTag : Pattern := .ofString
  r#"<(?:\w+:)?HTTPService\b(?P<attrs>[^>]*?)\burl\s*=\s*"(?P<url>[^"]+)""#

/-- The method of a service. -/
def serviceMethod : Pattern := .ofString
  r#"\bmethod\s*=\s*"(?P<method>\w+)""#

/-- How many bytes behind a request its method may be set. -/
def methodWindow : Nat := 400

/-- The method of the request that ends at a byte offset: it is set behind the request and in front
of the next one. -/
def methodBehind (f : SourceFile) (offset : Nat) : String :=
  let window := takeBytes methodWindow ((dropBytes? offset f.content).getD [])
  match requestMethod.find? (upTo "new URLRequest".toList window) with
  | some m => m.textOf "method"
  | none => "GET"

/-- An endpoint of one kind. -/
def endpoint (r : Repository) (f : SourceFile) (line : Nat)
    (method path kind : String) : Endpoint :=
  { r.endpoint f line method path with decorators := [kind] }

/-- The endpoints of a file. -/
def fileEndpoints (r : Repository) (f : SourceFile) : List Endpoint :=
  ((f.find connectCall).map fun (line, m) =>
    endpoint r f line "AMF" (m.textOf "url") "net_connection") ++
  ((f.find requestCall).map fun (line, m) =>
    endpoint r f line (methodBehind f m.stop) (m.textOf "url") "url_request") ++
  ((f.find remoteObject).filterMap fun (line, m) =>
    (["mxml", "ctor", "assign"].findSome? m.capture?).map fun destination =>
      endpoint r f line "AMF" destination "remote_object") ++
  (f.find serviceTag).map fun (line, m) =>
    let method := ((serviceMethod.find? (m.textOf "attrs").toList).map fun a =>
      asciiUppered (a.textOf "method")).getD "GET"
    endpoint r f line method (m.textOf "url") "http_service"

/-! ## Side effects and settings -/

/-- The rules for side effects. -/
def effects : List EffectRule := effectRules [
  (r"\bnew\s+URLLoader\(", .http, "url_loader", ""),
  (r#"\b(?P<op>sendToURL|navigateToURL)\(\s*(?:new\s+URLRequest\(\s*["'](?P<target>[^"']+))?"#,
    .http, "request", ""),
  (r#"\bSharedObject\.getLocal\(\s*["'](?P<target>[^"']+)"#, .cache, "shared_object", ""),
  (r"\bnew\s+FileReference\(", .file, "file_reference", ""),
  (r"\bnew\s+FileStream\(", .file, "file_stream", ""),
  (r"\bnew\s+(?P<target>Socket|XMLSocket)\(", .externalApi, "socket", ""),
  (r#"\bExternalInterface\.call\(\s*["'](?P<target>[\w.]+)"#,
    .externalApi, "external_interface", ""),
  (r"\bnew\s+SQLConnection\(", .database, "connect", "sqlite"),
  (r#"(?i)\.text\s*=\s*["'](?:SELECT\b[^"']*?\bFROM|INSERT\s+INTO|UPDATE|DELETE\s+FROM)\s+(?P<target>\w+)"#,
    .database, "sql", "")]

/-- The rules for settings. -/
def constantsAndVariables : List SettingRule := settingRules [
  (r"(?m)^[ \t]*(?:(?:public|private|protected|internal)\s+)?static\s+const\s+(?P<key>[A-Z][A-Z0-9_]*)\s*:\s*\w+\s*=\s*(?P<default>[^;\n]+?)\s*;",
    "constant"),
  (r"\bloaderInfo\.parameters\.(?P<key>\w+)", "flashvars"),
  (r#"\bparameters\[\s*["'](?P<key>\w+)["']\s*\]"#, "flashvars")]

/-- The settings of files. Constants have their value and variables may be absent, so none is
required. -/
def settings (r : Repository) (files : List SourceFile) : List Setting :=
  (scanAllSettings r constantsAndVariables files).map fun s => { s with required := false }

/-! ## The analyzer -/

/-- Analyzes ActionScript sources, and the markup that goes with them. -/
def analyzer : Analyzer where
  language := "actionscript"
  extensions := ["as", "mxml"]
  extract r :=
    let files := r.examined ["as", "mxml"]
    let scripts := (untested files).filter fun f => f.extension == "as"
    { models := .ok (scripts.flatMap (fileModels r))
      endpoints := .ok (files.flatMap (fileEndpoints r))
      sideEffects := .ok (scanAllEffects r effects files)
      settings := .ok (settings r files) }

end CodeAtlas.Source.ActionScript
