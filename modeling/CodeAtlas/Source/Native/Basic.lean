import CodeAtlas.Analyzer
import CodeAtlas.Language.Basic
import CodeAtlas.Scan
import CodeAtlas.Text.Block
import CodeAtlas.Text.Split
import CodeAtlas.Text.Indent

/-!
# C and C++ sources

Endpoints are sockets that listen, commands and applications that a module adds to a switch, and
paths that an embedded server compares with. Dependencies come from the build description.
-/

namespace CodeAtlas.Source.Native

open Text

/-!
## Types in C and C++ sources

Structs, classes, unions and enums. A type without a name of its own takes the alias that follows
its body.
-/

/-- The keyword of a type. -/
def typeKeyword : Pattern := .ofString
  r"(?m)^[ \t]*(?:typedef\s+)?(?P<kw>struct|class|enum|union)\b"

/-- The header of a type, from its keyword on. -/
def typeHeader : Pattern := .ofString
  r"^(?P<kind>struct|class|enum|union)(?:\s+(?:class|struct))?(?:\s+(?:__attribute__\s*\(\([^)]*\)\)\s*)?(?P<name>[A-Za-z_]\w*))?\s*(?:final\s*)?(?P<bases>:[^\x7b;()]*)?\x7b"

/-- The alias that follows the body of a type. -/
def aliasName : Pattern := .ofString
  r"^\s*(?:\*\s*)?(?P<alias>[A-Za-z_]\w*)\s*[;,]"

/-- A line that declares a field. -/
def fieldLine : Pattern := .ofString
  r"^\s*(?P<type>(?:(?:const|static|unsigned|signed|struct|enum|union|volatile|mutable|long|short)\s+)*[A-Za-z_][\w:]*(?:<[^;]*>)?(?:\s*[*&]+\s*|\s+))(?P<name>[A-Za-z_]\w*)\s*(?P<array>(?:\[[^\]]*\])*)\s*(?::\s*\d+\s*)?(?:=\s*(?P<default>[^;]+))?;"

/-- A line that declares a method. -/
def methodLine : Pattern := .ofString
  r"^\s*(?:(?:virtual|static|inline|explicit|constexpr)\s+)*(?:[\w:<>,*&]+\s+[*&]*)*(?P<name>~?[A-Za-z_]\w*|operator\S+)\s*\([^;\x7b]*\)\s*(?:const\s*)?(?:noexcept\s*)?(?:override\s*)?(?:=\s*(?:0|default|delete)\s*)?[;\x7b]"

/-- A member of an enum. -/
def enumMember : Pattern := .ofString
  r"^\s*(?P<name>[A-Za-z_]\w*)\s*(?:=\s*(?P<value>.+?))?\s*$"

/-- A comment that may span lines. -/
def blockComment : Pattern := .ofString
  r"(?s)/\*.*?\*/"

/-- What starts or ends the lines of a comment. -/
def commentMarkers : List (List Char) := ["*/", "/**", "/*", "*", "///", "//"].map String.toList

/-- The words in front of a base that say how it is inherited. -/
def accessWords : List (List Char) :=
  ["public", "private", "protected", "virtual"].map String.toList

/-- The bases that a list behind a colon names. -/
def basesOf (text : List Char) : List String :=
  let bases := (splitChar ',' (text.dropWhile (· == ':'))).map fun base =>
    [' '].intercalate ((words base).filter fun word => !accessWords.contains word)
  (bases.filter fun base => !base.isEmpty).map String.ofList

/-- The body without comments that may span lines. -/
def withoutComments (body : List Char) : List Char := blockComment.replaceAll body []

/-- The line without the comment at its end. -/
def codeOf (line : List Char) : List Char := upTo ['/', '/'] line

/-- The words that look like methods in front of a parenthesis. -/
def statementWords : List String := ["if", "for", "while", "switch", "return", "sizeof"]

/-- The words that look like types in front of a name. -/
def declarationWords : List String := ["return", "using", "typedef", "friend"]

/-- The field of a match. -/
def fieldOf? (m : Match) : Option Field :=
  let type := trimmed (m.textOf "type")
  if declarationWords.contains type then none
  else
    let default := m.capture? "default"
    some {
      name := m.textOf "name", type := type ++ m.textOf "array", default
      required := default.isNone && type.toList.getLast? != some '*' }

/-- The member that the code of a line declares. -/
def member? (code : List Char) : Option (String ⊕ Field) :=
  let text := trim code
  if text.isEmpty || text.head? == some '#' then none
  else match methodLine.find? code with
    | some m =>
        if statementWords.contains (m.textOf "name") then none else some (.inl (m.textOf "name"))
    | none => (fieldLine.find? code >>= fieldOf?).map .inr

/-- The members of a struct, a class or a union. -/
def members (body : List Char) : List (String ⊕ Field) :=
  (topLines .slashed ((lines (withoutComments body)).map codeOf)).filterMap member?

/-- The members of an enum. -/
def enumerators (body : List Char) : List Field :=
  ((lines (withoutComments body)).flatMap fun line => splitChar ',' (codeOf line)).filterMap
    fun part =>
    (enumMember.find? part).map fun m =>
      { name := m.textOf "name", type := "enumerator", default := m.capture? "value"
        required := false }

/-- The kind of type that a keyword declares. -/
def kindOf (keyword : String) : ModelKind :=
  match keyword with
  | "class" => .class_
  | "enum" => .enum
  | _ => .struct

/-- The byte offset behind which a definition with a body closes, from its opening brace. -/
def closer? (text : List Char) (opener : Nat) : Option Nat :=
  findBalanced .slashed '\x7b' '\x7d' text opener

/-- The alias of a type whose keyword stands behind `typedef`; its body ends at a byte offset. -/
def alias? (text : List Char) (start stop : Nat) : Option String :=
  if endsWith (trimEnd (takeBytes start text)) "typedef".toList then do
    let m ← aliasName.find? (← dropBytes? (stop + 1) text)
    return m.textOf "alias"
  else none

/-- The model of the type whose keyword starts at a byte offset, if its definition has a body. -/
def model? (r : Repository) (f : SourceFile) (lines : List (List Char)) (start : Nat) :
    Option Model := do
  let m ← typeHeader.find? (← dropBytes? start f.content)
  let opener := start + m.stop - 1
  let stop ← closer? f.content opener
  let body := slice f.content (opener + 1) stop
  let alias? := alias? f.content start stop
  let name ← (m.capture? "name").or alias?
  let line := lineAt f.content start
  let keyword := m.textOf "kind"
  let kind := kindOf keyword
  let base : Model := { r.model f line name kind with
    description := (docComment? lines line commentMarkers).map String.ofList
    decorators := (if alias?.isSome then ["typedef"] else []) ++
      (if keyword == "union" then ["union"] else []) }
  if kind = .enum then return { base with fields := (enumerators body).take maxFields }
  else
    let bases := ((m.named? "bases").map fun g => basesOf g.text.toList).getD []
    let members := members body
    return { base with
      fields := (members.filterMap Sum.getRight?).take maxFields
      methods := (members.filterMap Sum.getLeft?).take maxMethods
      parent := bases.head?
      interfaces := bases.tail }

/-- The models of a file. -/
def fileModels (r : Repository) (f : SourceFile) : List Model :=
  let lines := lines f.content
  let starts := (typeKeyword.findAll f.content).filterMap fun m =>
    (m.named? "kw").map (·.start)
  starts.filterMap (model? r f lines)

/-! ## Endpoints -/

/-- The definition of a constant. -/
def constantLine : Pattern := .ofString
  r"(?m)^[ \t]*#[ \t]*define[ \t]+(?P<key>[A-Z][A-Z0-9_]*)[ \t]+(?P<value>[^\s/][^\n]*?)[ \t]*(?://[^\n]*|/\*[^\n]*)?$"

/-- A call that makes a socket listen. -/
def listenCall : Pattern := .ofString
  r"\blisten\s*\(\s*\w+\s*,"

/-- A call that converts a port. -/
def portCall : Pattern := .ofString
  r"\bhtons\s*\(\s*(?P<port>\d+|[A-Za-z_]\w*)\s*\)"

/-- A call that adds a command or an application. -/
def addCall : Pattern := .ofString
  r"\bSWITCH_ADD_(?P<kind>API|APP)\s*\("

/-- A call that compares the path of a request. -/
def pathCall : Pattern := .ofString
  r#"\bmg_(?:http_match_uri\s*\(\s*\w+\s*,|match\s*\([^,]*,\s*mg_str\()\s*"(?P<path>[^"]+)""#

/-- The constants of a file, the last ones first. -/
def constants (text : List Char) : List (String × String) :=
  ((constantLine.findAll text).map fun m => (m.textOf "key", trimmed (m.textOf "value"))).reverse

/-- The port of a socket that listens at a byte offset: the last one converted in front of it. -/
def port? (f : SourceFile) (constants : List (String × String)) (offset : Nat) : Option String := do
  let m ← (portCall.findAll (takeBytes offset f.content)).getLast?
  let port ← m.capture? "port"
  return (constants.lookup port).getD port

/-- The endpoint of a socket. -/
def socketEndpoint (r : Repository) (f : SourceFile) (constants : List (String × String))
    (line : Nat) (m : Match) : Endpoint :=
  let path := ((port? f constants m.start).map (":" ++ ·)).getD "socket"
  { r.endpoint f line "LISTEN" path with decorators := ["socket"] }

/-- The text of an argument without double quotes. -/
def bare (argument : List Char) : String := String.ofList (trimWhile (· == '"') (trim argument))

/-- The endpoint of a command or an application that is added. -/
def addedEndpoint? (r : Repository) (f : SourceFile) (line : Nat) (m : Match) : Option Endpoint :=
  do
  let arguments ← delimitedBody? .slashed f.content (m.stop - 1)
  let arguments := splitTopLevel .slashed ',' arguments
  let isCommand := m.textOf "kind" == "API"
  let description := (arguments[2]?.map bare).filter fun d => !d.isEmpty
  return { r.endpoint f line "DIALPLAN" (bare (← arguments[1]?)) with
    handler := arguments[if isCommand then 3 else 4]?.map fun h => String.ofList (trim h)
    description
    decorators := [if isCommand then "freeswitch_api" else "freeswitch_app"] }

/-- The endpoints of a file. -/
def fileEndpoints (r : Repository) (f : SourceFile) : List Endpoint :=
  let constants := constants f.content
  ((f.find listenCall).map fun (line, m) => socketEndpoint r f constants line m) ++
  ((f.find addCall).filterMap fun (line, m) => addedEndpoint? r f line m) ++
  (f.find pathCall).map fun (line, m) =>
    { r.endpoint f line "ANY" (m.textOf "path") with decorators := ["mongoose"] }

/-! ## Side effects, settings and dependencies -/

/-- The rules for side effects. -/
def effects : List EffectRule := effectRules [
  (r"\b(?P<op>connect|send|sendto|recv|recvfrom)\s*\(\s*\w+\s*,", .externalApi, "socket", "socket"),
  (r#"\b(?P<op>fopen|open|unlink|remove|rename|mkdir)\s*\(\s*(?:"(?P<target>[^"]+)")?"#,
    .file, "file", ""),
  (r"\b(?P<op>fwrite|fputs|fprintf)\s*\(", .file, "write", ""),
  (r"(?:std::)?(?:o|i)?fstream\s+\w+\s*\(", .file, "stream", ""),
  (r#"\bcurl_easy_setopt\s*\(\s*\w+\s*,\s*CURLOPT_URL\s*,\s*"(?P<target>[^"]+)""#,
    .http, "request", ""),
  (r"\bcurl_easy_perform\s*\(", .http, "perform", "libcurl"),
  (r"\bsqlite3_(?P<op>open_v2|open|exec|prepare_v2|prepare)\s*\(", .database, "sqlite", "sqlite"),
  (r"\bmysql_(?P<op>real_connect|real_query|query)\s*\(", .database, "mysql", "mysql"),
  (r"\bswitch_(?:cache_db_execute_sql|core_db_exec)\w*\s*\(",
    .database, "execute_sql", "freeswitch_db"),
  (r"\bswitch_event_fire\s*\(", .queue, "event_fire", "freeswitch_event"),
  (r"\bredisConnect\w*\s*\(", .cache, "connect", "redis"),
  (r#"\bredisCommand\s*\(\s*\w+\s*,\s*"(?P<op>\w+)"#, .cache, "command", "redis"),
  (r#"\b(?P<op>system|popen|execvp|execv|execl)\s*\(\s*(?:"(?P<target>[^"\s]+))?"#,
    .externalApi, "exec", "")]

/-- The rules for settings. -/
def settingCalls : List SettingRule := settingRules [
  (r#"\b(?:std::)?getenv\s*\(\s*"(?P<key>[^"]+)""#, "env"),
  (r#"\bswitch_core_get_variable\w*\s*\(\s*"(?P<key>[^"]+)""#, "freeswitch_variable"),
  (r"(?m)^[ \t]*#[ \t]*define[ \t]+(?P<key>[A-Z][A-Z0-9_]*)[ \t]+(?P<default>[^\s/][^\n]*?)[ \t]*(?://[^\n]*|/\*[^\n]*)?$",
    "constant")]

/-- A package that the build looks for. -/
def packageCall : Pattern := .ofString
  r"(?mi)^\s*find_package\s*\(\s*(?P<name>[\w.:-]+)(?:\s+(?P<version>\d[\w.]*))?"

/-- The packages that a build description looks for. -/
def fileDependencies (f : SourceFile) : List Dependency :=
  (packageCall.findAll f.content).filterMap fun m => (m.named? "name").map fun name =>
    { name := name.text, version := m.capture? "version", file := f.rel
      line := lineAt f.content name.start }

/-! ## The analyzers -/

/-- Analyzes the sources with certain extensions. -/
def analyzerFor (language : Language) (extensions : List String) : Analyzer where
  language := language.label
  extensions
  extract r :=
    let files := r.examined extensions
    { models := .ok ((untested files).flatMap (fileModels r))
      endpoints := .ok (files.flatMap (fileEndpoints r))
      sideEffects := .ok (scanAllEffects r effects files)
      settings := .ok (scanAllSettings r settingCalls files)
      dependencies := .ok ((r.named "CMakeLists.txt").flatMap fileDependencies) }

/-- Analyzes C sources. -/
def analyzer : Analyzer := analyzerFor .c ["c", "h"]

/-- Analyzes C++ sources. -/
def objectAnalyzer : Analyzer := analyzerFor .cpp ["cc", "cpp", "cxx", "hpp", "hh"]

end CodeAtlas.Source.Native
