import CodeAtlas.Scan
import CodeAtlas.Text.Indent
import CodeAtlas.Text.Literal
import CodeAtlas.Analyzer

/-!
# Lua sources

Endpoints are routes of a web framework, methods that a server's request handler checks for, and the
applications and commands that a switch executes. Dependencies come from package specifications.
-/

namespace CodeAtlas.Source.Lua

open Text

/-!
## Classes in Lua sources

A table is a class if a class function makes it, if it has methods or if it is its own index. Its
fields are those that are assigned to it, and those that its methods assign to themselves.
-/

/-- A name that is given an empty table. -/
def emptyTable : Pattern := .ofString
  r"(?m)^[ \t]*(?:local\s+)?(?P<name>[A-Z]\w*)\s*=\s*\x7b\s*\x7d"

/-- A name that is given what a class function makes. -/
def classCall : Pattern := .ofString
  r#"(?m)^[ \t]*(?:local\s+)?(?P<name>[A-Z]\w*)\s*=\s*(?:class\s*\(\s*["'][\w.]+["']\s*(?:,\s*(?P<base>[\w.]+))?\s*\)|(?P<extends>[A-Z][\w.]*)\s*:\s*extend\s*\()"#

/-- A table that is given an index. -/
def indexAssignment : Pattern := .ofString
  r"(?m)^[ \t]*(?P<name>[A-Z]\w*)\.__index\s*=\s*(?P<value>[\w.]+)"

/-- A table that is given a table to fall back to. -/
def metatableCall : Pattern := .ofString
  r"\bsetmetatable\(\s*(?P<name>[A-Z]\w*)\s*,\s*(?:\x7b\s*__index\s*=\s*(?P<base>[\w.]+)|(?P<direct>[A-Z][\w.]*)\s*\))"

/-- The header of a method. -/
def methodHeader : Pattern := .ofString
  r"(?m)^[ \t]*(?:function\s+(?P<class>[A-Z]\w*)[:.](?P<name>\w+)\s*\(|(?P<class2>[A-Z]\w*)\.(?P<name2>\w+)\s*=\s*function\b)"

/-- A field that is assigned to a table. -/
def tableField : Pattern := .ofString
  r"(?m)^[ \t]*(?P<class>[A-Z]\w*)\.(?P<name>[a-z_]\w*)\s*=\s*(?P<value>[^\n]+?)\s*$"

/-- A field that a method assigns to its own table. -/
def selfField : Pattern := .ofString
  r"^\s*self\.(?P<name>[a-z_]\w*)\s*=\s*(?P<value>[^\n]+?)\s*$"

/-- The header of a function in a table. -/
def functionHeader : Pattern := .ofString
  r"^\s*function\s+(?P<class>[A-Z]\w*)[:.]\w+\s*\("

/-- A class: its name, the line that declares it and the class that it names as its parent. -/
structure Class where
  name : String
  line : Nat
  parent : Option String := none

/-- The line in which the name in a match stands, and the name. -/
def namedLine? (f : SourceFile) (m : Match) : Option (Nat × String) :=
  (m.named? "name").map fun name => (lineAt f.content name.start, name.text)

/-- The classes that class functions make; of several with one name the last. -/
def madeClasses (f : SourceFile) : List Class :=
  let found := (classCall.findAll f.content).filterMap fun m =>
    (namedLine? f m).map fun (line, name) =>
      ({ name, line, parent := (m.capture? "base").or (m.capture? "extends") } : Class)
  found.foldl (fun kept c => kept.filter (·.name != c.name) ++ [c]) []

/-- The methods of a file, each with its class, in their order. -/
def methods (f : SourceFile) : List (String × String) :=
  (methodHeader.findAll f.content).filterMap fun m => do
    let c ← (m.capture? "class").or (m.capture? "class2")
    let name ← (m.capture? "name").or (m.capture? "name2")
    if name == "__index" then none else some (c, name)

/-- The tables that are their own index. -/
def selfIndexed (f : SourceFile) : List String :=
  (indexAssignment.findAll f.content).filterMap fun m =>
    if m.textOf "name" == m.textOf "value" then some (m.textOf "name") else none

/-- The classes among plain tables; of several with one name the first. -/
def tableClasses (f : SourceFile) : List Class :=
  let named := selfIndexed f ++ (methods f).map (·.1)
  let found := ((emptyTable.findAll f.content).filterMap (namedLine? f)).filter fun (_, name) =>
    named.contains name
  found.foldl (fun kept (line, name) =>
    if kept.any (·.name == name) then kept else kept ++ [{ name, line }]) []

/-- The classes of a file. -/
def classes (f : SourceFile) : List Class :=
  let made := madeClasses f
  made ++ (tableClasses f).filter fun c => !made.any (·.name == c.name)

/-- The table that a class falls back to. -/
def fallback? (f : SourceFile) (name : String) : Option String :=
  (metatableCall.findAll f.content).findSome? fun m =>
    if m.textOf "name" == name then (m.capture? "base").or (m.capture? "direct") else none

/-- The type of a value. -/
def typeOf (value : List Char) : String :=
  if startsWith value ['"'] || startsWith value ['\''] || startsWith value ['[', '['] then "string"
  else if value == "true".toList || value == "false".toList then "boolean"
  else if value == "nil".toList then "nil"
  else if startsWith value ['\x7b'] then "table"
  else if isDecimal value then "number"
  else "any"

/-- The field of an assignment. -/
def fieldOf (name value : String) : Field :=
  let value := trim (trimEndWhile (· == ';') value.toList)
  let type := typeOf value
  { name, type, required := false
    default := if type == "any" || type == "table" then none else some (String.ofList value) }

/-- The fields that are assigned to tables, each with its table. -/
def tableFields (f : SourceFile) : List (String × Field) :=
  (tableField.findAll f.content).filterMap fun m =>
    let name := m.textOf "name"
    let value := m.textOf "value"
    if startsWith value.toList "function".toList || startsWith name.toList ['_', '_'] then none
    else some (m.textOf "class", fieldOf name value)

/-- The fields that the methods in some lines assign to their own tables, each with its table. The
lines are behind the header of a function in `current?`. -/
def selfFields (current? : Option String) : List (List Char) → List (String × Field)
  | [] => []
  | line :: lines =>
      match functionHeader.find? line with
      | some m => selfFields (some (m.textOf "class")) lines
      | none =>
          let found? := do
            let current ← current?
            let m ← selfField.find? line
            return (current, fieldOf (m.textOf "name") (m.textOf "value"))
          found?.toList ++ selfFields current? lines

/-- The fields of a class, each name once. -/
def fieldsOf (fields : List (String × Field)) (name : String) : List Field :=
  let own := fields.filterMap fun (c, field) => if c == name then some field else none
  own.foldl (fun kept field => if kept.any (·.name == field.name) then kept else kept ++ [field]) []

/-- The models of a file, in the order of their lines. -/
def fileModels (r : Repository) (f : SourceFile) : List Model :=
  let lines := lines f.content
  let methods := methods f
  let fields := tableFields f ++ selfFields none lines
  let byName := (classes f).mergeSort fun a b => !(b.name < a.name)
  (byName.mergeSort fun a b => a.line ≤ b.line).map fun c =>
    let own := methods.filterMap fun (name, m) => if name == c.name then some m else none
    { r.model f c.line c.name .class_ with
      fields := (fieldsOf fields c.name).take maxFields
      methods := (addNew [] own).take maxMethods
      description := (docComment? lines c.line ["---".toList, "--".toList]).map String.ofList
      parent := c.parent.or (fallback? f c.name) }

/-! ## Endpoints -/

/-- A route of an application. -/
def routeCall : Pattern := .ofString
  r#"\b(?:app|self)\s*:\s*(?P<method>get|post|put|delete|patch|match)\s*\(\s*(?:["'](?P<name>[\w.-]+)["']\s*,\s*)?["'](?P<path>/[^"']*)["']"#

/-- A check for the method of a request. -/
def methodCheck : Pattern := .ofString
  r#"\bngx\.req\.get_method\(\)\s*==\s*["'](?P<method>[A-Z]+)["']"#

/-- A check for the path of a request. -/
def pathCheck : Pattern := .ofString
  r#"\bngx\.var\.(?:uri|request_uri)\s*==\s*["'](?P<path>[^"']+)["']"#

/-- An application that a session executes. -/
def sessionCall : Pattern := .ofString
  r#"\bsession\s*:\s*execute\(\s*["'](?P<app>\w+)["']\s*(?:,\s*["'](?P<args>[^"']*)["'])?"#

/-- A command that is executed. -/
def commandCall : Pattern := .ofString
  r#"\bapi\s*:\s*execute(?:String)?\(\s*["'](?P<command>[\w_]+)"#

/-- The path of the last check in front of a byte offset. -/
def checkedPath? (f : SourceFile) (offset : Nat) : Option String :=
  ((pathCheck.findAll (takeBytes offset f.content)).getLast?).map (·.textOf "path")

/-- The path of a file whose requests are not checked for one. -/
def ownPath (f : SourceFile) : String :=
  "/" ++ String.ofList (trimEndWord ".lua".toList f.name.toList)

/-- The endpoints of a file. -/
def fileEndpoints (r : Repository) (f : SourceFile) : List Endpoint :=
  ((f.find routeCall).map fun (line, m) =>
    let word := m.textOf "method"
    let method := if word == "match" then "ANY" else asciiUppered word
    { r.endpoint f line method (m.textOf "path") with
      description := m.capture? "name", decorators := ["lapis"] }) ++
  ((f.find methodCheck).map fun (line, m) =>
    let path := (checkedPath? f m.start).getD (ownPath f)
    { r.endpoint f line (m.textOf "method") path with decorators := ["openresty"] }) ++
  ((f.find sessionCall).map fun (line, m) =>
    { r.endpoint f line "DIALPLAN" (m.textOf "app") with
      description := m.capture? "args", decorators := ["freeswitch_session"] }) ++
  (f.find commandCall).map fun (line, m) =>
    { r.endpoint f line "API" (m.textOf "command") with decorators := ["freeswitch_api"] }

/-! ## Side effects and settings -/

/-- The rules for side effects. -/
def effects : List EffectRule := effectRules [
  (r#"\bfreeswitch\.Dbh\(\s*["'](?P<target>[^"']+)"#, .database, "connect", ""),
  (r"\b\w*dbh\s*:\s*(?P<op>query|execute|affected_rows)\s*\(", .database, "query",
    "freeswitch_dbh"),
  (r"\bluasql\.(?P<target>\w+)\s*\(", .database, "connect", ""),
  (r#"(?i):\s*execute\(\s*["'][^"']*?\b(?:FROM|INTO|UPDATE)\s+(?P<target>\w+)"#,
    .database, "sql", ""),
  (r#"\bngx\.location\.capture\(\s*["'](?P<target>[^"']+)"#, .http, "subrequest", ""),
  (r#"\bhttpc?\s*[.:]\s*request(?:_uri)?\(\s*(?:["'](?P<target>[^"']+))?"#, .http, "request", ""),
  (r#"\brequire\s*\(?\s*["'](?P<target>socket\.http|resty\.http|ssl\.https)["']"#,
    .http, "client", ""),
  (r#"\bio\.open\(\s*(?:["'](?P<target>[^"']+)["'])?"#, .file, "open", ""),
  (r"\bos\.(?P<op>remove|rename)\(", .file, "file", ""),
  (r#"\brequire\s*\(?\s*["'](?:resty\.)?redis["']"#, .cache, "connect", "redis"),
  (r"\bred\s*:\s*(?P<op>get|set|hget|hset|del|incr|expire|publish|lpush|rpush)\s*\(",
    .cache, "command", "redis"),
  (r"\bfreeswitch\.API\(\)", .externalApi, "api", "freeswitch"),
  (r#"\bfreeswitch\.Event\(\s*["'](?P<target>[\w:]+)"#, .queue, "event_fire", "")]

/-- The rules for settings. -/
def settingCalls : List SettingRule := settingRules [
  (r#"\bos\.getenv\(\s*["'](?P<key>[^"']+)["']\s*\)(?:\s*or\s*(?P<default>"[^"]*"|'[^']*'|[\w.]+))?"#,
    "env"),
  (r#"\bfreeswitch\.getGlobalVariable\(\s*["'](?P<key>[^"']+)["']\s*\)(?:\s*or\s*(?P<default>"[^"]*"|'[^']*'|[\w.]+))?"#,
    "freeswitch_global"),
  (r#"\bsession\s*:\s*getVariable\(\s*["'](?P<key>[^"']+)["']\s*\)(?:\s*or\s*(?P<default>"[^"]*"|'[^']*'|[\w.]+))?"#,
    "channel_variable")]

/-- The settings of files. A variable of a channel may always be unset. -/
def settings (r : Repository) (files : List SourceFile) : List Setting :=
  (scanAllSettings r settingCalls files).map fun s =>
    if s.source == "channel_variable" then { s with required := false } else s

/-! ## Dependencies -/

/-- The dependencies in the specification of a package. -/
def dependencyList : Pattern := .ofString
  r"(?s)\bdependencies\s*=\s*\x7b(?P<body>[^\x7d]*)\x7d"

/-- A dependency with its versions. -/
def dependencyEntry : Pattern := .ofString
  r#"["'](?P<name>[\w.-]+)\s*(?P<version>(?:[<>=~]+\s*[\w.-]+\s*,?\s*)*)["']"#

/-- The dependency of an entry in a list that starts at a byte offset. The language itself is
none. -/
def dependency? (f : SourceFile) (start : Nat) (m : Match) : Option Dependency := do
  let name ← m.named? "name"
  if name.text == "lua" then none
  let version := (m.capture? "version").map fun v =>
    String.ofList (trim (trimEndWhile (· == ',') v.toList))
  return {
    name := name.text, version, file := f.rel, line := lineAt f.content (start + name.start) }

/-- The dependencies of a specification. -/
def fileDependencies (f : SourceFile) : List Dependency :=
  match dependencyList.find? f.content >>= (·.named? "body") with
  | some body => (dependencyEntry.findAll body.text.toList).filterMap (dependency? f body.start)
  | none => []

/-- The dependencies of a repository. -/
def dependencies (r : Repository) : List Dependency :=
  let specifications := r.entries fun e => e.extension? == some "rockspec"
  specifications.flatMap fun e => fileDependencies (Repository.load e)

/-! ## The analyzer -/

/-- Analyzes Lua sources. -/
def analyzer : Analyzer where
  language := "lua"
  extensions := ["lua"]
  extract r :=
    let files := r.examined ["lua"]
    { models := .ok ((untested files).flatMap (fileModels r))
      endpoints := .ok (files.flatMap (fileEndpoints r))
      sideEffects := .ok (scanAllEffects r effects files)
      settings := .ok (settings r files)
      dependencies := .ok (dependencies r) }

end CodeAtlas.Source.Lua
