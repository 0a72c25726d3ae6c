import CodeAtlas.Facts.Basic
import CodeAtlas.Toml.Reader
import CodeAtlas.Text.Basic
import CodeAtlas.Json.Decode
import CodeAtlas.Json.Draft

/-!
# Package files

Package files list the packages that others depend on: those of Rust in the tables of a document,
those in JSON in sections that map names to versions. Project files of Salesforce list packages by
folder and give them aliases.
-/

namespace CodeAtlas.Manifest

/-! ## Places and names -/

/-- The first line, counted from 1, that starts with `needle` behind its blanks, or else that holds
it anywhere. -/
def lineOf? (text needle : List Char) : Option Nat :=
  let lines := Text.lines text
  let starting := lines.findIdx? fun l => Text.startsWith (Text.trimStart l) needle
  let holding := lines.findIdx? fun l => Text.containsWord l needle
  (starting.or holding).map (· + 1)

/-- Whether a character ends the name of a package in a requirement. -/
def endsName (c : Char) : Bool :=
  ['=', '>', '<', '~', '!', '[', ';', ' ', '@'].contains c

/-- The name of the package in front of a requirement. -/
def packageName (requirement : List Char) : List Char :=
  Text.trim (requirement.takeWhile fun c => !endsName c)

/-!
## Package files of Rust

Dependencies stand in three sections of the document, in the same sections of each target, and in
the workspace.
-/

/-- The sections with dependencies. -/
def cargoSections : List String := ["dependencies", "dev-dependencies", "build-dependencies"]

/-- The dependency that a key with its value stands for. A table may give the package another name,
and may take its version from the workspace. -/
def cargoDependency (text : List Char) (file key : String) (spec : Toml) : Dependency :=
  let name := match spec with
    | .table _ _ => (spec.get? "package" >>= Toml.str?).getD key
    | _ => key
  let version := match spec with
    | .str s => some s
    | .table _ _ =>
        (spec.get? "version" >>= Toml.str?).or
          (if (spec.get? "workspace" >>= Toml.bool?) == some true then some "workspace" else none)
    | _ => none
  let line? := (lineOf? text (key ++ " =").toList).or ((lineOf? text (key ++ "=").toList).or
    (lineOf? text ("." ++ key ++ "]").toList))
  { name, version, file, line := line?.getD 1
    importPath := if name == key then none else some key }

/-- The tables of dependencies of a document, in order. -/
def cargoTables (doc : Toml) : List Toml :=
  let here := cargoSections.filterMap doc.get?
  let targets := ((doc.get? "target") >>= Toml.table?).getD []
  let there := targets.flatMap fun t => cargoSections.filterMap t.2.get?
  here ++ there ++ ((doc.get? "workspace") >>= (·.get? "dependencies")).toList

/-- The dependencies in a package file of Rust. -/
def cargoToml? (text : List Char) (file : String) : Option (List Dependency) :=
  (Toml.parse? text).map fun doc => (cargoTables doc).flatMap fun t =>
    ((t.table?).getD []).map fun (key, spec) => cargoDependency text file key spec

/-! ## Package files in JSON -/

/-- The line on which a name stands in quotes, the first line if there is none. -/
def quotedLine (text : List Char) (name : String) : Nat :=
  (lineOf? text ('"' :: (name.toList ++ ['"']))).getD 1

/-- The dependencies in the sections of a package file, without the names that `skip` takes. -/
def sectionDependencies (sections : List String) (skip : String → Bool) (text : List Char)
    (file : String) : Option (List Dependency) :=
  (Json.parseChars? text).map fun doc => sections.flatMap fun s =>
    let members := ((doc.get? s) >>= Json.obj?).getD []
    (members.filter fun m => !skip m.1).map fun (name, version) =>
      { name, version := version.str?, file, line := quotedLine text name }

/-- The dependencies in a package file of a script package. -/
def packageJson? : List Char → String → Option (List Dependency) :=
  sectionDependencies ["dependencies", "devDependencies"] fun _ => false

/-- Whether a name means the platform and not a package. -/
def isPlatform (name : String) : Bool :=
  name == "php" || Text.startsWith name.toList "ext-".toList ||
    Text.startsWith name.toList "lib-".toList

/-- The dependencies in a package file of a PHP package. -/
def composerJson? : List Char → String → Option (List Dependency) :=
  sectionDependencies ["require", "require-dev"] isPlatform

/-- The fields of a package that a project file depends on. -/
def packageFields : List String := ["package", "versionNumber"]

/-- What counts in a project file. -/
def projectShape : Json.Shape :=
  .record [
    ("packageDirectories", .list (.record [("dependencies", .list (.recordOf packageFields))])),
    ("packageAliases", .whole)]

/-- The package that a project file depends on, and its version. -/
def packageDependency? (j : Json) : Option (String × Option String) := do
  let r ← j.record? packageFields 1
  return (← Json.field? Json.str? r "package", ← Json.optionalField? Json.str? r "versionNumber")

/-- The dependencies of a folder of a project file. -/
def packageDirectory? (j : Json) : Option (List (String × Option String)) := do
  let r ← j.record? ["dependencies"] 1
  Json.defaultField? (Json.list? packageDependency?) [] r "dependencies"

/-- The dependencies in a project file of Salesforce: those of its folders, then the aliases that
are not among them. -/
def sfdxProject? (text : List Char) (file : String) : Option (List Dependency) := do
  let doc ← projectShape.read? (text.map some)
  let r ← doc.record? ["packageDirectories", "packageAliases"] 2
  let folders ← Json.defaultField? (Json.list? packageDirectory?) [] r "packageDirectories"
  let aliases ← Json.defaultField? (Json.members? fun j => some j) [] r "packageAliases"
  let listed : List Dependency := folders.flatten.map fun (name, version) =>
    { name, version, file, line := quotedLine text name
      importPath := aliases.lookup name >>= Json.str? }
  let others := aliases.filter fun a => !listed.any fun d => d.name == a.1
  return listed ++ others.map fun (name, id) =>
    { name, file, line := quotedLine text name, importPath := id.str? }

end CodeAtlas.Manifest
