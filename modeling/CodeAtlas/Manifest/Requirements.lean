import CodeAtlas.Facts.Basic
import CodeAtlas.Manifest.Package
import CodeAtlas.Toml.Reader

/-!
# Requirements of Python packages

A requirement is the name of a package, with extras in brackets, a version and a marker behind a
semicolon. Requirements stand on the lines of a file of their own or in a project file.
-/

namespace CodeAtlas.Manifest

/-- The text without extras in brackets in front. -/
def dropExtras (text : List Char) : List Char :=
  match text with
  | '[' :: rest =>
      match Text.cut? [']'] rest with
      | some (_, behind) => Text.trim behind
      | none => []
  | _ => text

/-- The dependency that a requirement on a line names. -/
def requirement? (text : List Char) (file : String) (line : Nat) : Option Dependency :=
  let text := Text.trim text
  let name := packageName text
  if name.isEmpty then none
  else
    let rest := dropExtras (Text.trim (text.drop name.length))
    let version := Text.trim (rest.takeWhile (· != ';'))
    some { name := String.ofList name, file, line
           version := if version.isEmpty then none else some (String.ofList version) }

/-- The dependency on a line of a file of requirements. -/
def requirementLine? (raw : List Char) (file : String) (number : Nat) : Option Dependency :=
  let line := Text.trim (Text.upTo [' ', '#'] raw)
  match line with
  | [] | '#' :: _ | '-' :: _ => none
  | _ => requirement? line file number

/-- The dependencies on lines, the first of which has a number. -/
def requirementLines (file : String) (number : Nat) : List (List Char) → List Dependency
  | [] => []
  | line :: lines =>
      (requirementLine? line file number).toList ++ requirementLines file (number + 1) lines

/-- The dependencies in a file of requirements. -/
def requirements (text : List Char) (file : String) : List Dependency :=
  requirementLines file 1 (Text.lines text)

/-- The strings among values. -/
def stringsOf (t? : Option Toml) : List String :=
  ((t? >>= Toml.arr?).getD []).filterMap Toml.str?

/-- The requirements of a project and of its optional parts. -/
def projectRequirements (project : Toml) : List String :=
  let groups := ((project.get? "optional-dependencies") >>= Toml.table?).getD []
  stringsOf (project.get? "dependencies") ++ groups.flatMap fun g => stringsOf (some g.2)

/-- The tables of dependencies that the Poetry tool reads. -/
def poetryTables (poetry : Toml) : List Toml.Members :=
  let tableAt (t : Toml) (key : String) : List Toml.Members := ((t.get? key) >>= Toml.table?).toList
  let groups := ((poetry.get? "group") >>= Toml.table?).getD []
  tableAt poetry "dependencies" ++ tableAt poetry "dev-dependencies" ++
    groups.flatMap fun g => tableAt g.2 "dependencies"

/-- The version in what stands for a package in a table. -/
def specVersion? (spec : Toml) : Option String :=
  match spec with
  | .str s => some s
  | .table _ _ => spec.get? "version" >>= Toml.str?
  | _ => none

/-- The dependencies in a project file of Python. -/
def pyproject? (text : List Char) (file : String) : Option (List Dependency) := do
  let doc ← Toml.parse? text
  let listed := ((doc.get? "project").map projectRequirements).getD []
  let plain := listed.filterMap fun spec =>
    let name := packageName spec.toList
    requirement? spec.toList file ((lineOf? text ('"' :: name)).getD 1)
  let tables := (((doc.get? "tool") >>= (·.get? "poetry")).map poetryTables).getD []
  let packages := tables.flatten.filter fun p => asciiLowered p.1 != "python"
  return plain ++ packages.map fun (name, spec) =>
    let line? := (lineOf? text (name ++ " =").toList).or (lineOf? text name.toList)
    { name, version := specVersion? spec, file, line := line?.getD 1 }

end CodeAtlas.Manifest
