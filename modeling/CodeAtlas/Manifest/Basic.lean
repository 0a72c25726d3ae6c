import CodeAtlas.Manifest.GoMod
import CodeAtlas.Manifest.Package
import CodeAtlas.Manifest.Requirements
import CodeAtlas.Repository

/-!
# Manifests

Dependencies come from manifests, wherever they stand in a repository. A manifest is known by its
name; one that cannot be read is passed over.
-/

namespace CodeAtlas

/-- The kinds of manifests. -/
inductive ManifestKind where
  | goMod
  | packageJson
  | composerJson
  | cargoToml
  | requirements
  | pyproject
  | sfdxProject
  deriving DecidableEq, Repr

/-- Why a manifest cannot be read. -/
inductive ManifestError where
  /-- A module file names no module. -/
  | noModule
  /-- The text is no document of its format, or not one of the right form. -/
  | malformed
  deriving DecidableEq, Repr

/-- What is said about a manifest that cannot be read. -/
def ManifestError.message : ManifestError → String
  | noModule => "no module declaration found in go.mod"
  | malformed => "malformed manifest"

namespace ManifestKind

/-- All kinds, in order. -/
def all : List ManifestKind :=
  [goMod, packageJson, composerJson, cargoToml, requirements, pyproject, sfdxProject]

/-- The label of a kind. -/
def label : ManifestKind → String
  | goMod => "go_mod"
  | packageJson => "package_json"
  | composerJson => "composer_json"
  | cargoToml => "cargo_toml"
  | requirements => "requirements"
  | pyproject => "pyproject"
  | sfdxProject => "sfdx_project"

/-- Whether a file with this name is a manifest of the kind. -/
def fits (k : ManifestKind) (name : String) : Bool :=
  match k with
  | goMod => name == "go.mod"
  | packageJson => name == "package.json"
  | composerJson => name == "composer.json"
  | cargoToml => name == "Cargo.toml"
  | requirements =>
      Text.startsWith name.toList "requirements".toList && Text.endsWith name.toList ".txt".toList
  | pyproject => name == "pyproject.toml"
  | sfdxProject => name == "sfdx-project.json"

/-- The dependencies in a manifest of the kind. -/
def parse (k : ManifestKind) (text : List Char) (file : String) :
    Except ManifestError (List Dependency) :=
  let read (found? : Option (List Dependency)) : Except ManifestError (List Dependency) :=
    match found? with
    | some l => .ok l
    | none => .error .malformed
  match k with
  | goMod =>
      match Manifest.GoModule.parse? text with
      | some m => .ok (m.dependencies file)
      | none => .error .noModule
  | packageJson => read (Manifest.packageJson? text file)
  | composerJson => read (Manifest.composerJson? text file)
  | cargoToml => read (Manifest.cargoToml? text file)
  | requirements => .ok (Manifest.requirements text file)
  | pyproject => read (Manifest.pyproject? text file)
  | sfdxProject => read (Manifest.sfdxProject? text file)

end ManifestKind

/-- The dependencies in all manifests of the given kinds. -/
def Repository.dependencies (r : Repository) (kinds : List ManifestKind) : List Dependency :=
  (r.entries fun e => kinds.any (·.fits e.name)).flatMap fun e =>
    match kinds.find? (·.fits e.name) with
    | none => []
    | some k =>
        match k.parse (Text.decode e.bytes) e.relText with
        | .ok l => l
        | .error _ => []

end CodeAtlas
