import CodeAtlas.Facts.Basic

/-!
# Module files of Go

A module file names its module, the modules it requires and those it replaces. Requirements and
replacements stand on lines of their own or in blocks in parentheses.
-/

namespace CodeAtlas.Manifest

/-- A module file. -/
structure GoModule where
  name : String := ""
  /-- The required modules with their versions and lines. -/
  requires : List (String × String × Nat) := []
  /-- What stands in for a module, by its name, the last one first. -/
  replaces : List (String × String) := []
  deriving DecidableEq, Repr

namespace GoModule

/-- The text in front of a comment. -/
def dropComment (line : List Char) : List Char :=
  match Text.cut? ['/', '/'] line with
  | some (front, _) => front
  | none => line

/-- The module and the version that a requirement names. -/
def requirement? (line : List Char) : Option (String × String) :=
  match Text.words (Text.trim (dropComment line)) with
  | [] => none
  | module :: rest =>
      if module == ['('] then none
      else some (String.ofList module, String.ofList (rest.headD []))

/-- The module that a replacement names and what stands in for it. -/
def replacement? (line : List Char) : Option (String × String) := do
  let (old, new) ← Text.cut? ['=', '>'] (Text.trim (dropComment line))
  let old ← (Text.words old).head?
  let new ← (Text.words new).head?
  return (String.ofList old, String.ofList new)

/-- How far a module file is read, and which blocks are open. -/
structure Reading where
  module : GoModule := {}
  inRequires : Bool := false
  inReplaces : Bool := false
  deriving DecidableEq, Repr

/-- Adds a required module. -/
def Reading.addRequired (r : Reading) (line : List Char) (number : Nat) : Reading :=
  match requirement? line with
  | some (name, version) =>
      { r with module := { r.module with
        requires := r.module.requires ++ [(name, version, number)] } }
  | none => r

/-- Adds a replacement. -/
def Reading.addReplacement (r : Reading) (line : List Char) : Reading :=
  match replacement? line with
  | some p => { r with module := { r.module with replaces := p :: r.module.replaces } }
  | none => r

/-- Reads a line with its number. -/
def Reading.step (r : Reading) (number : Nat) (raw : List Char) : Reading :=
  let line := Text.trim raw
  let behind (word : String) : Option (List Char) := Text.after? word.toList line
  if line.isEmpty || Text.startsWith line ['/', '/'] then r
  else match behind "module " with
  | some name =>
      let name := Text.trimWhile (· == '"') (Text.trim name)
      { r with module := { r.module with name := String.ofList name } }
  | none =>
      if (behind "require (").isSome || line == "require(".toList then { r with inRequires := true }
      else if (behind "replace (").isSome || line == "replace(".toList
        then { r with inReplaces := true }
      else if line == [')'] then { r with inRequires := false, inReplaces := false }
      else match behind "require " with
      | some rest => r.addRequired rest number
      | none =>
          match behind "replace " with
          | some rest => r.addReplacement rest
          | none =>
              if r.inRequires then r.addRequired line number
              else if r.inReplaces then r.addReplacement line
              else r

/-- Reads lines, the first of which has a number. -/
def readLines (r : Reading) (number : Nat) : List (List Char) → Reading
  | [] => r
  | line :: lines => readLines (r.step number line) (number + 1) lines

/-- The module file that a text is; it names its module. -/
def parse? (text : List Char) : Option GoModule :=
  let m := (readLines {} 1 (Text.lines text)).module
  if m.name.isEmpty then none else some m

/-- The required modules as dependencies. -/
def dependencies (m : GoModule) (file : String) : List Dependency :=
  m.requires.map fun (name, version, line) => {
    name, file, line
    version := if version.isEmpty then none else some version
    importPath := some ((m.replaces.lookup name).getD name) }

end GoModule

end CodeAtlas.Manifest
