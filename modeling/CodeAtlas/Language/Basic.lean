import CodeAtlas.Text.Basic

/-!
# Languages

The languages whose sources can be analysed, in their order, with their labels and the extensions
of their files.
-/

namespace CodeAtlas

/-- A language. -/
inductive Language where
  | go
  | php
  | typeScript
  | javaScript
  | python
  | apex
  | lua
  | rust
  | c
  | cpp
  | bash
  | actionScript
  | terraform
  deriving DecidableEq, Repr

namespace Language

/-- All languages, in order. -/
def all : List Language :=
  [go, php, typeScript, javaScript, python, apex, lua, rust, c, cpp, bash, actionScript, terraform]

theorem mem_all (l : Language) : l ∈ all := by cases l <;> decide

/-- The label of a language. -/
def label : Language → String
  | go => "go"
  | php => "php"
  | typeScript => "typescript"
  | javaScript => "javascript"
  | python => "python"
  | apex => "apex"
  | lua => "lua"
  | rust => "rust"
  | c => "c"
  | cpp => "cpp"
  | bash => "bash"
  | actionScript => "actionscript"
  | terraform => "terraform"

/-- The language that a word means. -/
def ofWord? (s : String) : Option Language :=
  match asciiLowered (trimmed s) with
  | "golang" => some go
  | "ts" => some typeScript
  | "js" | "node" => some javaScript
  | "py" => some python
  | "salesforce" | "sfdx" => some apex
  | "rs" => some rust
  | "c++" | "cxx" => some cpp
  | "shell" | "sh" => some bash
  | "as3" | "flex" => some actionScript
  | "hcl" | "tf" => some terraform
  | word => all.find? fun l => l.label == word

/-- What is said about a word that means no language. -/
def unknownMessage (s : String) : String := "unknown language: " ++ asciiLowered (trimmed s)

/-- The language of files with an extension. -/
def ofExtension? (ext : String) : Option Language :=
  match asciiLowered ext with
  | "go" => some go
  | "php" => some php
  | "ts" | "tsx" => some typeScript
  | "js" | "jsx" | "mjs" | "cjs" => some javaScript
  | "py" => some python
  | "cls" | "trigger" => some apex
  | "lua" => some lua
  | "rs" => some rust
  | "c" | "h" => some c
  | "cc" | "cpp" | "cxx" | "hpp" | "hh" => some cpp
  | "sh" | "bash" => some bash
  | "as" | "mxml" => some actionScript
  | "tf" => some terraform
  | _ => none

/-- Whether the first language comes in front of the second. -/
def before (a b : Language) : Bool := all.idxOf a < all.idxOf b

end Language

end CodeAtlas
