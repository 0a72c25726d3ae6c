import CodeAtlas.Language.Basic
import CodeAtlas.Repository

/-!
# Detecting languages

Some files right below the root of a repository tell its language. Otherwise its language is the
one with the most files.
-/

namespace CodeAtlas.Language

/-- The names of files that tell a language, the most telling ones first. -/
def indicators : List (String × Language) := [
  ("sfdx-project.json", .apex), ("go.mod", .go), ("Cargo.toml", .rust),
    ("tsconfig.json", .typeScript),
  ("package.json", .javaScript), ("composer.json", .php), ("pyproject.toml", .python),
  ("requirements.txt", .python), ("setup.py", .python), ("main.tf", .terraform),
  ("versions.tf", .terraform), ("CMakeLists.txt", .cpp)]

/-- The language of a file, by the extension of its name. -/
def ofFile? (e : Repository.Entry) : Option Language := e.extension? >>= ofExtension?

/-- The languages of the files of a repository, one for each file. -/
def ofFiles (r : Repository) : List Language :=
  (r.entries fun e => (ofFile? e).isSome).filterMap ofFile?

/-- The languages that files below the root tell. -/
def indicated (r : Repository) : List Language :=
  (indicators.filter fun (name, _) => r.hasFile name).map (·.2)

/-- How many files there are of each language that has some, in order. -/
def counts (files : List Language) : List (Language × Nat) :=
  (all.map fun l => (l, files.count l)).filter fun p => p.2 != 0

/-- The count that comes next if it is larger, and else the best so far. -/
def better (best : Option (Language × Nat)) (next : Language × Nat) : Option (Language × Nat) :=
  match best with
  | some p => if p.2 < next.2 then some next else some p
  | none => some next

/-- The language with the most places in `files`, the first in order of those with equally many. -/
def mostFrequent? (files : List Language) : Option Language :=
  ((counts files).foldl better none).map (·.1)

/-- The language of a repository. -/
def primary? (r : Repository) : Option Language :=
  match indicated r with
  | l :: _ => some l
  | [] => mostFrequent? (ofFiles r)

/-- All languages of a repository, in order. -/
def present (r : Repository) : List Language :=
  let found := indicated r ++ ofFiles r
  all.filter found.contains

end CodeAtlas.Language
