import CodeAtlas.Files.Locate
import CodeAtlas.Glob

/-!
# Repositories

A repository is a folder of a tree with the rules for what is looked at in it: which folders and
paths are left out, how large a file may be, and how links to its lines are made.
-/

namespace CodeAtlas

/-- A file that is looked at. -/
structure SourceFile where
  /-- Its path below the root. -/
  rel : String
  name : String
  extension : String
  content : List Char

/-- A folder with the rules for looking at it. -/
structure Repository where
  tree : Tree
  root : Location
  baseUrl : Option String
  branch : String
  maxFileSize : Nat
  excludedDirs : List String
  excludedPaths : List Glob

/-- What may be chosen about an analysis. -/
structure Scope where
  baseUrl : Option String := none
  branch : Option String := none
  maxFileSize : Option Nat := none
  excludedDirs : List String := []
  excludedPaths : List String := []

/-- The largest size of a file that is looked at, unless another is chosen. -/
def defaultMaxFileSize : Nat := 100 * 1024

/-- The branch of links, unless another is chosen. -/
def defaultBranch : String := "main"

/-- The folders that are always left out. -/
def defaultExcludedDirs : List String := [
  ".git", "node_modules", "vendor", "__pycache__", ".venv", "venv", "dist", "build", "target",
  ".terraform", ".next", "coverage", ".idea", ".vscode", ".cache", ".pytest_cache", ".mypy_cache",
  "bower_components", ".sfdx"]

/-- The list with `more` behind it, without what is there already. -/
def addNew {α : Type} [BEq α] (l more : List α) : List α :=
  more.foldl (fun l a => if l.contains a then l else l ++ [a]) l

section
variable {α : Type} [BEq α] {l more : List α}

theorem addNew_cons (a : α) : addNew l (a :: more)
    = addNew (if l.contains a then l else l ++ [a]) more := rfl

theorem addNew_append (more' : List α) : addNew l (more ++ more') = addNew (addNew l more) more' :=
  List.foldl_append ..

variable [LawfulBEq α]

theorem mem_addNew {a : α} : a ∈ addNew l more ↔ a ∈ l ∨ a ∈ more := by
  induction more generalizing l with
  | nil => simp [addNew]
  | cons b more ih =>
      rw [addNew_cons, ih, List.mem_cons, ← or_assoc]
      refine or_congr_left ?_
      split
      · next hb =>
        refine ⟨.inl, fun h => h.elim id ?_⟩
        rintro rfl
        exact List.contains_iff_mem.1 hb
      · rw [List.mem_append, List.mem_singleton]

theorem nodup_addNew (h : l.Nodup) : (addNew l more).Nodup := by
  induction more generalizing l with
  | nil => exact h
  | cons b more ih =>
      rw [addNew_cons]
      refine ih ?_
      split
      · exact h
      · next hb =>
        rw [List.contains_iff_mem] at hb
        refine List.nodup_append.2 ⟨h, List.pairwise_singleton _ b, fun a ha c hc => ?_⟩
        rw [List.mem_singleton.1 hc]
        exact fun heq => hb (heq ▸ ha)

/-- Adding what is there already makes no difference. -/
theorem addNew_of_subset (h : more ⊆ l) : addNew l more = l := by
  induction more with
  | nil => rfl
  | cons b more ih =>
      obtain ⟨hb, hmore⟩ := List.cons_subset.1 h
      rw [addNew_cons, if_pos (List.contains_iff_mem.2 hb), ih hmore]

end

/-- The repository at the folder to which `root` leads. -/
def Scope.repository (s : Scope) (tree : Tree) (root : Location) : Repository where
  tree
  root
  baseUrl := s.baseUrl.map fun u => String.ofList (Text.trimEndWhile (· == '/') u.toList)
  branch := s.branch.getD defaultBranch
  maxFileSize := s.maxFileSize.getD defaultMaxFileSize
  excludedDirs := addNew defaultExcludedDirs s.excludedDirs
  excludedPaths := s.excludedPaths.filterMap Glob.ofString?

namespace Repository

/-- A file below the root: what is left of its path, its name and its bytes. -/
structure Entry where
  rel : Path
  name : String
  bytes : List UInt8

/-- The entry's path below the root as text. -/
def Entry.relText (e : Entry) : String := e.rel.toString

/-- What follows the last point of the entry's name. -/
def Entry.extension? (e : Entry) : Option String := Path.extensionOf? e.name

/-- Whether a folder on the way to the file is left out. -/
def isPruned (r : Repository) (rel : Path) : Bool :=
  rel.dropLast.any r.excludedDirs.contains

/-- The location of a file below the root, or of the root itself. -/
def locationOf (r : Repository) (rel : Path) : Location :=
  if rel.isEmpty then r.root else .join r.root rel.toString

/-- All files below the root, or the root itself if it is a file. -/
def allEntries (r : Repository) : List Entry :=
  match r.tree.locate r.root with
  | .error _ => []
  | .ok root => (r.tree.below root).map fun (rel, bytes) =>
      { rel, name := Path.fileName (root ++ rel), bytes }

/-- The files that may be looked at and that `accept` takes, in the order of their paths. -/
def entries (r : Repository) (accept : Entry → Bool) : List Entry :=
  r.allEntries.filter fun e =>
    !r.isPruned e.rel && accept e && e.bytes.length ≤ r.maxFileSize &&
      (r.locationOf e.rel).utf8ByteSize ≤ Location.maxBytes &&
      !r.excludedPaths.any fun g => g.test e.relText

/-- Whether a file name has one of the extensions, in any case. -/
def hasExtension (extensions : List String) (e : Entry) : Bool :=
  match e.extension? with
  | some ext => extensions.any fun x => asciiLowered x == asciiLowered ext
  | none => false

/-- The file of an entry, read. -/
def load (e : Entry) : SourceFile where
  rel := e.relText
  name := e.name
  extension := e.extension?.getD ""
  content := Text.decode e.bytes

/-- The files with one of the extensions. -/
def sourceFiles (r : Repository) (extensions : List String) : List SourceFile :=
  (r.entries (hasExtension extensions)).map load

/-- The files with a name. -/
def named (r : Repository) (name : String) : List SourceFile :=
  (r.entries fun e => e.name == name).map load

/-- Whether a file with this name stands right below the root. -/
def hasFile (r : Repository) (name : String) : Bool :=
  r.tree.leadsToFile (.join r.root name)

/-- The text without any `./` in front. -/
def dropHere : List Char → List Char
  | '.' :: '/' :: text => dropHere text
  | text => text

/-- The link to a line of a file, if links can be made. Line 0 is the file as a whole. -/
def sourceLink (r : Repository) (rel : String) (line : Nat) : Option String :=
  r.baseUrl.map fun base =>
    let path := String.ofList ((dropHere rel.toList).dropWhile (· == '/'))
    base ++ "/blob/" ++ r.branch ++ "/" ++ path ++ if line = 0 then "" else "#L" ++ toString line

end Repository

/-- Whether a file is a test, by its name. -/
def isTestFile (path : String) : Bool :=
  let name := (Text.asciiLower ((Text.splitChar '/' path.toList).getLastD []))
  Text.containsWord name "test".toList || Text.containsWord name "spec".toList

end CodeAtlas
