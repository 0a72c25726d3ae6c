import CodeAtlas.Text.Basic

/-!
# Trees of files

A path is where a file is: the list of the names on the way to it from the top of all folders, or
from a folder above it. Paths are sorted name by name. A tree holds files by path, with their bytes,
and folders. It is the whole file system that the library sees: reading and writing files are
functions on trees.
-/

namespace CodeAtlas

/-! ## Paths -/

/-- A path from the top, or below a folder. -/
abbrev Path := List String

namespace Path

/-- The path that a text with slashes writes. The names `.` and the empty name do not count, and
`..` goes back one folder. -/
def ofString (s : String) : Path :=
  let names := (Text.splitChar '/' s.toList).map String.ofList
  (names.foldl (fun (back : List String) name =>
    if name == "" || name == "." then back
    else if name == ".." then back.tail
    else name :: back) []).reverse

/-- The path with slashes between its names. -/
def toString (p : Path) : String := String.intercalate "/" p

/-- The text of a path from the top. -/
def absolute (p : Path) : String := "/" ++ toString p

/-- The last name. -/
def fileName (p : Path) : String := p.getLastD ""

/-- What follows the last point of a name, unless the only point is in front. -/
def extensionOf? (name : String) : Option String :=
  match Text.cutLast? ['.'] name.toList with
  | some (front, ext) => if front.isEmpty || name == ".." then none else some (String.ofList ext)
  | none => none

/-- What follows the last point of the last name. -/
def extension? (p : Path) : Option String := extensionOf? p.fileName

/-- Whether the first path comes in front of the second. -/
def before : Path → Path → Bool
  | _, [] => false
  | [], _ :: _ => true
  | a :: p, b :: q => if a = b then before p q else a < b

/-- What is left of a path below `root`. -/
def below? : (root path : Path) → Option Path
  | [], path => some path
  | _ :: _, [] => none
  | a :: root, b :: path => if a = b then below? root path else none

end Path

/-! ## Trees -/

/-- Files in the order of their paths, and folders that exist even if no file is below them. -/
structure Tree where
  files : List (Path × List UInt8) := []
  folders : List Path := []
  /-- The folder in which the program works. -/
  here : Path := []

namespace Tree

/-- Puts a file in its place, instead of one with the same path. -/
def insertFile (path : Path) (bytes : List UInt8) :
    List (Path × List UInt8) → List (Path × List UInt8)
  | [] => [(path, bytes)]
  | (p, b) :: files =>
      if p = path then (path, bytes) :: files
      else if path.before p then (path, bytes) :: (p, b) :: files
      else (p, b) :: insertFile path bytes files

/-- The tree with a file, whatever was there. -/
def put (t : Tree) (path : Path) (bytes : List UInt8) : Tree :=
  { t with files := insertFile path bytes t.files }

/-- The tree with a folder. -/
def addFolder (t : Tree) (path : Path) : Tree :=
  if t.folders.contains path then t else { t with folders := path :: t.folders }

/-- The tree without a file; its folder stays. -/
def drop (t : Tree) (path : Path) : Tree :=
  { t.addFolder path.dropLast with files := t.files.filter fun f => f.1 != path }

/-- The bytes of a file. -/
def bytes? (t : Tree) (path : Path) : Option (List UInt8) := t.files.lookup path

/-- Whether there is a file with this path. -/
def isFile (t : Tree) (path : Path) : Bool := (t.bytes? path).isSome

/-- Whether there is a folder with this path. -/
def isFolder (t : Tree) (path : Path) : Bool :=
  path.isEmpty || (t.here :: t.folders).any (fun f => (path.below? f).isSome) ||
    t.files.any fun f =>
      match path.below? f.1 with
      | some (_ :: _) => true
      | _ => false

/-- The files below a folder, or the file itself: what is left of their paths, and their bytes. -/
def below (t : Tree) (root : Path) : List (Path × List UInt8) :=
  t.files.filterMap fun (path, bytes) => (root.below? path).map (·, bytes)

/-- The names in a folder, sorted. -/
def names (t : Tree) (path : Path) : List String :=
  let all := t.files.map (·.1) ++ t.here :: t.folders
  let found := all.filterMap fun p => (path.below? p) >>= (·.head?)
  (found.mergeSort fun a b => !(b < a)).eraseReps

end Tree

end CodeAtlas
