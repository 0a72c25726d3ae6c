import CodeAtlas.Files.Locate

/-!
# Reading and changing files

Operations on the files to which locations lead. What fails leaves the tree as it is, but for
`makeFolders`, which may have made folders on the way.
-/

namespace CodeAtlas.Tree

/-- Whether a name is not that of something in a folder, but leads to a folder on the way. -/
def isOnTheWay (name : String) : Bool := name == "" || name == "." || name == ".."

/-- Reads a file. -/
def read (t : Tree) (l : Location) : Except FileError (List UInt8) := do
  match t.bytes? (← t.locate l) with
  | some bytes => .ok bytes
  | none => .error .isFolder

/-- The path of a file that may be written, whether it is there or not. -/
def locateFile (t : Tree) (l : Location) : Except FileError Path := do
  let (folder, name) ← t.locateLast l
  if isOnTheWay name || t.isFolder (folder ++ [name]) then .error .isFolder
  else if maxNameBytes < name.utf8ByteSize then .error .tooLong
  else .ok (folder ++ [name])

/-- Writes a file into a folder that is there. -/
def write (t : Tree) (l : Location) (bytes : List UInt8) : Except FileError Tree := do
  .ok (t.put (← t.locateFile l) bytes)

/-- Gives a file another place, instead of the file there. -/
def rename (t : Tree) (source target : Location) : Except FileError Tree := do
  let bytes ← t.read source
  let path ← t.locate source
  .ok ((t.drop path).put (← t.locateFile target) bytes)

/-- Removes a file. -/
def remove (t : Tree) (l : Location) : Except FileError Tree := do
  let _ ← t.read l
  .ok (t.drop (← t.locate l))

/-- The names in a folder, sorted. -/
def list (t : Tree) (l : Location) : Except FileError (List String) := do
  let path ← t.locate l
  if t.isFolder path then .ok (t.names path) else .error .notFolder

/-- Makes a folder in one that is there. -/
def makeFolder (t : Tree) (l : Location) : Except FileError Tree := do
  let (folder, name) ← t.locateLast l
  if isOnTheWay name || t.isThere (folder ++ [name]) then .error .occupied
  else if maxNameBytes < name.utf8ByteSize then .error .tooLong
  else .ok (t.addFolder (folder ++ [name]))

/-- Makes a folder unless it is there: the tree, and why the folder is not there. -/
def ensureFolder (t : Tree) (l : Location) : Tree × Option FileError :=
  match t.makeFolder l with
  | .ok t => (t, none)
  | .error e => (t, if t.leadsToFolder l then none else some e)

/-- Makes the first of the folders unless it is there; if it is missing, first those behind it,
which are the folders on the way to it. -/
def ensureFolders (t : Tree) : List Location → Tree × Option FileError
  | [] => (t, none)
  | l :: above =>
      match t.ensureFolder l with
      | (_, some .missing) =>
          match t.ensureFolders above with
          | (t, none) => t.ensureFolder l
          | failed => failed
      | done => done

/-- Makes a folder with all folders on the way to it: the tree, and why the folder is not there. -/
def makeFolders (t : Tree) (l : Location) : Tree × Option FileError :=
  if l.isEmpty then (t, none) else t.ensureFolders (l :: l.above)

end CodeAtlas.Tree
