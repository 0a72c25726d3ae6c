import CodeAtlas.Files.Tree
import CodeAtlas.Text.Basic

/-!
# Finding files

A location leads to a file or folder if every name on the way is that of a folder. `Tree.trace`
follows it; `Tree.locate` does so for a location that is short enough to be handed on as it is.
-/

namespace CodeAtlas

/-! ## Locations

A location is a text with which a file or folder is asked for: names with slashes between them. It
is followed name by name, so two locations may lead to one file, and a location may lead nowhere.
Without a slash in front it starts in the folder in which the program works.
-/

/-- A text that asks for a file or folder. -/
abbrev Location := String

namespace Location

/-- The longest location in bytes. -/
def maxBytes : Nat := 4095

/-- Whether a location starts at the top of all folders. -/
def isAbsolute (l : Location) : Bool := Text.startsWith l.toList ['/']

/-- The names between slashes; slashes next to each other have the empty name between them. -/
def names (l : Location) : List String := (Text.splitChar '/' l.toList).map String.ofList

/-- The location of a name below a folder. -/
def join (folder name : Location) : Location :=
  if isAbsolute name || folder.isEmpty then name
  else if Text.endsWith folder.toList ['/'] then folder ++ name
  else folder ++ "/" ++ name

/-- The names of a location from its last one back, without those at its end that lead nowhere. The
name `.` counts as the first name of a location that is not absolute. -/
def dropIdle (absolute : Bool) : List String → List String
  | [] => []
  | name :: front =>
      if name == "" || (name == "." && (absolute || !front.isEmpty)) then dropIdle absolute front
      else name :: front

/-- The location with these names, the last one first. -/
def ofBack (absolute : Bool) (back : List String) : Location :=
  (if absolute then "/" else "") ++ String.intercalate "/" back.reverse

/-- The locations of the folders on the way to a location given by its names from the last one back,
the nearest first. -/
def aboveBack (absolute : Bool) : List String → List Location
  | [] => []
  | _ :: front =>
      match dropIdle absolute front with
      | [] => []
      | back => ofBack absolute back :: aboveBack absolute front

/-- The locations of the folders on the way to a location, the nearest first. -/
def above (l : Location) : List Location :=
  let absolute := isAbsolute l
  let back := (if absolute then l.names.tail else l.names).reverse
  aboveBack absolute (dropIdle absolute back)

end Location

/-! ## Errors -/

/-- Why an operation on a file fails. -/
inductive FileError where
  | missing
  | notFolder
  | isFolder
  | occupied
  | tooLong
  /-- The location holds the character zero. -/
  | zero
  deriving DecidableEq, Repr

/-- What is said about a failed operation. -/
def FileError.message : FileError → String
  | missing => "No such file or directory (os error 2)"
  | notFolder => "Not a directory (os error 20)"
  | isFolder => "Is a directory (os error 21)"
  | occupied => "File exists (os error 17)"
  | tooLong => "File name too long (os error 36)"
  | zero => "file name contained an unexpected NUL byte"

namespace Tree

/-- The longest name in bytes. -/
def maxNameBytes : Nat := 255

/-- Whether there is a file or folder with this path. -/
def isThere (t : Tree) (path : Path) : Bool := t.isFolder path || t.isFile path

/-- Goes from a path by one name. The names `.` and the empty name stay, `..` goes back. -/
def step (t : Tree) (path : Path) (name : String) : Except FileError Path :=
  if t.isFile path then .error .notFolder
  else if name == "" || name == "." then .ok path
  else if name == ".." then .ok path.dropLast
  else if t.isThere (path ++ [name]) then .ok (path ++ [name])
  else .error (if name.utf8ByteSize ≤ maxNameBytes then .missing else .tooLong)

/-- Goes by names from where a location starts. -/
def follow (t : Tree) (l : Location) (names : List String) : Except FileError Path :=
  names.foldlM t.step (if l.isAbsolute then [] else t.here)

/-- The path to which a location leads. -/
def trace (t : Tree) (l : Location) : Except FileError Path :=
  if l.toList.contains '\x00' then .error .zero
  else if l.isEmpty then .error .missing
  else t.follow l l.names

/-- Why a location cannot be handed on as it is. -/
def refusal? (l : Location) : Option FileError :=
  if l.toList.contains '\x00' then some .zero
  else if Location.maxBytes < l.utf8ByteSize then some .tooLong
  else none

/-- The path to which a location leads that is handed on as it is. -/
def locate (t : Tree) (l : Location) : Except FileError Path :=
  match refusal? l with
  | some e => .error e
  | none => t.trace l

/-- Whether a location leads to a folder. -/
def leadsToFolder (t : Tree) (l : Location) : Bool := (t.locate l).toOption.any t.isFolder

/-- Whether a location leads to a file. -/
def leadsToFile (t : Tree) (l : Location) : Bool := (t.locate l).toOption.any t.isFile

/-- The folder to which a location leads but for its last name, and that name, which is empty if
there is none. Slashes at the end do not count. -/
def locateLast (t : Tree) (l : Location) : Except FileError (Path × String) :=
  match refusal? l with
  | some e => .error e
  | none =>
      if l.isEmpty then .error .missing
      else
        match l.names.reverse.dropWhile (· == "") with
        | [] => .ok ([], "")
        | name :: front =>
            match t.follow l front.reverse with
            | .error e => .error e
            | .ok folder => if t.isFile folder then .error .notFolder else .ok (folder, name)

end Tree

end CodeAtlas
