import CodeAtlas.CommandLine.Run
import Std.Time.DateTime.Timestamp

/-!
# The program

Reads the files that a command looks at, runs the command on them, writes the files that it changed
and prints what it says.
-/

namespace CodeAtlas.CommandLine

/-- How deep folders are read. -/
def maxDepth : Nat := 255

/-- The tree with what is at a path: a file, or a folder with what is below it, `depth` levels deep.
Links below a folder are not followed, and what is in folders that are always left out is not read,
nor is what cannot be read. -/
def readPlace : (depth : Nat) → Tree → Path → IO Tree
  | 0, t, _ => return t
  | depth + 1, t, path => do
    let place := (← IO.currentDir) / path.absolute
    try
      if ← place.isDir then
        let t := t.addFolder path
        if depth == 0 || (depth + 1 < maxDepth && defaultExcludedDirs.contains path.fileName) then
          return t
        (← place.readDir).foldlM (fun t entry => do
          if (← entry.path.symlinkMetadata).type matches .symlink then return t
          readPlace depth t (path ++ [entry.fileName])) t
      else return t.put path (← IO.FS.readBinFile place).toList
    catch _ => return t

/-- Makes the files what they are in the second tree, where it differs from the first. -/
def writeChanges (before after : Tree) : IO Unit := do
  let here ← IO.currentDir
  after.folders.forM fun folder => do
    if !before.isFolder folder then IO.FS.createDirAll (here / folder.absolute)
  after.files.forM fun (path, bytes) => do
    if before.bytes? path != some bytes then
      IO.FS.createDirAll (here / Path.absolute path.dropLast)
      IO.FS.writeBinFile (here / path.absolute) (ByteArray.mk bytes.toArray)
  before.files.forM fun (path, _) => do
    if !after.isFile path then IO.FS.removeFile (here / path.absolute)

/-- The present time. -/
def presentTime : IO Instant := do
  let now ← Std.Time.Timestamp.now
  let nanos := now.toNanosecondsSinceUnixEpoch.val
  return { seconds := nanos / 1000000000, nanos := (nanos % 1000000000).toNat }

/-- The paths through which a location leads, the last one first. -/
def pathsThrough (start : Path) (l : Location) : List Path :=
  l.names.foldl (fun paths name =>
    let path := paths.headD []
    if name == "" || name == "." then paths
    else if name == ".." then path.dropLast :: paths
    else (path ++ [name]) :: paths) [if l.isAbsolute then [] else start]

/-- The tree with what is at the locations and on the way to them. -/
def readPlaces (t : Tree) (locations : List Location) : IO Tree :=
  locations.foldlM (fun t l => do
    match pathsThrough t.here l with
    | path :: way => readPlace maxDepth (← way.foldlM (readPlace 1) t) path
    | [] => return t) t

end CodeAtlas.CommandLine

open CodeAtlas CodeAtlas.CommandLine

/-- Runs the program. -/
def main (args : List String) : IO UInt32 := do
  let start : Tree := { here := Path.ofString (← IO.currentDir).toString }
  let now ← presentTime
  let first := places { tree := start, now } args
  let tree ← readPlaces start first
  -- where the store of a target is, its configuration may tell
  let more := (places { tree, now } args).filter fun l => !first.contains l
  let tree ← readPlaces tree more
  let (outcome, after) := run { tree, now } args
  writeChanges tree after
  (← IO.getStdout).putStr outcome.output
  (← IO.getStderr).putStr outcome.errors
  return outcome.code.toUInt32
