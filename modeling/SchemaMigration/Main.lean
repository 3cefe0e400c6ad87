import SchemaMigration.Disk
import SchemaMigration.Run

/-!
The command line. The part of the disk that a run looks at is read into a tree, the run is carried
out on the tree, and what it changed is written back. Links on the disk count as what they lead to.
-/

namespace SchemaMigration.Disk

/-- The name under which the disk knows a place. -/
def fileName (place : Place) : String :=
  (Path.ofPlace place).display

/-- What stands at a place of the disk. -/
def look (place : Place) : IO (Option Node) := do
  let name := fileName place
  if ← (System.mkFilePath [name]).isDir then return some .directory
  if ← (System.mkFilePath [name]).pathExists then
    return some (.file (.ofBytes (← IO.FS.readBinFile name).toList))
  return none

/-- Reads what stands at a place into a tree. -/
def readPlace (tree : FileTree) (place : Place) : IO FileTree := do
  match ← look place with
  | some node => return tree.put place node
  | none => return tree

/-- Reads what stands at a place and on the way to it into a tree. -/
def readWay (tree : FileTree) (place : Place) : IO FileTree :=
  (List.range place.length).foldlM (fun tree depth => readPlace tree (place.take (depth + 1))) tree

/-- Reads what a path leads to into a tree and, if it is a directory, what is in it. -/
def readPath (tree : FileTree) (path : Path) : IO FileTree := do
  let place := path.place
  let mut tree ← readWay tree place
  if tree.node? place = some .directory then
    for entry in ← (System.mkFilePath [fileName place]).readDir do
      tree ← readPlace tree (place ++ [Bytes.ofString entry.fileName])
  return tree

/-- Writes a node to its place. -/
def write : Place × Node → IO Unit
  | (place, .directory) => IO.FS.createDirAll (fileName place)
  | (place, .file content) => IO.FS.writeBinFile (fileName place) ⟨content.toBytes.toArray⟩
  | (_, .link _) => pure ()

/-- Reads what a run of an invocation looks at: the places where settings are, then the places that
the settings lead to. -/
def readFor (invocation : Invocation) (surroundings : Surroundings) : IO FileTree := do
  let here := surroundings.workingDirectory.place
  let mut tree ← readWay { workingDirectory := here } here
  let visible (path : Path) := surroundings.workingDirectory.join path
  let home? := (invocation.chooseHome surroundings).toOption
  for path in home?.toList ++ invocation.settingsFile.toList do
    tree ← readPath tree (visible path)
  if let .ok locations := invocation.locations surroundings tree then
    for path in [locations.home, locations.database, locations.migrations] do
      tree ← readPath tree path
  return tree

end SchemaMigration.Disk

open SchemaMigration in
/-- Carries out the command line. -/
def main (words : List String) : IO UInt32 := do
  let surroundings : Surroundings :=
    { homeVariable := ← IO.getEnv "SSTORE_HOME"
      userHome := (← IO.getEnv "HOME").map Path.ofString
      workingDirectory := .ofString (← IO.currentDir).toString }
  let before ←
    match Invocation.read words surroundings.homeVariable with
    | .ok invocation => Disk.readFor invocation surroundings
    | .error _ => pure {}
  let (after, report) := runWords words surroundings before
  for change in before.changes after do
    Disk.write change
  IO.print report.output
  IO.eprint report.complaint
  return .ofNat report.code
