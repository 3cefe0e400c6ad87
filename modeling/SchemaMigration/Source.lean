import SchemaMigration.FileTree
import SchemaMigration.Source.FileName
import SchemaMigration.Url.FilePath

/-!
A source of migrations: the migration files of one directory, ordered by version. The file list is
taken when the source is opened; the bodies are read when they are needed.
-/

namespace SchemaMigration

/-- A migration file on disk. -/
structure MigrationFile where
  version : Version
  identifier : String
  direction : Direction
  path : Path
  deriving DecidableEq, Repr

/-- The files of one version. -/
structure VersionFiles where
  up : Option MigrationFile := none
  down : Option MigrationFile := none
  deriving DecidableEq, Repr

namespace VersionFiles

/-- The file for a direction. -/
def get (files : VersionFiles) : Direction → Option MigrationFile
  | .up => files.up
  | .down => files.down

/-- Sets the file of its direction. -/
def set (files : VersionFiles) (file : MigrationFile) : VersionFiles :=
  match file.direction with
  | .up => { files with up := some file }
  | .down => { files with down := some file }

end VersionFiles

/-- The migrations of a directory, in ascending order of their versions. -/
structure Source where
  directory : Path
  migrations : List (Version × VersionFiles) := []
  deriving DecidableEq, Repr

namespace Source

/-! ## Versions -/

/-- The versions, ascending. -/
def versions (source : Source) : List Version :=
  source.migrations.map (·.1)

def contains (source : Source) (version : Version) : Bool :=
  source.versions.contains version

/-- The least version. -/
def first? (source : Source) : Option Version :=
  source.versions.head?

/-- The least version above the given one. -/
def next? (source : Source) (version : Version) : Option Version :=
  source.versions.find? (version < ·)

/-- The greatest version below the given one. -/
def prev? (source : Source) (version : Version) : Option Version :=
  source.versions.reverse.find? (· < version)

/-- The files of a version. -/
def files (source : Source) (version : Version) : VersionFiles :=
  (source.migrations.lookup version).getD {}

/-- The file of a version for a direction. -/
def file? (source : Source) (version : Version) (direction : Direction) : Option MigrationFile :=
  (source.files version).get direction

/-- The body of the file of a version for a direction, if there is such a file. -/
def body? (source : Source) (tree : FileTree) (version : Version) (direction : Direction) :
    Except Error (Option String) :=
  match source.file? version direction with
  | none => .ok none
  | some file =>
    match tree.readText file.path with
    | .ok body => .ok (some body)
    | .error fault => .error (.bodyUnreadable file.path fault)

/-! ## Scanning a directory -/

/-- Adds a file at its version's place; two files for one version and direction are an error. -/
def insert (file : MigrationFile) :
    List (Version × VersionFiles) → Except Error (List (Version × VersionFiles))
  | [] => .ok [(file.version, ({} : VersionFiles).set file)]
  | (version, files) :: rest =>
    if file.version < version then
      .ok ((file.version, ({} : VersionFiles).set file) :: (version, files) :: rest)
    else if file.version = version then
      match files.get file.direction with
      | some earlier => .error (.duplicateFile earlier.path file.path)
      | none => .ok ((version, files.set file) :: rest)
    else (insert file rest).map ((version, files) :: ·)

/-- Adds a directory entry, if it is a migration file: a regular file whose name is text of the
right form. -/
def addEntry (directory : Path) (migrations : List (Version × VersionFiles))
    (entry : Bytes × Node) : Except Error (List (Version × VersionFiles)) :=
  match entry with
  | (bytes, .file _) =>
    match bytes.text? with
    | none => .ok migrations
    | some name => do
      match ← FileName.read name with
      | none => return migrations
      | some { version, identifier, direction, .. } =>
        insert { version, identifier, direction, path := directory.join ⟨bytes⟩ } migrations
  | _ => .ok migrations

/-- The source of a directory with the given entries. -/
def ofEntries (directory : Path) (entries : List (Bytes × Node)) : Except Error Source :=
  (entries.foldlM (addEntry directory) []).map fun migrations => { directory, migrations }

/-- Opens the source of a directory. -/
def openDirectory (tree : FileTree) (directory : Path) : Except Error Source :=
  match tree.stat directory with
  | .ok (place, .directory) => ofEntries directory (tree.entries place)
  | _ => .error (.sourceMissing directory)

/-- The directory that a URL names. A file URL with a host is a relative path, which starts with the
host and goes on with the URL's path as it is; without one it is an absolute path. -/
def directoryOfUrl (url : String) : Except Error Path :=
  match Url.read url with
  | .error fault => .error (.sourceUrl url fault)
  | .ok (.other scheme) => .error (.sourceScheme scheme)
  | .ok (.file none path) => .ok (Url.filePath path)
  | .ok (.file (some host) path) => .ok (Path.ofString (host ++ String.ofList path))

/-- Opens the source of the directory that a URL names. -/
def openUrl (tree : FileTree) (url : String) : Except Error Source := do
  openDirectory tree (← directoryOfUrl url)

end Source

end SchemaMigration
