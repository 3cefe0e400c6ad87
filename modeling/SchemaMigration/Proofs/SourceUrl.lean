import SchemaMigration.Proofs.Url.Reading
import SchemaMigration.Settings
import SchemaMigration.Source

/-!
# Source URLs carry a directory

* `Source.directoryOfUrl_directoryPath`: the URL of a directory names the path through the names
  that are left when each `..` has taken off the name before it.
* `Locations.openUrl_sourceUrl`: opening the source URL of a configuration is opening that path.
-/

namespace SchemaMigration

/-- The URL of a directory names the directory at the lexical path. -/
theorem Source.directoryOfUrl_directoryPath {names : List Bytes}
    (isName : ∀ name ∈ names, Path.IsName name) (driveFree : Url.DriveFree [] names) :
    Source.directoryOfUrl ("file://" ++ String.ofList (Url.directoryPath names)) =
      .ok ⟨Path.separator :: (Path.lexical names).flatMap (· ++ [Path.separator])⟩ := by
  rw [directoryOfUrl, Url.read_directoryPath isName driveFree]
  exact congrArg Except.ok (Url.filePath_directoryPath _)

/-- To open a URL is to open the directory that it names. -/
theorem Source.openUrl_of_directoryOfUrl {url : String} {path : Path}
    (directory : Source.directoryOfUrl url = .ok path) (tree : FileTree) :
    Source.openUrl tree url = Source.openDirectory tree path := by
  rw [openUrl, directory]
  rfl

namespace Locations

theorem sourceUrl_of_isAbsolute {locations : Locations}
    (absolute : locations.migrations.isAbsolute = true) :
    locations.sourceUrl =
      .ok ("file://" ++ String.ofList (Url.directoryPath locations.migrations.names)) := by
  rw [sourceUrl, Url.ofDirectory?_of_isAbsolute absolute]

/-- **The source URL survives its reading.** For every absolute migrations directory without a name
that reads as a drive, whatever bytes its names are made of: the source URL is read as a file URL
without a host, and to open it is to open the absolute path through the names of the directory, from
which each `..` has taken off the name before it. -/
theorem openUrl_sourceUrl {locations : Locations}
    (absolute : locations.migrations.isAbsolute = true)
    (noDrive : ∀ name ∈ locations.migrations.names, Url.isDriveName name = false) :
    ∃ url encoded path, locations.sourceUrl = .ok url ∧
      Url.read url = .ok (.file none encoded) ∧
      Source.directoryOfUrl url = .ok path ∧
      path.isAbsolute = true ∧
      path.names = Path.lexical locations.migrations.names ∧
      ∀ tree, Source.openUrl tree url = Source.openDirectory tree path := by
  have isName : ∀ name ∈ locations.migrations.names, Path.IsName name :=
    fun _ mem => Path.isName_of_mem_names mem
  have driveFree : Url.DriveFree [] locations.migrations.names :=
    Url.driveFree_of_forall noDrive fun _ mem => absurd mem List.not_mem_nil
  have directory := Source.directoryOfUrl_directoryPath isName driveFree
  refine ⟨_, _, _, sourceUrl_of_isAbsolute absolute, Url.read_directoryPath isName driveFree,
    directory, Path.isAbsolute_iff.mpr ⟨_, rfl⟩,
    Path.names_trailing fun name mem => isName name (Path.mem_of_mem_lexical mem),
    Source.openUrl_of_directoryOfUrl directory⟩

/-- Names that are dots only when they are decoded, with reserved characters, controls and bytes
that are no text, and more `..` than there are names to take off. -/
theorem openUrl_sourceUrl_reserved :
    let migrations : Path :=
      ⟨Bytes.ofString "/a/../../%2e%2E/C:x//b\\c?d#\t\n/日/../.../. ./" ++ [0xFF]⟩
    let locations : Locations :=
      { home := migrations, database := migrations, migrations, options := {} }
    migrations.isAbsolute = true ∧
      (∀ name ∈ migrations.names, Url.isDriveName name = false) ∧
      ∃ url path, locations.sourceUrl = .ok url ∧ Source.directoryOfUrl url = .ok path ∧
        path.names =
          ["%2e%2E", "C:x", "b\\c?d#\t\n", "...", ". ."].map Bytes.ofString ++ [[0xFF]] := by
  intro migrations locations
  have absolute : locations.migrations.isAbsolute = true := by decide
  have noDrive : ∀ name ∈ locations.migrations.names, Url.isDriveName name = false := by decide
  obtain ⟨url, -, path, made, -, directory, -, names, -⟩ :=
    openUrl_sourceUrl absolute noDrive
  exact ⟨absolute, noDrive, url, path, made, directory, names.trans (by decide)⟩

end Locations

end SchemaMigration
