import SchemaMigration.DatabaseUrl
import SchemaMigration.Proofs.SourceUrl

/-!
# Database URLs carry a path and its options

* `DatabaseUrl.readOptions_optionPairs`: the options are read back from the pairs that stand for
  them.
* `DatabaseUrl.read_written`: the URL written for a path is read back as the path through its names,
  with the same options.
* `Locations.isAbsolute_resolve`: settings lead to absolute places, seen from an absolute directory.
* `Locations.databaseUrl_lossless`: the database URL of a configuration loses nothing.
-/

namespace SchemaMigration

namespace DatabaseUrl

/-! ## Options -/

/-- The query pairs for options: only what differs from the default. -/
def optionPairs (options : StoreOptions) : List (String × String) :=
  (if options.table = ({} : StoreOptions).table then [] else [(tableKey, options.table)]) ++
    if options.unwrapped then [(unwrappedKey, "true")] else []

/-- Pairs for options are read back as those options. -/
theorem readOptions_optionPairs (options : StoreOptions) :
    readOptions {} (optionPairs options) = .ok options := by
  obtain ⟨table, unwrapped⟩ := options
  have otherKey : unwrappedKey ≠ tableKey := by decide
  have mode : ∀ start : StoreOptions, start.unwrapped = false →
      readOptions start (if unwrapped then [(unwrappedKey, "true")] else []) =
        .ok { start with unwrapped } := by
    rintro ⟨name, mode⟩ rfl
    cases unwrapped with
    | false => rfl
    | true =>
        rw [if_pos rfl, readOptions, if_neg otherKey, if_pos rfl, if_pos rfl, readOptions]
  by_cases usual : table = ({} : StoreOptions).table
  · subst usual
    exact mode {} rfl
  · rw [optionPairs, if_neg usual, List.singleton_append, readOptions, if_pos rfl]
    exact mode { table } rfl

/-! ## Whole URLs -/

theorem after?_append (lead rest : String) : after? lead (lead ++ rest) = some rest.toList := by
  rw [after?, String.toList_append,
    if_pos (List.isPrefixOf_iff_prefix.mpr (List.prefix_append _ _)), ← String.length_toList,
    List.drop_left]

/-- What follows the path of a URL: nothing, or a question mark and a query. -/
def querySuffix (query : String) : String :=
  if query = "" then "" else "?" ++ query

/-- The path ends where the query starts, and the query is what follows the question mark. -/
theorem split_querySuffix {path : List Char} (noQuery : ∀ c ∈ path, c ≠ '?') (query : String) :
    (path ++ (querySuffix query).toList).takeWhile (· ≠ '?') = path ∧
      ((path ++ (querySuffix query).toList).dropWhile (· ≠ '?')).drop 1 = query.toList := by
  have kept : ∀ c ∈ path, decide (c ≠ '?') = true := fun c mem => decide_eq_true (noQuery c mem)
  rw [List.takeWhile_append_of_pos kept, List.dropWhile_append_of_pos kept, querySuffix]
  split_ifs with none
  · rw [none]; exact ⟨List.append_nil path, rfl⟩
  · rw [String.toList_append]; exact ⟨List.append_nil path, rfl⟩

/-- The URL written for a path through some names. -/
def written (names : List Bytes) (options : StoreOptions) : String :=
  "sqlite3://" ++ (String.ofList (Url.encodedPath names) ++
    querySuffix (Form.encode (optionPairs options)))

theorem write?_of_isAbsolute {path : Path} (absolute : path.isAbsolute = true)
    (options : StoreOptions) : write? path options = some (written path.names options) := by
  rw [write?, Url.encodePath?_of_isAbsolute absolute, written, ← String.append_assoc]
  rfl

/-- The URL written for a path is read back as that path, with the options that it was written for,
unless the path is no text. -/
theorem read_written_eq (names : List Bytes) (options : StoreOptions) :
    read (written names options) = match Utf8.decode (Path.ofNames true names).bytes with
      | .ok _ => .ok (Path.ofNames true names, options)
      | .error fault => .error (.databasePathNotUtf8 (written names options) fault) := by
  obtain ⟨pathPart, queryPart⟩ := split_querySuffix
    (fun c (mem : c ∈ Url.encodedPath names) => (Url.ne_of_mem_encodedPath mem).1)
    (Form.encode (optionPairs options))
  have decoded := Url.decode_encodedPath names
  have some : Url.encodedPath names ≠ [] := by
    intro none
    rw [none, List.flatMap_nil, Percent.decode] at decoded
    exact absurd decoded.symm (List.cons_ne_nil _ _)
  have rest := after?_append "sqlite3://" (String.ofList (Url.encodedPath names) ++
    querySuffix (Form.encode (optionPairs options)))
  rw [String.toList_append, String.toList_ofList] at rest
  rw [read, written, rest]
  change (if (Url.encodedPath names ++ _).takeWhile _ = [] then _ else _) = _
  simp only [pathPart, queryPart]
  rw [if_neg some, Bytes.ofString_ofList, decoded, String.ofList_toList, Form.pairs_encode,
    readOptions_optionPairs]
  cases Utf8.decode (Path.ofNames true names).bytes with
  | error fault => rfl
  | ok text => rfl

/-- **Reading undoes writing.** The URL written for a path that is text is read back as that path,
with the options that it was written for. -/
theorem read_written {names : List Bytes} (isText : (Path.ofNames true names).IsText)
    (options : StoreOptions) :
    read (written names options) = .ok (Path.ofNames true names, options) := by
  obtain ⟨text, eq⟩ := isText
  have utf8 : Utf8.decode (Path.ofNames true names).bytes = .ok text :=
    eq ▸ Utf8.decode_ofString text
  rw [read_written_eq, utf8]

theorem openStore_of_read {url : String} {path : Path} {options : StoreOptions}
    (reads : read url = .ok (path, options)) (tree : FileTree) :
    openStore tree url = Store.openPath tree path options := by
  rw [openStore, reads]

end DatabaseUrl

namespace Locations

theorem isAbsolute_resolve (settings : Settings) (home : Path) {workingDirectory : Path}
    (absolute : workingDirectory.isAbsolute = true) :
    (resolve settings home workingDirectory).home.isAbsolute = true ∧
      (resolve settings home workingDirectory).database.isAbsolute = true ∧
      (resolve settings home workingDirectory).migrations.isAbsolute = true :=
  have homeAbsolute := Path.isAbsolute_join absolute home
  ⟨homeAbsolute, Path.isAbsolute_join homeAbsolute _, Path.isAbsolute_join absolute _⟩

theorem databaseUrl_of_isAbsolute {locations : Locations}
    (absolute : locations.database.isAbsolute = true) :
    locations.databaseUrl =
      .ok (DatabaseUrl.written locations.database.names locations.options) := by
  rw [databaseUrl, DatabaseUrl.write?_of_isAbsolute absolute]

/-- **The database URL loses nothing.** For every configuration, every home directory and every
absolute working directory that are UTF-8: the places are absolute, so that both URLs exist, and to
open the database URL is to open the absolute path through the names of the database, with the
options of the configuration. -/
theorem databaseUrl_lossless (settings : Settings) {home workingDirectory : Path}
    (homeText : home.IsText) (directoryText : workingDirectory.IsText)
    (absolute : workingDirectory.isAbsolute = true) :
    let locations := resolve settings home workingDirectory
    locations.home.isAbsolute = true ∧ locations.database.isAbsolute = true ∧
      locations.migrations.isAbsolute = true ∧
      (∃ url, locations.sourceUrl = .ok url) ∧
      ∃ url path, locations.databaseUrl = .ok url ∧
        path = Path.ofNames true locations.database.names ∧
        path.names = locations.database.names ∧
        DatabaseUrl.read url = .ok (path, settings.options) ∧
        ∀ tree, DatabaseUrl.openStore tree url =
            Store.openPath tree path settings.options := by
  intro locations
  obtain ⟨homeAbsolute, databaseAbsolute, migrationsAbsolute⟩ :=
    isAbsolute_resolve settings home absolute
  have databaseText : locations.database.IsText :=
    (directoryText.join homeText).join ⟨settings.databaseName, rfl⟩
  obtain ⟨texts, names⟩ := databaseText.names
  have read := DatabaseUrl.read_written (names ▸ Path.isText_ofNames texts) locations.options
  refine ⟨homeAbsolute, databaseAbsolute, migrationsAbsolute,
    ⟨_, sourceUrl_of_isAbsolute migrationsAbsolute⟩, _, _,
    databaseUrl_of_isAbsolute databaseAbsolute, rfl,
    Path.names_ofNames fun _ => Path.isName_of_mem_names, read,
    DatabaseUrl.openStore_of_read read⟩

/-- A home seen from the working directory, a file name with reserved characters and a slash behind
it, and the empty table name come through the URL. -/
theorem databaseUrl_lossless_reserved :
    let settings : Settings :=
      { databaseName := "x?y%20+\tü.db/", options := { table := "", unwrapped := true } }
    let workingDirectory := Path.ofString "/work//a&b=c/./.."
    workingDirectory.isAbsolute = true ∧
      ∃ url path, (resolve settings (Path.ofString "日#") workingDirectory).databaseUrl = .ok url ∧
        path.names = ["work", "a&b=c", "..", "日#", "x?y%20+\tü.db"].map Bytes.ofString ∧
        DatabaseUrl.read url = .ok (path, { table := "", unwrapped := true }) := by
  intro settings workingDirectory
  have absolute : workingDirectory.isAbsolute = true := by decide
  obtain ⟨-, -, -, -, url, path, made, -, names, read, -⟩ :=
    databaseUrl_lossless settings ⟨"日#", rfl⟩ ⟨"/work//a&b=c/./..", rfl⟩ absolute
  exact ⟨absolute, url, path, made, names.trans (by decide), read⟩

end Locations

end SchemaMigration
