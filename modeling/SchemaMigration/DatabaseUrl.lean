import SchemaMigration.Store
import SchemaMigration.Url.FilePath

/-!
Database URLs: `sqlite3://`, a percent-encoded path, and options in the query.
-/

namespace SchemaMigration.DatabaseUrl

/-- The key of the version table's name. -/
def tableKey : String := "x-migrations-table"

/-- The key that tells whether bodies run without a transaction around them. -/
def unwrappedKey : String := "x-no-tx-wrap"

/-- What follows `lead` in a text that starts with it. -/
def after? (lead text : String) : Option (List Char) :=
  if lead.toList.isPrefixOf text.toList then some (text.toList.drop lead.length) else none

/-- The options of query pairs: of several pairs with one key the last counts, and other keys mean
nothing. -/
def readOptions (options : StoreOptions) : List (String × String) → Except Error StoreOptions
  | [] => .ok options
  | (key, value) :: rest =>
    if key = tableKey then readOptions { options with table := value } rest
    else if key = unwrappedKey then
      if value = "true" then readOptions { options with unwrapped := true } rest
      else if value = "false" then readOptions { options with unwrapped := false } rest
      else .error (.unwrappedNotBool value)
    else readOptions options rest

/-- Reads a database URL. The path ends at the first question mark. -/
def read (url : String) : Except Error (Path × StoreOptions) :=
  match after? "sqlite3://" url <|> after? "sqlite://" url with
  | none => .error (.unsupportedDatabaseUrl url)
  | some rest =>
    let encoded := rest.takeWhile (· ≠ '?')
    if encoded = [] then .error (.databaseUrlWithoutPath url)
    else
      let bytes := Percent.decode (Bytes.ofString (String.ofList encoded))
      match Utf8.decode bytes with
      | .error fault => .error (.databasePathNotUtf8 url fault)
      | .ok _ =>
        let query := String.ofList ((rest.dropWhile (· ≠ '?')).drop 1)
        (readOptions {} (Form.pairs query)).map (⟨bytes⟩, ·)

/-- Opens the store that a database URL names. -/
def openStore (tree : FileTree) (url : String) : FileTree × Except Error Store :=
  match read url with
  | .error e => (tree, .error e)
  | .ok (path, options) => Store.openPath tree path options

/-- The database URL of an absolute path. Only options that differ from the default are in the
query. -/
def write? (path : Path) (options : StoreOptions) : Option String := do
  let encoded ← Url.encodePath? path
  let table := if options.table = ({} : StoreOptions).table then []
    else [(tableKey, options.table)]
  let unwrapped := if options.unwrapped then [(unwrappedKey, "true")] else []
  let query := Form.encode (table ++ unwrapped)
  return "sqlite3://" ++ encoded ++ if query = "" then "" else "?" ++ query

end SchemaMigration.DatabaseUrl
