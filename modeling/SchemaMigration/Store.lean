import SchemaMigration.Error
import SchemaMigration.FileTree
import SchemaMigration.Sql.Connection
import SchemaMigration.Text.Numeral

/-!
A store: a database together with the table in which it records its schema version. What is done
with it is a `Session` over its connection.
-/

namespace SchemaMigration

/-- How a store keeps its version and runs migration bodies. -/
structure StoreOptions where
  /-- The table with the version row. -/
  table : String := "schema_migrations"
  /-- Run migration bodies without a transaction around them. -/
  unwrapped : Bool := false
  deriving DecidableEq, Repr

namespace StoreOptions

open Sql (Session Statement Expr Value)

/-! ## The version table -/

/-- Whether a text can name a version table: a letter or underscore, then letters, digits and
underscores, all ASCII. -/
def isTableName (name : String) : Bool :=
  match name.toList with
  | [] => false
  | c :: rest =>
    (c.isAlpha || c == '_') && rest.all fun c => c.isAlpha || c == '_' || c.isDigit

/-- The definition of a version table. -/
def tableDefinition (options : StoreOptions) : Sql.TableDefinition :=
  { name := options.table, columns := [⟨"version", "INTEGER", []⟩, ⟨"dirty", "BOOLEAN", []⟩] }

/-- The index that keeps versions unique. -/
def indexName (options : StoreOptions) : String :=
  options.table ++ "_version_unique"

/-- The text that creates the version table and its index. -/
def creationText (options : StoreOptions) : String :=
  "CREATE TABLE IF NOT EXISTS " ++ options.table ++ " (version INTEGER, dirty BOOLEAN);\n" ++
    "                 CREATE UNIQUE INDEX IF NOT EXISTS " ++ options.indexName ++ " ON " ++
    options.table ++ " (version);"

/-- Creates the version table and its index where they are missing. A reserved word cannot name a
table. -/
def ensureTable (options : StoreOptions) : Session Error Unit :=
  Session.mapError .versionTableRefused do
    if !Sql.Token.canBeName options.table then
      throw (.unexpected options.table ⟨options.creationText, 27⟩)
    Session.issue (.createTable true options.tableDefinition)
    Session.issue (.createIndex true true options.indexName options.table ["version"])

/-- Sets up a connection as a store. -/
def setUp (options : StoreOptions) : Session Error Unit := do
  if !isTableName options.table then throw (.tableName options.table)
  options.ensureTable

/-! ## The version row -/

/-- What a store records for "no version" while a step towards it is running. -/
def nilVersion : Int := -1

/-- The name of a value's type. -/
def typeName : Value → String
  | .null => "Null"
  | .integer _ => "Integer"
  | .real _ => "Real"
  | .text _ => "Text"
  | .blob _ => "Blob"

/-- A cell that has to be an integer. -/
def integerCell (index : Nat) (column : String) : Value → Except Error Int
  | .integer n => .ok n
  | value => .error (.versionCellType (typeName value) index column)

/-- The state that a version table records. Only the first row counts; no row means that nothing
has been applied, and a negative number is no version. -/
def stateIn (options : StoreOptions) (db : Sql.Database) : Except Error SchemaState := do
  let table ← (db.readable options.table).mapError .versionUnreadable
  (Sql.checkColumns table .noSuchColumn ["version", "dirty"]).mapError .versionUnreadable
  match table.rows.head? with
  | none => return {}
  | some row =>
    let version ← integerCell 0 (table.spelling "version") (table.cell row "version")
    let dirty ← integerCell 1 (table.spelling "dirty") (table.cell row "dirty")
    return { version := if 0 ≤ version then some version.toNat else none, dirty := dirty ≠ 0 }

/-- The recorded state. -/
def state (options : StoreOptions) : Session Error SchemaState :=
  Session.query options.stateIn

/-- The row that records a state. -/
def rowOf (version : Option Version) (dirty : Bool) : List Expr :=
  [.literal (.integer (version.elim nilVersion Int.ofNat)), .literal (Value.ofBool dirty)]

/-- Refuses a version that does not fit into a cell. -/
def checkSize : Option Version → Session Error Unit
  | some version =>
    if Numeral.signedMax < version then throw (.versionTooLarge version) else pure ()
  | none => pure ()

/-- Replaces the rows of the version table. A clean state without version leaves it empty. -/
def replaceRow (options : StoreOptions) (version : Option Version) (dirty : Bool) :
    Session Error Unit := do
  Session.mapError .versionNotCleared (Session.issue (.delete options.table none))
  if version.isSome || dirty then
    Session.mapError .versionNotRecorded
      (Session.issue (.insert options.table (some ["version", "dirty"]) [rowOf version dirty]))

/-- Replaces the recorded state. -/
def record (options : StoreOptions) (version : Option Version) (dirty : Bool) :
    Session Error Unit := do
  checkSize version
  Session.transaction .transactionRefused .versionNotCommitted (options.replaceRow version dirty)

/-! ## Migration bodies -/

/-- Runs a migration body, in a transaction unless the options say otherwise. -/
def run (options : StoreOptions) (body : String) : Session Error Unit :=
  let statements := Session.mapError Error.bodyFailed (Session.batch (Sql.Batch.read body))
  if options.unwrapped then statements
  else Session.transaction .transactionRefused .bodyNotCommitted statements

end StoreOptions

/-- Where the content of a store is kept. -/
inductive Medium where
  | memory
  | file (place : Place)
  deriving DecidableEq, Repr

/-- An open store. -/
structure Store where
  medium : Medium
  connection : Sql.Connection
  options : StoreOptions
  deriving DecidableEq, Repr

namespace Store

/-- Sets up a connection as a store. The connection is answered as well, since a failure may leave
it changed. -/
def ofConnection (medium : Medium) (connection : Sql.Connection) (options : StoreOptions) :
    Sql.Connection × Except Error Store :=
  let outcome := options.setUp connection
  (outcome.connection,
    outcome.result.map fun _ => { medium, connection := outcome.connection, options })

/-- Writes the committed content of a connection to the file that keeps it. -/
def save (tree : FileTree) (place : Place) (connection : Sql.Connection) : FileTree :=
  tree.put place (.file (.database connection.committed))

/-- The content of the file at a place, as a database; an empty or missing file is an empty
database. -/
def contentAt (tree : FileTree) (place : Place) : Except Sql.Fault Sql.Database :=
  match tree.node? place with
  | some (.file (.database content)) => .ok content
  | some (.file (.plain (_ :: _))) => .error .notADatabase
  | _ => .ok {}

/-- Opens the store at a path, making the file if it is missing. An empty path and `:memory:` open a
store in memory. Answers the tree as the opening leaves it, also when it fails. -/
def openPath (tree : FileTree) (path : Path) (options : StoreOptions) :
    FileTree × Except Error Store :=
  match path.bytes.findIdx? (· == 0) with
  | some position => (tree, .error (.databasePathWithNul position))
  | none =>
    if path.bytes = [] ∨ path = Path.ofString ":memory:" then
      (tree, (ofConnection .memory {} options).2)
    else
      match tree.storePlace path with
      | none => (tree, .error (.databaseNotOpened path))
      | some place =>
        match contentAt tree place with
        | .error fault => (tree, .error (.pragmasRefused fault))
        | .ok content =>
          let (connection, store) := ofConnection (.file place) { committed := content } options
          (save tree place connection, store)

end Store

end SchemaMigration
