import SchemaMigration.Sql.Fault
import SchemaMigration.Sql.Token
import SchemaMigration.Sql.Value

/-!
The content of a database: tables with their rows, and indexes. Names keep the spelling they were
created with and are told apart without regard to the case of ASCII letters.
-/

namespace SchemaMigration.Sql

/-- Whether two names are one. -/
def sameName (a b : String) : Bool :=
  Token.fold a == Token.fold b

/-- A column of a table. -/
structure Column where
  name : String
  affinity : Affinity
  notNull : Bool := false
  default : Value := .null
  deriving DecidableEq, Repr

/-- A reference from columns of one table to a key of another; no parent columns stand for the
parent's primary key. -/
structure ForeignKey where
  columns : List String
  parent : String
  parentColumns : List String
  /-- Whether the reference was stated with its only column, so that it goes when that goes. -/
  withColumn : Bool
  deriving DecidableEq, Repr

/-- Columns on which no two rows agree. -/
structure Key where
  columns : List String
  /-- Whether the key was stated with its only column. -/
  withColumn : Bool
  deriving DecidableEq, Repr

/-- A row: the number it is ordered by, and a cell for each column. -/
structure Row where
  id : Int
  cells : List Value
  deriving DecidableEq, Repr

/-- A table. -/
structure Table where
  name : String
  columns : List Column
  /-- The column that is another name for the row number. -/
  rowKey : Option String := none
  primaryKey : List String := []
  /-- The keys, in the order they were stated. -/
  keys : List Key := []
  foreignKeys : List ForeignKey := []
  rows : List Row := []
  /-- The greatest row number given out so far, if none is to be given out twice. -/
  sequence : Option Int := none
  deriving DecidableEq, Repr

/-- An index. -/
structure Index where
  name : String
  table : String
  columns : List String
  unique : Bool
  deriving DecidableEq, Repr

/-- The content of a database. -/
structure Database where
  tables : List Table := []
  indexes : List Index := []
  deriving DecidableEq, Repr

namespace Table

/-- The position of a column. -/
def columnIndex? (table : Table) (name : String) : Option Nat :=
  table.columns.findIdx? fun column => sameName column.name name

def column? (table : Table) (name : String) : Option Column :=
  table.columns.find? fun column => sameName column.name name

/-- A row's cell in a column. -/
def cell (table : Table) (row : Row) (name : String) : Value :=
  ((table.columnIndex? name).bind fun i => row.cells[i]?).getD .null

/-- A row's cells in some columns. -/
def project (table : Table) (row : Row) (names : List String) : List Value :=
  names.map (table.cell row)

/-- Whether a column is another name for the row number. -/
def isRowKey (table : Table) (name : String) : Bool :=
  table.rowKey.any (sameName name)

/-- The names that a row number has of its own, in upper case. -/
def rowNumberNames : List String :=
  ["ROWID", "OID", "_ROWID_"]

/-- Whether a name stands for the row number: the row key's name, or a name of its own that no
column has. -/
def namesRowNumber (table : Table) (name : String) : Bool :=
  match table.columnIndex? name with
  | some _ => table.isRowKey name
  | none => rowNumberNames.contains (Token.fold name)

/-- Names of the indexes that keep the table's own keys unique. -/
def keyIndexNames (table : Table) : List String :=
  (List.range table.keys.length).map fun i =>
    "sqlite_autoindex_" ++ table.name ++ "_" ++ toString (i + 1)

end Table

namespace Database

/-- Names kept for the database's own tables. -/
def isReservedName (name : String) : Bool :=
  "SQLITE_".toList.isPrefixOf (Token.fold name).toList

/-- The tables through which a database describes itself, and their columns. -/
def describing (name : String) : Option Table :=
  if ["SQLITE_MASTER", "SQLITE_SCHEMA", "SQLITE_TEMP_MASTER", "SQLITE_TEMP_SCHEMA"].contains
      (Token.fold name) then
    some {
      name := name
      columns := [⟨"type", .text, false, .null⟩, ⟨"name", .text, false, .null⟩,
        ⟨"tbl_name", .text, false, .null⟩, ⟨"rootpage", .integer, false, .null⟩,
        ⟨"sql", .text, false, .null⟩] }
  else none

/-- The table of a name, its own tables left out. -/
def table? (db : Database) (name : String) : Option Table :=
  db.tables.find? fun table => sameName table.name name

/-- The table of a name for reading. -/
def readable (db : Database) (name : String) : Except Fault Table :=
  match db.table? name <|> describing name with
  | some table => .ok table
  | none => .error (.noSuchTable name)

/-- The table of a name for a change that `refusal` keeps from the database's own tables. -/
def changeable (db : Database) (refusal : String → Fault) (name : String) : Except Fault Table :=
  match db.table? name with
  | some table => .ok table
  | none =>
    match describing name with
    | some table => .error (refusal table.name)
    | none => .error (.noSuchTable name)

def index? (db : Database) (name : String) : Option Index :=
  db.indexes.find? fun index => sameName index.name name

/-- Whether an index of the name exists, those of the tables' own keys included. -/
def hasIndex (db : Database) (name : String) : Bool :=
  (db.index? name).isSome || db.tables.any fun table => table.keyIndexNames.any (sameName name)

/-- The indexes of a table, in the order they were created. -/
def indexesOf (db : Database) (table : String) : List Index :=
  db.indexes.filter fun index => sameName index.table table

/-- Puts a table in the place of the one of its name. -/
def put (db : Database) (table : Table) : Database :=
  { db with tables := db.tables.map fun other =>
      if sameName other.name table.name then table else other }

/-- The sets of columns on which rows of a table must differ, in the order they are checked: the
youngest first. -/
def uniqueSets (db : Database) (table : Table) : List (List String) :=
  (((db.indexesOf table.name).filter (·.unique)).map (·.columns)).reverse ++
    (table.keys.map (·.columns)).reverse

end Database

end SchemaMigration.Sql
