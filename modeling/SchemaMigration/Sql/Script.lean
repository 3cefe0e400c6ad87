import SchemaMigration.Sql.Execution
import SchemaMigration.Sql.Grammar

/-!
The written form of a database: SQL text whose statements make its tables, rows and indexes anew.
Rows are written with their numbers and read back as they are, for rules that they keep as a whole
need not hold while only some of them are there.
-/

namespace SchemaMigration.Sql

namespace Script

/-- The table in which a written form keeps the greatest row numbers given out. -/
def sequenceTable : String := "sqlite_sequence"

/-! ## Writing -/

/-- A text between quotes; a quote inside it is written twice. -/
def quoted (quote : Char) (text : String) : String :=
  let doubled := text.toList.flatMap fun c => if c == quote then [c, c] else [c]
  String.ofList (quote :: doubled ++ [quote])

def name (text : String) : String :=
  quoted '"' text

/-- Parts in parentheses with commas between them. -/
def list (parts : List String) : String :=
  "(" ++ ", ".intercalate parts ++ ")"

def names (texts : List String) : String :=
  list (texts.map name)

/-- Two hexadecimal digits. -/
def hexPair (byte : UInt8) : List Char :=
  [Nat.digitChar (byte.toNat / 16), Nat.digitChar (byte.toNat % 16)]

/-- The literal of a value. -/
def literal : Value → String
  | .null => "NULL"
  | .integer n => toString n
  | .real d =>
    if d.isBeyond then (if d.digits < 0 then "-1e400" else "1e400")
    else if 0 ≤ d.exponent then d.positional ++ ".0"
    else d.positional
  | .text s => quoted '\x27' s
  | .blob bytes => "x" ++ quoted '\x27' (String.ofList (bytes.flatMap hexPair))

/-- A type whose columns have the affinity. Only the row key is declared `INTEGER`. -/
def declaredType (isRowKey : Bool) : Affinity → String
  | .integer => if isRowKey then "INTEGER" else "INT"
  | .numeric => "NUMERIC"
  | .real => "REAL"
  | .text => "TEXT"
  | .blob => "BLOB"

/-- The phrase of a reference. -/
def reference (key : ForeignKey) : String :=
  "REFERENCES " ++ name key.parent ++
    if key.parentColumns.isEmpty then "" else " " ++ names key.parentColumns

/-- Whether the primary key is written with its column. It has to be if a key that was stated with
its column comes behind it, since those stand before all others. -/
def keyStandsWithColumn (table : Table) : Bool :=
  table.primaryKey.length = 1 &&
    (table.keys.dropWhile fun key => key.withColumn || key.columns != table.primaryKey).any
      (·.withColumn)

/-- The definition of a column. -/
def column (table : Table) (column : Column) : String :=
  let isOwn (names : List String) : Bool := names matches [_] && names.all (sameName column.name)
  let isKey := keyStandsWithColumn table && isOwn table.primaryKey
  let keys := table.keys.filter fun key => key.withColumn && isOwn key.columns
  let references := table.foreignKeys.filter fun key => key.withColumn && isOwn key.columns
  " ".intercalate <|
    [name column.name, declaredType (table.isRowKey column.name) column.affinity] ++
      (if isKey then ["PRIMARY KEY"] else []) ++
      keys.map (fun _ => "UNIQUE") ++
      (if column.notNull then ["NOT NULL"] else []) ++
      (if column.default = .null then [] else ["DEFAULT " ++ literal column.default]) ++
      references.map reference

/-- The keys that no column states. `primary` is the primary key as long as it is to be written. -/
def keys (primary : Option (List String)) : List Key → List String
  | [] => []
  | key :: rest =>
    if key.withColumn then keys primary rest
    else if primary = some key.columns then ("PRIMARY KEY " ++ names key.columns) :: keys none rest
    else ("UNIQUE " ++ names key.columns) :: keys primary rest

/-- The constraints of a table that no column states. -/
def constraints (table : Table) : List String :=
  let ownKeys :=
    if table.rowKey.isSome then
      let autoincrement := if table.sequence.isSome then " AUTOINCREMENT" else ""
      ("PRIMARY KEY (" ++ ", ".intercalate (table.primaryKey.map name) ++ autoincrement ++ ")") ::
        keys none table.keys
    else if keyStandsWithColumn table then keys none (table.keys.erase ⟨table.primaryKey, false⟩)
    else keys (some table.primaryKey) table.keys
  let references := (table.foreignKeys.filter (!·.withColumn)).map fun key =>
    "FOREIGN KEY " ++ names key.columns ++ " " ++ reference key
  ownKeys ++ references

/-- The statements that make a table. -/
def ofTable (table : Table) : List String :=
  let creation := "CREATE TABLE " ++ name table.name ++ " " ++
    list (table.columns.map (column table) ++ constraints table)
  let row (row : Row) := "INSERT INTO " ++ name table.name ++ " " ++
    names ("rowid" :: table.columns.map (·.name)) ++ " VALUES " ++
    list ((Value.integer row.id :: row.cells).map literal)
  creation :: table.rows.map row ++ (table.sequence.map (sequence table)).toList
where
  /-- The statement that keeps the greatest row number given out so far. -/
  sequence (table : Table) (greatest : Int) : String :=
    "INSERT INTO " ++ name sequenceTable ++ " VALUES " ++
      list [literal (.text table.name), literal (.integer greatest)]

/-- The statement that makes an index. -/
def ofIndex (index : Index) : String :=
  (if index.unique then "CREATE UNIQUE INDEX " else "CREATE INDEX ") ++ name index.name ++ " ON " ++
    name index.table ++ " " ++ names index.columns

end Script

namespace Database

/-- The written form of a database. -/
def script (db : Database) : String :=
  let statements := db.tables.flatMap Script.ofTable ++ db.indexes.map Script.ofIndex
  String.join (statements.map (· ++ ";\n"))

/-! ## Reading -/

/-- Puts a row into a table as it is, its number first. -/
def restoreRow (db : Database) (name : String) (row : List Expr) : Option Database := do
  let table ← db.table? name
  match row.map Expr.constant with
  | .integer id :: cells => return db.put { table with rows := table.rows ++ [⟨id, cells⟩] }
  | _ => none

/-- Gives a table the greatest row number given out so far. -/
def restoreSequence (db : Database) (row : List Expr) : Option Database :=
  match row.map Expr.constant with
  | [.text name, .integer greatest] =>
    (db.table? name).map fun table => db.put { table with sequence := some greatest }
  | _ => none

/-- Makes what an item of a written form makes. -/
def restore (db : Database) : BatchItem → Option Database
  | .statement (.insert name _ rows) =>
    if name = Script.sequenceTable then rows.foldlM restoreSequence db
    else rows.foldlM (·.restoreRow name) db
  | .statement statement => (db.execute statement).toOption
  | .broken .. | .unread _ => none

/-- The database of a written form. -/
def ofScript? (text : String) : Option Database :=
  (Batch.read text).foldlM restore {}

end Database

end SchemaMigration.Sql
