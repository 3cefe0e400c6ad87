/-!
What can be wrong with SQL text or with a statement on a database, and how it is told.
-/

namespace SchemaMigration.Sql

/-- Where a fault lies: the text that was being read and a byte offset into it. -/
structure Place where
  text : String
  offset : Nat
  deriving DecidableEq, Repr

/-- What is wrong with a text or a statement. -/
inductive Fault where
  | unexpected (token : String) (place : Place)
  | unrecognized (token : String) (place : Place)
  | incomplete
  | unknownTableOption (option : String)
  | noSuchTable (table : String)
  | noSuchIndex (index : String)
  | noSuchColumn (column : String)
  | noSuchColumnToChange (column : String)
  | tableExists (table : String)
  | indexExists (index : String)
  | tableNamed (name : String)
  | indexNamed (name : String)
  | nameTaken (name : String)
  | reservedName (name : String)
  | readOnlyTable (table : String)
  | undroppableTable (table : String)
  | unalterableTable (table : String)
  | unindexableTable (table : String)
  | duplicateColumn (column : String)
  | secondPrimaryKey (table : String)
  | misplacedAutoincrement
  | defaultNotConstant (column : String)
  | unknownForeignKeyColumn (column : String)
  | singleForeignKey (column table : String)
  | foreignKeyWidth
  | noColumnNamed (table column : String)
  | tableWidth (table : String) (columns values : Nat)
  | listWidth (values columns : Nat)
  | rowWidths
  | joinedWidths
  | noTables
  | undroppableIndex
  | primaryKeyAdded
  | uniqueAdded
  | notNullAdded
  | referenceAdded
  | computedDefaultAdded
  | keyColumnDropped (key column : String)
  | lastColumnDropped (column : String)
  | duplicateColumnRenamed (table column : String)
  | keyedColumnDropped (table column : String)
  | indexedColumnDropped (index column : String)
  | referringColumnDropped (table column : String)
  | foreignKeyMismatch (child parent : String)
  | notUnique (table : String) (columns : List String)
  | null (table column : String)
  | foreignKey
  | datatypeMismatch
  | full
  | nestedTransaction
  | commitOutside
  | rollbackOutside
  | vacuumInside
  | notADatabase
  deriving DecidableEq, Repr

namespace Fault

/-- The text of a fault. A fault of the text itself says where it lies. -/
def message : Fault → String
  | unexpected token place => "near \"" ++ token ++ "\": syntax error" ++ located place
  | unrecognized token place => "unrecognized token: \"" ++ token ++ "\"" ++ located place
  | incomplete => "incomplete input"
  | unknownTableOption option => "unknown table option: " ++ option
  | noSuchTable table => "no such table: " ++ table
  | noSuchIndex index => "no such index: " ++ index
  | noSuchColumn column => "no such column: " ++ column
  | noSuchColumnToChange column => "no such column: \"" ++ column ++ "\""
  | tableExists table => "table " ++ table ++ " already exists"
  | indexExists index => "index " ++ index ++ " already exists"
  | tableNamed name => "there is already a table named " ++ name
  | indexNamed name => "there is already an index named " ++ name
  | nameTaken name => "there is already another table or index with this name: " ++ name
  | reservedName name => "object name reserved for internal use: " ++ name
  | readOnlyTable table => "table " ++ table ++ " may not be modified"
  | undroppableTable table => "table " ++ table ++ " may not be dropped"
  | unalterableTable table => "table " ++ table ++ " may not be altered"
  | unindexableTable table => "table " ++ table ++ " may not be indexed"
  | duplicateColumn column => "duplicate column name: " ++ column
  | secondPrimaryKey table => "table \"" ++ table ++ "\" has more than one primary key"
  | misplacedAutoincrement => "AUTOINCREMENT is only allowed on an INTEGER PRIMARY KEY"
  | defaultNotConstant column => "default value of column [" ++ column ++ "] is not constant"
  | unknownForeignKeyColumn column =>
    "unknown column \"" ++ column ++ "\" in foreign key definition"
  | singleForeignKey column table =>
    "foreign key on " ++ column ++ " should reference only one column of table " ++ table
  | foreignKeyWidth =>
    "number of columns in foreign key does not match the number of columns in the referenced table"
  | noColumnNamed table column => "table " ++ table ++ " has no column named " ++ column
  | tableWidth table columns values =>
    "table " ++ table ++ " has " ++ toString columns ++ " columns but " ++ toString values ++
      " values were supplied"
  | listWidth values columns => toString values ++ " values for " ++ toString columns ++ " columns"
  | rowWidths => "all VALUES must have the same number of terms"
  | joinedWidths =>
    "SELECTs to the left and right of UNION ALL do not have the same number of result columns"
  | noTables => "no tables specified"
  | undroppableIndex => "index associated with UNIQUE or PRIMARY KEY constraint cannot be dropped"
  | primaryKeyAdded => "Cannot add a PRIMARY KEY column"
  | uniqueAdded => "Cannot add a UNIQUE column"
  | notNullAdded => "Cannot add a NOT NULL column with default value NULL"
  | referenceAdded => "Cannot add a REFERENCES column with non-NULL default value"
  | computedDefaultAdded => "Cannot add a column with non-constant default"
  | keyColumnDropped key column => "cannot drop " ++ key ++ " column: \"" ++ column ++ "\""
  | lastColumnDropped column =>
    "cannot drop column \"" ++ column ++ "\": no other columns exist"
  | duplicateColumnRenamed table column =>
    "error in table " ++ table ++ " after rename: duplicate column name: " ++ column
  | keyedColumnDropped table column =>
    "error in table " ++ table ++ " after drop column: no such column: " ++ column
  | indexedColumnDropped index column =>
    "error in index " ++ index ++ " after drop column: no such column: " ++ column
  | referringColumnDropped table column =>
    "error in table " ++ table ++ " after drop column: unknown column \"" ++ column ++
      "\" in foreign key definition"
  | foreignKeyMismatch child parent =>
    "foreign key mismatch - \"" ++ child ++ "\" referencing \"" ++ parent ++ "\""
  | notUnique table columns =>
    "UNIQUE constraint failed: " ++
      ", ".intercalate (columns.map fun column => table ++ "." ++ column)
  | null table column => "NOT NULL constraint failed: " ++ table ++ "." ++ column
  | foreignKey => "FOREIGN KEY constraint failed"
  | datatypeMismatch => "datatype mismatch"
  | full => "database or disk is full"
  | nestedTransaction => "cannot start a transaction within a transaction"
  | commitOutside => "cannot commit - no transaction is active"
  | rollbackOutside => "cannot rollback - no transaction is active"
  | vacuumInside => "cannot VACUUM from within a transaction"
  | notADatabase => "file is not a database"
where
  located (place : Place) : String :=
    " in " ++ place.text ++ " at offset " ++ toString place.offset

/-- Whether a fault shows only when a statement is complete or runs, so that a statement whose text
goes on wrongly is refused for its text before such a fault could show. -/
def showsWhenRun : Fault → Bool
  | notUnique .. | null .. | foreignKey | datatypeMismatch | full | nestedTransaction
  | commitOutside | rollbackOutside | vacuumInside | primaryKeyAdded | uniqueAdded | notNullAdded
  | referenceAdded | computedDefaultAdded | duplicateColumnRenamed .. | keyedColumnDropped ..
  | indexedColumnDropped .. | referringColumnDropped .. => true
  | _ => false

/-- Fails with a fault if there is one. -/
def raise : Option Fault → Except Fault Unit
  | some fault => .error fault
  | none => .ok ()

/-- Fails with a fault if a condition holds. -/
def raiseIf (condition : Bool) (fault : Fault) : Except Fault Unit :=
  if condition then .error fault else .ok ()

end Fault

end SchemaMigration.Sql
