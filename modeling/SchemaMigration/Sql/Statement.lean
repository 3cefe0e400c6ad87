import SchemaMigration.Sql.Token
import SchemaMigration.Sql.Value

/-!
Statements as data: what a statement asks for, before any database is looked at.
-/

namespace SchemaMigration.Sql

/-- How two values are compared. -/
inductive Comparison where
  | equal
  | unequal
  | less
  | lessEqual
  | greater
  | greaterEqual
  deriving DecidableEq, Repr

/-- An expression over the columns of at most one table. -/
inductive Expr where
  | literal (value : Value)
  /-- An integer numeral, whose negation may reach one value further than its own. -/
  | numeral (value : Nat)
  /-- A name; one in double quotes that names no column is the text between the quotes. -/
  | name (spelling : String) (doubleQuoted : Bool)
  /-- A parameter, to which nothing is ever bound here. -/
  | parameter
  /-- A plus sign, behind which a column lends no affinity. -/
  | plus (operand : Expr)
  | negate (operand : Expr)
  | compare (comparison : Comparison) (left right : Expr)
  | isNull (operand : Expr)
  | not (operand : Expr)
  | and (left right : Expr)
  | or (left right : Expr)
  deriving DecidableEq, Repr

/-- What a name that is no column still means: a truth value, or the text in double quotes. -/
def Expr.ownMeaning? (spelling : String) (doubleQuoted : Bool) : Option Value :=
  if doubleQuoted then some (.text spelling)
  else if Token.fold spelling == "TRUE" then some (.integer 1)
  else if Token.fold spelling == "FALSE" then some (.integer 0)
  else none

/-- Something a column definition adds to its name and type. -/
inductive ColumnClause where
  | primaryKey (descending autoincrement : Bool)
  | unique
  | notNull
  /-- A bare `NULL`, which says nothing. -/
  | nullable
  | default (value : Expr)
  | references (parent : String) (columns : List String)
  deriving DecidableEq, Repr

/-- The definition of a column. -/
structure ColumnDefinition where
  name : String
  declaredType : String
  clauses : List ColumnClause := []
  deriving DecidableEq, Repr

/-- A constraint that a table definition states beside its columns. -/
inductive TableClause where
  | primaryKey (columns : List String) (autoincrement : Bool)
  | unique (columns : List String)
  | foreignKey (columns : List String) (parent : String) (parentColumns : List String)
  deriving DecidableEq, Repr

/-- The definition of a table. -/
structure TableDefinition where
  name : String
  /-- The name as it was written, with the quotes around it, if any. -/
  spelling : String := name
  columns : List ColumnDefinition
  clauses : List TableClause := []
  deriving DecidableEq, Repr

/-- A change of one table's definition. -/
inductive Alteration where
  | addColumn (column : ColumnDefinition)
  | dropColumn (column spelling : String)
  | rename (name : String)
  | renameColumn (column spelling name : String)
  deriving DecidableEq, Repr

/-- A statement. -/
inductive Statement where
  | createTable (ifNotExists : Bool) (definition : TableDefinition)
  | dropTable (ifExists : Bool) (table : String)
  | createIndex (unique ifNotExists : Bool) (index table : String) (columns : List String)
  | dropIndex (ifExists : Bool) (index : String)
  | alterTable (table : String) (alteration : Alteration)
  | insert (table : String) (columns : Option (List String)) (rows : List (List Expr))
  | update (table : String) (assignments : List (String × Expr)) (condition : Option Expr)
  | delete (table : String) (condition : Option Expr)
  /-- A selection; an item that is no expression stands for all columns of the table. -/
  | select (items : List (Option Expr)) (table : Option String) (condition limit : Option Expr)
  | values (rows : List (List Expr))
  | begin
  | commit
  | rollback
  /-- Packs the database anew. -/
  | vacuum
  deriving DecidableEq, Repr

namespace Statement

/-- Whether a statement opens or closes a transaction. -/
def isTransactionControl : Statement → Bool
  | begin | commit | rollback => true
  | _ => false

/-- Whether what a statement does depends on an open transaction. -/
def heedsTransaction : Statement → Bool
  | begin | commit | rollback | vacuum => true
  | _ => false

end Statement

end SchemaMigration.Sql
