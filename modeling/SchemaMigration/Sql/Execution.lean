import SchemaMigration.Sql.Definition

/-!
What a statement does to the content of a database. Each statement is atomic: it answers the changed
content or a fault. Transactions are no content and are the connection's business.
-/

namespace SchemaMigration.Sql

namespace Database

/-- Refuses names that mean nothing in expressions over a table. -/
def checkExprs (table : Option Table) (exprs : List Expr) : Except Fault Unit :=
  exprs.forM (Expr.check table)

/-- Whether two constant rows next to each other have different widths. -/
def constantWidthsDiffer : List (List Expr) → Bool
  | a :: b :: rest =>
    (a.length != b.length && (a ++ b).all (Expr.isConstant true)) ||
      constantWidthsDiffer (b :: rest)
  | _ => false

/-- How a row is told from rows of another width behind it. Constant rows that begin behind one that
is not are joined to it as a whole. -/
def widthFault (row : List Expr) : List (List Expr) → Fault
  | a :: b :: _ =>
    if !row.all (Expr.isConstant true) && (a ++ b).all (Expr.isConstant true) then .joinedWidths
    else .rowWidths
  | _ => .rowWidths

/-- Refuses rows in which a name means nothing, and rows of different widths. The last row is looked
at first. -/
def checkRows : List (List Expr) → Except Fault Unit
  | [] => .ok ()
  | row :: rest => do
    checkRows rest
    checkExprs none row
    Fault.raiseIf (rest.head?.any (·.length != row.length)) (widthFault row rest)

/-- Inserts rows. The widths of constant rows are compared before the table is looked up. -/
def insert (db : Database) (name : String) (columns : Option (List String))
    (rows : List (List Expr)) : Except Fault Database := do
  Fault.raiseIf (constantWidthsDiffer rows) .rowWidths
  let table ← db.changeable .readOnlyTable name
  checkColumns table (.noColumnNamed name)
    ((columns.getD []).filter fun name => !table.namesRowNumber name)
  checkRows rows
  checkWidth table ((rows.head?.map List.length).getD 0)
  checkParents db table table.foreignKeys
  checkChildren db table (if 1 < rows.length then db.referencesTo table else [])
  insertRows db table (columns.getD (table.columns.map (·.name)))
    (rows.map fun row => row.map Expr.constant)
where
  /-- Refuses rows that are not as wide as the list of columns or, without one, the table. -/
  checkWidth (table : Table) (width : Nat) : Except Fault Unit :=
    match columns with
    | none => Fault.raiseIf (width != table.columns.length)
        (.tableWidth name table.columns.length width)
    | some names => Fault.raiseIf (width != names.length) (.listWidth width names.length)

/-- Updates rows. -/
def update (db : Database) (name : String) (assignments : List (String × Expr))
    (condition : Option Expr) : Except Fault Database := do
  let table ← db.changeable .readOnlyTable name
  assignments.forM fun (column, e) => do
    e.check (some table)
    Fault.raiseIf ((table.columnIndex? column).isNone && !table.namesRowNumber column)
      (.noSuchColumn column)
  checkExprs (some table) condition.toList
  checkReferences db table fun names =>
    names.any fun column => assignments.any fun (name, _) =>
      sameName name column || (table.isRowKey column && table.namesRowNumber name)
  updateRows db table assignments condition
where
  /-- Checks the references of a table some columns of which change. They matter only if the change
  touches one of them, and then those of the table to itself and those into the table all do, the
  latter after the others and in the order they were stated. -/
  checkReferences (db : Database) (table : Table) (touches : List String → Bool) :
      Except Fault Unit := do
    let changedOut := table.foreignKeys.filter fun key => touches key.columns
    let changedIn := (db.referencesTo table).filter fun (_, key) =>
      touches (if key.parentColumns.isEmpty then table.primaryKey else key.parentColumns)
    if !changedOut.isEmpty || !changedIn.isEmpty then
      checkParents db table (table.foreignKeys.filter fun key =>
        touches key.columns || sameName key.parent table.name)
      checkChildren db table changedIn
      checkChildren db table (db.referencesTo table).reverse

/-- Deletes rows. -/
def delete (db : Database) (name : String) (condition : Option Expr) :
    Except Fault Database := do
  let table ← db.changeable .readOnlyTable name
  checkExprs (some table) condition.toList
  checkParents db table table.foreignKeys
  checkChildren db table (db.referencesTo table)
  deleteRows db table condition

/-- Checks a selection, which changes nothing. -/
def select (db : Database) (items : List (Option Expr)) (table : Option String)
    (condition limit : Option Expr) : Except Fault Database := do
  let table ← table.mapM db.readable
  Fault.raiseIf (table.isNone && items.contains none) .noTables
  checkExprs none limit.toList
  checkExprs table (items.filterMap id)
  checkExprs table condition.toList
  Fault.raiseIf (limit.any fun e => !(e.constant.coerce .integer matches .integer _))
    .datatypeMismatch
  return db

/-- Checks rows of values, which change nothing. -/
def values (db : Database) (rows : List (List Expr)) : Except Fault Database := do
  Fault.raiseIf (constantWidthsDiffer rows) .rowWidths
  checkRows rows
  return db

/-- Runs a statement on the content of a database. -/
def execute (db : Database) : Statement → Except Fault Database
  | .createTable ifNotExists definition => db.createTable ifNotExists definition
  | .dropTable ifExists table => db.dropTable ifExists table
  | .createIndex unique ifNotExists index table columns =>
    db.createIndex unique ifNotExists index table columns
  | .dropIndex ifExists index => db.dropIndex ifExists index
  | .alterTable table alteration => db.alterTable table alteration
  | .insert table columns rows => db.insert table columns rows
  | .update table assignments condition => db.update table assignments condition
  | .delete table condition => db.delete table condition
  | .select items table condition limit => db.select items table condition limit
  | .values rows => db.values rows
  | .begin | .commit | .rollback => .ok db
  | .vacuum => .ok db.vacuumed

end Database

end SchemaMigration.Sql
