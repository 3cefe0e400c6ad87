import SchemaMigration.Sql.Database
import SchemaMigration.Sql.Statement

/-!
Reading and changing the rows of tables: the value of an expression, the rules a row has to keep,
and insertion, update and deletion. A change that breaks a rule is a fault and no change at all.
-/

namespace SchemaMigration.Sql

/-! ## Expressions -/

namespace Expr

/-- Refuses the first name that means nothing with the given table in view. -/
def check (table : Option Table) : Expr → Except Fault Unit
  | literal _ | numeral _ | parameter => .ok ()
  | name spelling doubleQuoted =>
    if (table.bind (·.columnIndex? spelling)).isSome ||
      (ownMeaning? spelling doubleQuoted).isSome ||
      table.any (·.namesRowNumber spelling) then .ok ()
    else .error (.noSuchColumn spelling)
  | plus e | negate e | isNull e | not e => e.check table
  | compare _ a b | and a b | or a b => do
    a.check table
    b.check table

/-- The affinity that an expression lends to a comparison. -/
def affinity? (table : Option Table) : Expr → Option Affinity
  | name spelling _ =>
    match table.bind (·.column? spelling) with
    | some column => some column.affinity
    | none => if table.any (·.namesRowNumber spelling) then some .integer else none
  | _ => none

/-- Whether a comparison holds between two values that are not null. -/
def holds (comparison : Comparison) (a b : Value) : Bool :=
  match comparison with
  | .equal => a.same b
  | .unequal => !a.same b
  | .less => !b.le a
  | .lessEqual => a.le b
  | .greater => !a.le b
  | .greaterEqual => b.le a

/-- A comparison of values whose sides have the given affinities; null makes it null. -/
def compareValues (comparison : Comparison) (left right : Option Affinity) (a b : Value) : Value :=
  if a = .null ∨ b = .null then .null
  else
    let numericLeft := left.any Affinity.isNumeric
    let numericRight := right.any Affinity.isNumeric
    let a := if numericRight && !numericLeft then Value.coerce .numeric a
      else if right == some .text && left.isNone then Value.coerce .text a else a
    let b := if numericLeft && !numericRight then Value.coerce .numeric b
      else if left == some .text && right.isNone then Value.coerce .text b else b
    .ofBool (holds comparison a b)

/-- The value of an expression on a row. -/
def eval (table : Option Table) (row : Row) : Expr → Value
  | literal value => value
  | numeral n => Value.ofInt n
  | name spelling doubleQuoted =>
    match table.bind (·.columnIndex? spelling) with
    | some i => (row.cells[i]?).getD .null
    | none =>
      match ownMeaning? spelling doubleQuoted with
      | some value => value
      | none => .integer row.id
  | parameter => .null
  | plus e => e.eval table row
  | negate e =>
    match e with
    | numeral n => Value.ofInt (-(n : Int))
    | e =>
      match e.eval table row with
      | .null => .null
      | value => (Value.asNumber value).negate
  | compare comparison a b =>
    compareValues comparison (a.affinity? table) (b.affinity? table) (a.eval table row)
      (b.eval table row)
  | isNull e => .ofBool (e.eval table row = .null)
  | not e =>
    match (e.eval table row).truth? with
    | some b => .ofBool !b
    | none => .null
  | and a b =>
    match (a.eval table row).truth?, (b.eval table row).truth? with
    | some false, _ | _, some false => .ofBool false
    | some true, some true => .ofBool true
    | _, _ => .null
  | or a b =>
    match (a.eval table row).truth?, (b.eval table row).truth? with
    | some true, _ | _, some true => .ofBool true
    | some false, some false => .ofBool false
    | _, _ => .null

/-- The value of an expression without a table in view. -/
def constant (e : Expr) : Value :=
  e.eval none ⟨0, []⟩

/-- Whether an expression reads without names other than the truth values. `parameters` says whether
parameters may stand in it. -/
def isConstant (parameters : Bool) : Expr → Bool
  | literal _ | numeral _ => true
  | name spelling doubleQuoted => !doubleQuoted && (ownMeaning? spelling false).isSome
  | parameter => parameters
  | plus e | negate e | isNull e | not e => e.isConstant parameters
  | compare _ a b | and a b | or a b => a.isConstant parameters && b.isConstant parameters

/-- Whether a constant has signs at most. -/
def isBare : Expr → Bool
  | literal _ | numeral _ | name .. => true
  | plus e | negate e => e.isBare
  | parameter | isNull _ | not _ | compare .. | and .. | or .. => false

end Expr

/-- Whether a condition selects a row; no condition selects every row. -/
def selects (table : Table) (condition : Option Expr) (row : Row) : Bool :=
  match condition with
  | none => true
  | some e => (e.eval (some table) row).truth? = some true

/-! ## Rules of one table -/

/-- Whether two rows agree on some columns, none of them null. -/
def agree (table : Table) (names : List String) (a b : Row) : Bool :=
  let left := table.project a names
  !(left.contains .null) && (left.zip (table.project b names)).all fun (x, y) => x.same y

/-- The spelling with which a table has a column. -/
def Table.spelling (table : Table) (name : String) : String :=
  ((table.column? name).map (·.name)).getD name

/-- The first column of a row that is null and may not be. -/
def nullFault? (table : Table) (row : Row) : Option Fault :=
  ((table.columns.zip row.cells).find? fun (column, cell) =>
    column.notNull && cell == .null).map fun (column, _) => .null table.name column.name

/-- The number of a row where another row has it. -/
def numberFault? (table : Table) (others : List Row) (row : Row) : Option Fault :=
  if others.any (·.id = row.id) then
    some (.notUnique table.name [(table.rowKey.map table.spelling).getD "rowid"])
  else none

/-- The first set of columns on which a row agrees with another row and may not. -/
def keyFault? (table : Table) (sets : List (List String)) (others : List Row) (row : Row) :
    Option Fault :=
  (sets.find? fun names => others.any (agree table names row)).map fun names =>
    .notUnique table.name (names.map table.spelling)

/-- Refuses a row that, beside the given others, breaks a rule of its table: first a null where none
may be, then a row number or key that another row has. -/
def checkRow (table : Table) (sets : List (List String)) (others : List Row) (row : Row) :
    Except Fault Unit :=
  Fault.raise (nullFault? table row <|> numberFault? table others row <|>
    keyFault? table sets others row)

/-- Puts a row in its place among rows ordered by number. -/
def insertSorted (row : Row) : List Row → List Row
  | [] => [row]
  | other :: rest =>
    if row.id < other.id then row :: other :: rest else other :: insertSorted row rest

/-- The number of the next row: the one behind the last, or the first free one from 1 on where that
is too large for a cell. -/
def freeId (rows : List Row) : Int :=
  match rows.getLast? with
  | none => 1
  | some row =>
    if Value.fits (row.id + 1) then row.id + 1
    else
      let isFree (n : Nat) : Bool := rows.all (·.id ≠ (n : Int) + 1)
      ((List.range rows.length).find? isFree).getD rows.length + 1

/-- The number of the next row of a table. One that gives out no number twice goes on behind the
greatest it has given out, and is full where that is too large for a cell. -/
def Table.nextId (table : Table) : Except Fault Int :=
  match table.sequence with
  | none => .ok (freeId table.rows)
  | some greatest =>
    let last := (table.rows.getLast?.map (·.id)).getD 0
    let next := max greatest last + 1
    if Value.fits next then .ok next else .error .full

/-- A row of the given cells. The row key, if there is one, holds the number. -/
def Table.row (table : Table) (id : Int) (cells : List Value) : Row :=
  match table.rowKey.bind table.columnIndex? with
  | none => ⟨id, cells⟩
  | some i => ⟨id, cells.set i (.integer id)⟩

/-- The number that values for some columns give a row: the last one that stands for the row number
counts, and none or a null gives the next number. -/
def givenId (table : Table) (names : List String) (values : List Value)
    (next : Except Fault Int) : Except Fault Int :=
  match (names.zip values).reverse.find? fun (name, _) => table.namesRowNumber name with
  | none => next
  | some (_, value) =>
    match value.coerce .integer with
    | .null => next
    | .integer n => .ok n
    | _ => .error .datatypeMismatch

/-- The cells of a new row from values for some columns. -/
def newCells (table : Table) (names : List String) (values : List Value) : List Value :=
  table.columns.map fun column =>
    let given := (names.zip values).find? fun (name, _) => sameName name column.name
    match given with
    | some (_, value) => value.coerce column.affinity
    | none => column.default

/-! ## References between tables -/

/-- The columns of the parent that a reference goes to, if it goes to a key of the parent. -/
def ForeignKey.target? (key : ForeignKey) (db : Database) (parent : Table) :
    Option (List String) :=
  let names := if key.parentColumns.isEmpty then parent.primaryKey else key.parentColumns
  let isKey (set : List String) :=
    set.length = names.length && names.all fun name => set.any (sameName name)
  if names.length = key.columns.length && !names.isEmpty &&
      (parent.rowKey.any (fun rowKey => isKey [rowKey]) ||
        (db.uniqueSets parent).any isKey) then some names else none

/-- Whether a row of the child refers to no row of the parent. -/
def dangles (db : Database) (child : Table) (key : ForeignKey) (row : Row) : Bool :=
  let cells := child.project row key.columns
  !(cells.contains .null) &&
    match db.table? key.parent with
    | none => true
    | some parent =>
      match key.target? db parent with
      | none => false
      | some names =>
        let wanted := (names.zip cells).map fun (name, cell) =>
          cell.coerce (((parent.column? name).map Column.affinity).getD .blob)
        !(parent.rows.any fun other =>
          (wanted.zip (parent.project other names)).all fun (x, y) => x.same y)

/-- How many references of the database go nowhere. -/
def danglingCount (db : Database) : Nat :=
  (db.tables.flatMap fun child =>
    child.foreignKeys.flatMap fun key => child.rows.filter (dangles db child key)).length

/-- The references into a table with the tables they come from, in the order they were stated. -/
def Database.referencesTo (db : Database) (table : Table) : List (Table × ForeignKey) :=
  db.tables.flatMap fun child =>
    (child.foreignKeys.filter (sameName ·.parent table.name)).map (child, ·)

/-- Refuses a change of a table's rows when one of the given references out of it goes to no table
or to no key. The last one stated is looked at first. -/
def checkParents (db : Database) (table : Table) (keys : List ForeignKey) : Except Fault Unit :=
  keys.reverse.forM fun key =>
    match db.table? key.parent <|> Database.describing key.parent with
    | none => .error (.noSuchTable ("main." ++ key.parent))
    | some parent =>
      if (key.target? db parent).isSome then .ok ()
      else .error (.foreignKeyMismatch table.name key.parent)

/-- Refuses a change of a table's rows when one of the given references into it goes to no key. The
last one stated is looked at first. -/
def checkChildren (db : Database) (table : Table) (references : List (Table × ForeignKey)) :
    Except Fault Unit :=
  references.reverse.forM fun (child, key) =>
    if (key.target? db table).isSome then .ok ()
    else .error (.foreignKeyMismatch child.name key.parent)

/-- Refuses a change after which more references go nowhere than before. -/
def keepReferences (before after : Database) : Except Fault Database :=
  if danglingCount after > danglingCount before then .error .foreignKey else .ok after

/-! ## Changes -/

/-- A table with one more row. -/
def Table.withRow (table : Table) (row : Row) : Table :=
  { table with
    rows := insertSorted row table.rows
    sequence := table.sequence.map (max · row.id) }

/-- Adds a row of values for the given columns to a table in which rows must differ on some sets of
columns. -/
def insertRow (sets : List (List String)) (names : List String) (table : Table)
    (values : List Value) : Except Fault Table := do
  let id ← givenId table names values table.nextId
  let row := table.row id (newCells table names values)
  checkRow table sets table.rows row
  return table.withRow row

/-- Adds rows of values for the given columns. -/
def insertRows (db : Database) (table : Table) (names : List String) (rows : List (List Value)) :
    Except Fault Database := do
  let changed ← rows.foldlM (insertRow (db.uniqueSets table) names) table
  keepReferences db (db.put changed)

/-- The row after assignments. -/
def assigned (table : Table) (assignments : List (String × Expr)) (row : Row) :
    Except Fault Row := do
  let cells := (table.columns.zip row.cells).map fun (column, cell) =>
    match assignments.reverse.find? fun (name, _) => sameName name column.name with
    | some (_, e) => (e.eval (some table) row).coerce column.affinity
    | none => cell
  match assignments.reverse.find? fun (name, _) => table.namesRowNumber name with
  | none => return table.row row.id cells
  | some (_, e) =>
    match (e.eval (some table) row).coerce .integer with
    | .integer n => return table.row n cells
    | _ => throw .datatypeMismatch

/-- Changes the selected rows one after the other, each against the rows as they then are. -/
def updateRows (db : Database) (table : Table) (assignments : List (String × Expr))
    (condition : Option Expr) : Except Fault Database := do
  let sets := db.uniqueSets table
  let rows ← (table.rows.filter (selects table condition)).foldlM (fun rows row => do
    let changed ← assigned table assignments row
    let others := rows.filter (·.id ≠ row.id)
    checkRow table sets others changed
    return insertSorted changed others) table.rows
  keepReferences db (db.put { table with rows })

/-- Removes the selected rows. -/
def deleteRows (db : Database) (table : Table) (condition : Option Expr) :
    Except Fault Database :=
  keepReferences db
    (db.put { table with rows := table.rows.filter fun row => !selects table condition row })

/-! ## Packing -/

/-- Rows in their order, numbered from 1 on. -/
def renumbered (rows : List Row) : List Row :=
  rows.zipIdx.map fun (row, i) => { row with id := (i : Int) + 1 }

/-- A table packed anew. Its rows are numbered anew unless a key or an index goes by their
numbers. -/
def Database.packed (db : Database) (table : Table) : Table :=
  { table with
    rows := if table.rowKey.isNone && table.keys.isEmpty && (db.indexesOf table.name).isEmpty then
        renumbered table.rows
      else table.rows }

/-- The database packed anew. -/
def Database.vacuumed (db : Database) : Database :=
  { db with tables := db.tables.map db.packed }

end SchemaMigration.Sql
