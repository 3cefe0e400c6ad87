import SchemaMigration.Sql.Rows

/-!
Defining, changing and dropping tables and indexes.
-/

namespace SchemaMigration.Sql

/-! ## Tables from their definitions -/

/-- Whether a column of the declared type, as the only column of the primary key, is another name
for the row number. -/
def isRowNumberType (declaredType : String) : Bool :=
  Token.fold declaredType == "INTEGER"

/-- The default of a column, of which the last one stated counts; a bare null is none. -/
def ColumnDefinition.default? (definition : ColumnDefinition) : Option Expr :=
  let stated := definition.clauses.reverse.findSome? fun
    | .default e => some e
    | _ => none
  stated.filter (· ≠ .literal .null)

/-- The bare column of a definition. -/
def ColumnDefinition.column (definition : ColumnDefinition) : Column :=
  let affinity := Affinity.ofType definition.declaredType
  { name := definition.name
    affinity
    notNull := definition.clauses.contains .notNull
    default := (definition.default?.map fun e => e.constant.coerce affinity).getD .null }

/-- Gives a table its primary key. `isRowNumber` says that it is another name for the row number,
and `autoincrement` that no row number is to be given out twice. -/
def withPrimaryKey (table : Table) (names : List String) (isRowNumber autoincrement : Bool) :
    Except Fault Table :=
  if !table.primaryKey.isEmpty then .error (.secondPrimaryKey table.name)
  else if isRowNumber then
    .ok { table with
      primaryKey := names
      rowKey := names.head?
      sequence := if autoincrement then some 0 else none }
  else .ok { table with primaryKey := names, keys := table.keys ++ [⟨names, false⟩] }

/-- Refuses what is wrong with one clause of a column by itself. -/
def checkColumnClause (definition : ColumnDefinition) : ColumnClause → Except Fault Unit
  | .primaryKey descending autoincrement =>
    Fault.raiseIf (autoincrement && (descending || !isRowNumberType definition.declaredType))
      .misplacedAutoincrement
  | .default e => Fault.raiseIf (!e.isConstant false) (.defaultNotConstant definition.name)
  | .references parent columns =>
    Fault.raiseIf (1 < columns.length) (.singleForeignKey definition.name parent)
  | .unique | .notNull | .nullable => .ok ()

/-- Adds what one clause of a column says, be it right or wrong by itself. A descending key is no
other name for the row number. -/
def addClause (definition : ColumnDefinition) (table : Table) : ColumnClause → Except Fault Table
  | .primaryKey descending autoincrement =>
    withPrimaryKey table [definition.name]
      (isRowNumberType definition.declaredType && !descending) autoincrement
  | .unique => .ok { table with keys := table.keys ++ [⟨[definition.name], true⟩] }
  | .references parent columns => .ok { table with
      foreignKeys := table.foreignKeys ++ [⟨[definition.name], parent, columns, true⟩] }
  | .notNull | .nullable | .default _ => .ok table

/-- Adds what one clause of a column says. -/
def withColumnClause (definition : ColumnDefinition) (table : Table) (clause : ColumnClause) :
    Except Fault Table := do
  let changed ← addClause definition table clause
  checkColumnClause definition clause
  return changed

/-- Adds a column. -/
def withColumn (table : Table) (definition : ColumnDefinition) : Except Fault Table := do
  Fault.raiseIf (table.columnIndex? definition.name).isSome (.duplicateColumn definition.name)
  definition.clauses.foldlM (withColumnClause definition)
    { table with columns := table.columns ++ [definition.column] }

/-- Refuses names that are no columns of a table. -/
def checkColumns (table : Table) (fault : String → Fault) (names : List String) :
    Except Fault Unit :=
  Fault.raise ((names.find? fun name => (table.columnIndex? name).isNone).map fault)

/-- Adds what a constraint of the table says. -/
def withTableClause (definition : TableDefinition) (table : Table) :
    TableClause → Except Fault Table
  | .primaryKey columns autoincrement => do
    let isRowNumber := match columns with
      | [column] => definition.columns.any fun other =>
          sameName other.name column && isRowNumberType other.declaredType
      | _ => false
    let table ← withPrimaryKey table columns isRowNumber autoincrement
    Fault.raiseIf (autoincrement && !isRowNumber) .misplacedAutoincrement
    checkColumns table .noSuchColumn columns
    return table
  | .unique columns => do
    checkColumns table .noSuchColumn columns
    return { table with keys := table.keys ++ [⟨columns, false⟩] }
  | .foreignKey columns parent parentColumns => do
    Fault.raiseIf (!parentColumns.isEmpty && parentColumns.length != columns.length)
      .foreignKeyWidth
    checkColumns table .unknownForeignKeyColumn columns
    return { table with
      foreignKeys := table.foreignKeys ++ [⟨columns, parent, parentColumns, false⟩] }

/-- The empty table of a definition. -/
def TableDefinition.table (definition : TableDefinition) : Except Fault Table := do
  let table ← definition.columns.foldlM withColumn { name := definition.name, columns := [] }
  definition.clauses.foldlM (withTableClause definition) table

namespace Database

/-- Refuses names kept for the database's own tables. -/
def checkName (name : String) : Except Fault Unit :=
  Fault.raiseIf (isReservedName name) (.reservedName name)

/-- Creates a table. -/
def createTable (db : Database) (ifNotExists : Bool) (definition : TableDefinition) :
    Except Fault Database := do
  checkName definition.name
  if (db.table? definition.name).isSome then
    Fault.raiseIf (!ifNotExists) (.tableExists definition.spelling)
    return db
  else
    Fault.raiseIf (db.hasIndex definition.name) (.indexNamed definition.name)
    let table ← definition.table
    return { db with tables := db.tables ++ [table] }

/-- The database without a table and its indexes. -/
def withoutTable (db : Database) (table : Table) : Database :=
  { tables := db.tables.filter fun other => !sameName other.name table.name
    indexes := db.indexes.filter fun index => !sameName index.table table.name }

/-- Drops a table. Rows of other tables must not refer to its rows. -/
def dropTable (db : Database) (ifExists : Bool) (name : String) : Except Fault Database :=
  if ifExists && (db.table? name <|> describing name).isNone then .ok db
  else do
    let table ← db.changeable .undroppableTable name
    let _ ← keepReferences db (db.put { table with rows := [] })
    return db.withoutTable table

/-- The table of a name for an index on it. -/
def indexable (db : Database) (name : String) : Except Fault Table :=
  match db.table? name with
  | some table => .ok table
  | none =>
    match describing name with
    | some table => .error (.unindexableTable table.name)
    | none => .error (.noSuchTable ("main." ++ name))

/-- Creates an index; a unique one needs rows that differ on its columns. -/
def createIndex (db : Database) (unique ifNotExists : Bool) (name table : String)
    (columns : List String) : Except Fault Database := do
  let table ← db.indexable table
  checkName name
  Fault.raiseIf (db.table? name).isSome (.tableNamed name)
  if db.hasIndex name then
    Fault.raiseIf (!ifNotExists) (.indexExists name)
    return db
  else
    checkColumns table .noSuchColumn columns
    Fault.raiseIf (unique && !distinct table columns table.rows)
      (.notUnique table.name (columns.map table.spelling))
    return { db with indexes := db.indexes ++ [⟨name, table.name, columns, unique⟩] }
where
  /-- Whether no two rows agree on the columns. -/
  distinct (table : Table) (columns : List String) : List Row → Bool
    | [] => true
    | row :: rest => !(rest.any (agree table columns row)) && distinct table columns rest

/-- Drops an index. -/
def dropIndex (db : Database) (ifExists : Bool) (name : String) : Except Fault Database :=
  match db.index? name with
  | some index =>
    .ok { db with indexes := db.indexes.filter fun other => !sameName other.name index.name }
  | none =>
    if db.hasIndex name then .error .undroppableIndex
    else if ifExists then .ok db
    else .error (.noSuchIndex name)

/-! ## Changes of a table's definition -/

/-- Adds a column with its default in every row. Its reference counts as stated behind those of the
other columns and before those of the table. -/
def addColumn (db : Database) (table : Table) (definition : ColumnDefinition) :
    Except Fault Database := do
  Fault.raiseIf (table.columnIndex? definition.name).isSome (.duplicateColumn definition.name)
  definition.clauses.forM (checkColumnClause definition)
  Fault.raiseIf (definition.clauses.any (· matches .primaryKey ..)) .primaryKeyAdded
  Fault.raiseIf (definition.clauses.contains .unique) .uniqueAdded
  let changed ← withColumn table definition
  checkDefault definition table.rows (changed.foreignKeys.length != table.foreignKeys.length)
  return db.put { changed with
    foreignKeys := changed.foreignKeys.filter (·.withColumn) ++
      changed.foreignKeys.filter (!·.withColumn)
    rows := table.rows.map fun row =>
      { row with cells := row.cells ++ [definition.column.default] } }
where
  /-- Refuses a default that rows which are there cannot take. -/
  checkDefault (definition : ColumnDefinition) (rows : List Row) (refers : Bool) :
      Except Fault Unit :=
    if rows.isEmpty then .ok ()
    else do
      Fault.raiseIf (refers && definition.default?.isSome) .referenceAdded
      Fault.raiseIf (definition.column.notNull && definition.default?.isNone) .notNullAdded
      Fault.raiseIf (!definition.default?.all Expr.isBare) .computedDefaultAdded

/-- Drops a column that no key, index or reference uses. -/
def dropColumn (db : Database) (table : Table) (name spelling : String) :
    Except Fault Database := do
  let i ← position table name spelling
  let use? (names : List String) := names.find? (sameName name)
  let uses (names : List String) := (use? names).isSome
  Fault.raiseIf (uses table.primaryKey) (.keyColumnDropped "PRIMARY KEY" name)
  Fault.raiseIf (table.keys.any fun key => key.withColumn && uses key.columns)
    (.keyColumnDropped "UNIQUE" name)
  Fault.raiseIf (table.columns.length ≤ 1) (.lastColumnDropped name)
  Fault.raise ((table.keys.findSome? fun key => use? key.columns).map
    (.keyedColumnDropped table.name))
  let foreignKeys := table.foreignKeys.filter fun key => !(key.withColumn && uses key.columns)
  Fault.raise ((foreignKeys.findSome? fun key => use? key.columns).map
    (.referringColumnDropped table.name))
  Fault.raise ((db.indexesOf table.name).findSome? fun index =>
    (use? index.columns).map (.indexedColumnDropped index.name))
  return db.put { table with
    columns := table.columns.eraseIdx i
    foreignKeys
    rows := table.rows.map fun row => { row with cells := row.cells.eraseIdx i } }
where
  /-- The position of the column. -/
  position (table : Table) (name spelling : String) : Except Fault Nat :=
    match table.columnIndex? name with
    | some i => .ok i
    | none => .error (.noSuchColumnToChange spelling)

end Database

/-- A name after a renaming. -/
def renamed (old new name : String) : String :=
  if sameName name old then new else name

/-- A table after the renaming of a table. -/
def Table.afterTableRenamed (old new : String) (table : Table) : Table :=
  { table with
    name := renamed old new table.name
    foreignKeys := table.foreignKeys.map fun key =>
      { key with parent := renamed old new key.parent } }

/-- A reference out of the table `child` after the renaming of a column of a table. -/
def ForeignKey.afterColumnRenamed (table column new child : String) (key : ForeignKey) :
    ForeignKey :=
  { key with
    columns := if sameName child table then key.columns.map (renamed column new) else key.columns
    parentColumns :=
      if sameName key.parent table then key.parentColumns.map (renamed column new)
      else key.parentColumns }

/-- A table after the renaming of a column of its own. -/
def Table.afterOwnColumnRenamed (column new : String) (table : Table) : Table :=
  { table with
    columns := table.columns.map fun other => { other with name := renamed column new other.name }
    rowKey := table.rowKey.map (renamed column new)
    primaryKey := table.primaryKey.map (renamed column new)
    keys := table.keys.map fun key => { key with columns := key.columns.map (renamed column new) } }

/-- A table after the renaming of a column of the table `owner`. -/
def Table.afterColumnRenamed (owner column new : String) (table : Table) : Table :=
  let foreignKeys := table.foreignKeys.map (·.afterColumnRenamed owner column new table.name)
  if sameName table.name owner then
    { table.afterOwnColumnRenamed column new with foreignKeys }
  else { table with foreignKeys }

namespace Database

/-- Renames a table and what refers to it. -/
def renameTable (db : Database) (table : Table) (name : String) : Except Fault Database := do
  Fault.raiseIf ((db.table? name <|> describing name).isSome || db.hasIndex name) (.nameTaken name)
  checkName name
  return {
    tables := db.tables.map (·.afterTableRenamed table.name name)
    indexes := db.indexes.map fun index =>
      { index with table := renamed table.name name index.table } }

/-- Renames a column of a table and what refers to it. -/
def renameColumn (db : Database) (table : Table) (column spelling name : String) :
    Except Fault Database := do
  Fault.raiseIf (table.columnIndex? column).isNone (.noSuchColumnToChange spelling)
  let isClash (other : Column) := sameName other.name name && !sameName other.name column
  Fault.raiseIf (table.columns.any isClash) (.duplicateColumnRenamed table.name name)
  return {
    tables := db.tables.map (·.afterColumnRenamed table.name column name)
    indexes := db.indexes.map fun index =>
      if sameName index.table table.name then
        { index with columns := index.columns.map (renamed column name) }
      else index }

/-- Changes a table's definition. -/
def alterTable (db : Database) (name : String) (alteration : Alteration) :
    Except Fault Database := do
  let table ← db.changeable .unalterableTable name
  match alteration with
  | .addColumn definition => db.addColumn table definition
  | .dropColumn column spelling => db.dropColumn table column spelling
  | .rename new => db.renameTable table new
  | .renameColumn column spelling new => db.renameColumn table column spelling new

end Database

end SchemaMigration.Sql
