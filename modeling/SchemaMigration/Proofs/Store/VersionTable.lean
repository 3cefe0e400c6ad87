import SchemaMigration.Proofs.Sql.Session
import SchemaMigration.Store

/-!
# The version table

A store makes its version table with two bare columns and refers nowhere from it.
`StoreOptions.HasRows` says that a content has such a table with given rows, in whatever spelling of
its name.

* `StoreOptions.stateIn_rowsOf`: the rows that a store writes for a state are read back as the
  state;
* `StoreOptions.execute_keeps_rows`: a statement that does not name the table leaves its rows;
* `StoreOptions.ensureTable_tables`: setting up a store where there is no such table adds an empty
  one. -/

namespace SchemaMigration.StoreOptions

open Sql (Session Connection Database Row Statement Value sameName)

/-! ## Rows and states -/

/-- The columns of a version table. -/
def versionColumns : List Sql.Column :=
  [⟨"version", .integer, false, .null⟩, ⟨"dirty", .numeric, false, .null⟩]

/-- A version table as a store makes it. -/
def versionTable (spelling : String) (rows : List Row) : Sql.Table :=
  { name := spelling, columns := versionColumns, rows }

/-- The content has a version table as a store makes it, with the given rows. -/
def HasRows (options : StoreOptions) (db : Database) (rows : List Row) : Prop :=
  ∃ spelling, db.table? options.table = some (versionTable spelling rows)

/-- The content has a version table as a store makes it. -/
def HasTable (options : StoreOptions) (db : Database) : Prop :=
  ∃ rows, options.HasRows db rows

/-- The rows that stand for a state: none for a clean state without version. -/
def rowsOf (version : Option Version) (dirty : Bool) : List Row :=
  if version.isSome || dirty then
    [⟨1, [.integer (version.elim nilVersion Int.ofNat), .ofBool dirty]⟩]
  else []

/-- The content with other rows in its version table. -/
def withVersionRows (options : StoreOptions) (rows : List Row) (db : Database) : Database :=
  match db.table? options.table with
  | some table => db.put { table with rows }
  | none => db

/-- The content with a state in its version table. -/
def recorded (options : StoreOptions) (version : Option Version) (dirty : Bool) (db : Database) :
    Database :=
  options.withVersionRows (rowsOf version dirty) db

variable {options : StoreOptions} {db : Database} {rows : List Row}

@[simp] theorem rows_versionTable (spelling : String) : (versionTable spelling rows).rows = rows :=
  rfl

theorem columnIndex?_version (spelling : String) :
    (versionTable spelling rows).columnIndex? "version" = some 0 := by
  show versionColumns.findIdx? (fun column => sameName column.name "version") = some 0
  decide +kernel

theorem columnIndex?_dirty (spelling : String) :
    (versionTable spelling rows).columnIndex? "dirty" = some 1 := by
  show versionColumns.findIdx? (fun column => sameName column.name "dirty") = some 1
  decide +kernel

theorem checkColumns_versionTable (spelling : String) (fault : String → Sql.Fault) :
    Sql.checkColumns (versionTable spelling rows) fault ["version", "dirty"] = .ok () := by
  simp [Sql.checkColumns, columnIndex?_version, columnIndex?_dirty, Sql.Fault.raise]

theorem HasRows.readable (has : options.HasRows db rows) :
    ∃ spelling, db.readable options.table = .ok (versionTable spelling rows) := by
  obtain ⟨spelling, found⟩ := has
  refine ⟨spelling, ?_⟩
  unfold Database.readable
  rw [found]
  rfl

theorem cell_version (spelling : String) (id : Int) (version dirty : Value) :
    (versionTable spelling rows).cell ⟨id, [version, dirty]⟩ "version" = version := by
  simp [Sql.Table.cell, columnIndex?_version]

theorem cell_dirty (spelling : String) (id : Int) (version dirty : Value) :
    (versionTable spelling rows).cell ⟨id, [version, dirty]⟩ "dirty" = dirty := by
  simp [Sql.Table.cell, columnIndex?_dirty]

theorem stateIn_of_no_rows (has : options.HasRows db []) : options.stateIn db = .ok {} := by
  obtain ⟨spelling, readable⟩ := has.readable
  unfold stateIn
  rw [readable]
  simp only [Except.mapError, bind, Except.bind, checkColumns_versionTable]
  rfl

theorem stateIn_of_row {version dirty id : Int} {rest : List Row}
    (has : options.HasRows db (⟨id, [.integer version, .integer dirty]⟩ :: rest)) :
    options.stateIn db =
      .ok ⟨if 0 ≤ version then some version.toNat else none, dirty ≠ 0⟩ := by
  obtain ⟨spelling, readable⟩ := has.readable
  unfold stateIn
  rw [readable]
  simp only [Except.mapError, bind, Except.bind, checkColumns_versionTable, rows_versionTable,
    List.head?_cons, cell_version, cell_dirty, integerCell]
  rfl

/-- The state that a store writes is the state that it reads. -/
theorem stateIn_rowsOf {version : Option Version} {dirty : Bool}
    (has : options.HasRows db (rowsOf version dirty)) :
    options.stateIn db = .ok ⟨version, dirty⟩ := by
  cases version with
  | none =>
      cases dirty with
      | false => exact stateIn_of_no_rows has
      | true => exact stateIn_of_row has
  | some number =>
      have row : options.HasRows db [⟨1, [.integer number, .ofBool dirty]⟩] := has
      cases dirty with
      | false =>
          rw [stateIn_of_row row]
          simp
      | true =>
          rw [stateIn_of_row row]
          simp

/-! ## What changes the rows -/

theorem HasRows.sameName {spelling : String}
    (found : db.table? options.table = some (versionTable spelling rows)) :
    sameName spelling options.table = true :=
  (Database.mem_of_table? found).2

theorem withVersionRows_of_found {spelling : String}
    (found : db.table? options.table = some (versionTable spelling rows)) (others : List Row) :
    options.withVersionRows others db = db.put (versionTable spelling others) := by
  unfold withVersionRows
  rw [found]
  rfl

theorem HasTable.withVersionRows (has : options.HasTable db) (others : List Row) :
    options.HasRows (options.withVersionRows others db) others := by
  obtain ⟨rows, spelling, found⟩ := has
  rw [withVersionRows_of_found found]
  exact ⟨spelling, Database.table?_put found (HasRows.sameName found)⟩

theorem HasTable.recorded (has : options.HasTable db) (version : Option Version) (dirty : Bool) :
    options.HasRows (options.recorded version dirty db) (rowsOf version dirty) :=
  has.withVersionRows _

/-- Only the last rows put count. -/
theorem withVersionRows_withVersionRows (has : options.HasTable db) (first second : List Row) :
    options.withVersionRows second (options.withVersionRows first db) =
      options.withVersionRows second db := by
  obtain ⟨rows, spelling, found⟩ := has
  have moved : (db.put (versionTable spelling first)).table? options.table =
      some (versionTable spelling first) := Database.table?_put found (HasRows.sameName found)
  rw [withVersionRows_of_found found, withVersionRows_of_found moved,
    withVersionRows_of_found found]
  exact Database.put_put (Sql.sameName_self spelling)

/-- Only the last state recorded counts. -/
theorem HasTable.recorded_recorded (has : options.HasTable db) (first second : Option Version)
    (dirty dirty' : Bool) :
    options.recorded second dirty' (options.recorded first dirty db) =
      options.recorded second dirty' db :=
  withVersionRows_withVersionRows has _ _

/-- The rows of a state are numbered from 1 on. -/
theorem numbered_rowsOf (version : Option Version) (dirty : Bool) :
    Database.Numbered (rowsOf version dirty) := by
  unfold rowsOf
  split <;> rfl

/-- A statement that does not name the version table leaves its rows, numbered from 1 on as they
are. -/
theorem execute_keeps_rows {statement : Statement} (numbered : Database.Numbered rows)
    (apart : ¬ Sql.Mentions statement.tables options.table) (before after : Database)
    (has : options.HasRows before rows) (done : before.execute statement = .ok after) :
    options.HasRows after rows := by
  obtain ⟨spelling, found⟩ := has
  exact ⟨spelling, (Database.execute_change done).table?_eq apart found rfl numbered⟩

/-- A statement that does not name the version table leaves it. -/
theorem execute_keeps_table {statement : Statement}
    (apart : ¬ Sql.Mentions statement.tables options.table) (before after : Database)
    (has : options.HasTable before) (done : before.execute statement = .ok after) :
    options.HasTable after := by
  obtain ⟨rows, spelling, found⟩ := has
  obtain ⟨other, stays, kept⟩ := (Database.execute_change done).table?_kept apart found
  refine ⟨other.rows, spelling, ?_⟩
  rw [stays, kept.same, kept.noKeys rfl]
  rfl

/-! ## Setting up -/

theorem withColumn_version (name : String) :
    Sql.withColumn { name, columns := [] } ⟨"version", "INTEGER", []⟩ =
      .ok { name, columns := [⟨"version", .integer, false, .null⟩] } := by
  have affinity : Sql.Affinity.ofType "INTEGER" = .integer := by decide +kernel
  simp [Sql.withColumn, Sql.Table.columnIndex?, Sql.ColumnDefinition.column,
    Sql.ColumnDefinition.default?, affinity, Sql.Fault.raiseIf, bind, Except.bind, pure,
    Except.pure]

theorem withColumn_dirty (name : String) :
    Sql.withColumn { name, columns := [⟨"version", .integer, false, .null⟩] }
        ⟨"dirty", "BOOLEAN", []⟩ = .ok (versionTable name []) := by
  have affinity : Sql.Affinity.ofType "BOOLEAN" = .numeric := by decide +kernel
  have fresh : sameName "version" "dirty" = false := by decide +kernel
  simp [Sql.withColumn, Sql.Table.columnIndex?, Sql.ColumnDefinition.column,
    Sql.ColumnDefinition.default?, affinity, fresh, Sql.Fault.raiseIf, bind, Except.bind, pure,
    Except.pure, versionTable, versionColumns]

/-- The definition that a store issues makes an empty version table. -/
theorem tableDefinition_table (options : StoreOptions) :
    options.tableDefinition.table = .ok (versionTable options.table []) := by
  unfold Sql.TableDefinition.table tableDefinition
  simp only [List.foldlM_cons, List.foldlM_nil, withColumn_version, withColumn_dirty, bind,
    Except.bind]
  rfl

/-- The two statements of a set-up. -/
theorem ensureTable_eq (nameable : Sql.Token.canBeName options.table = true) :
    options.ensureTable = Session.mapError .versionTableRefused
      (Session.issue (.createTable true options.tableDefinition) >>= fun _ =>
        Session.issue (.createIndex true true options.indexName options.table ["version"])) := by
  unfold ensureTable
  rw [nameable]
  rfl

theorem nameable_of_ensureTable_ok {start : Connection}
    (done : (options.ensureTable start).result = .ok ()) :
    Sql.Token.canBeName options.table = true := by
  cases nameable : Sql.Token.canBeName options.table with
  | true => rfl
  | false =>
      unfold ensureTable at done
      rw [nameable, Session.mapError_apply] at done
      cases done

/-- A set-up that succeeds has issued its two statements. -/
theorem of_ensureTable_ok {start : Connection}
    (done : (options.ensureTable start).result = .ok ()) :
    ∃ middle, start.execute (.createTable true options.tableDefinition) = .ok middle ∧
      middle.execute (.createIndex true true options.indexName options.table ["version"]) =
        .ok (options.ensureTable start).connection := by
  have nameable := nameable_of_ensureTable_ok done
  rw [ensureTable_eq nameable] at done ⊢
  have issued := Session.of_mapError_ok done
  obtain ⟨_, created, indexed, stop⟩ := Session.of_bind_ok issued
  refine ⟨_, Session.of_issue_ok created, ?_⟩
  rw [Session.mapError_apply, stop]
  exact Session.of_issue_ok indexed

/-- **Setting up makes a version table.** Where there is no table of the name, a successful set-up
adds an empty version table and no other. -/
theorem ensureTable_tables {start : Connection}
    (absent : start.content.table? options.table = none)
    (done : (options.ensureTable start).result = .ok ()) :
    (options.ensureTable start).connection.content.tables =
      start.content.tables ++ [versionTable options.table []] := by
  obtain ⟨middle, created, indexed⟩ := of_ensureTable_ok done
  have made : start.content.createTable true options.tableDefinition = .ok middle.content :=
    Connection.content_of_execute rfl created
  have index := Connection.content_of_execute rfl indexed
  obtain ⟨table, defined, added⟩ :=
    @Database.of_createTable_ok start.content middle.content true options.tableDefinition absent
      made
  cases (tableDefinition_table options).symm.trans defined
  rw [Database.createIndex_tables index, added]

theorem ensureTable_hasRows {start : Connection}
    (absent : start.content.table? options.table = none)
    (done : (options.ensureTable start).result = .ok ()) :
    options.HasRows (options.ensureTable start).connection.content [] := by
  refine ⟨options.table, ?_⟩
  unfold Database.table? at absent ⊢
  rw [ensureTable_tables absent done, List.find?_append, absent, Option.none_or]
  exact List.find?_cons_of_pos (Sql.sameName_self _)

end SchemaMigration.StoreOptions
