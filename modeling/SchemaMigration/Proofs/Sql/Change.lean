import Mathlib.Data.List.Find
import SchemaMigration.Sql.Connection

/-!
# What one statement can change

A statement says by name which tables it is about: `Statement.tables`. `Database.Change named`
relates a content to what a statement that names those tables may leave of it, one constructor for
each kind of effect, and `Database.execute_change` places every successful statement there. What a
statement keeps is then a short case analysis on `Change`:

* `Database.Change.table?_kept`: a table that no name stands for stays as it is, the cells of its
  rows included, but for the numbers of the rows and the names that its references go by;
* `Database.Change.unreferenced`: such a table is still referred to by nothing;
* `Database.Change.wellFormed`: tables keep different names, and each index keeps its table.
-/

namespace SchemaMigration.Sql

/-! ## Names -/

theorem sameName_iff {a b : String} : sameName a b = true ↔ Token.fold a = Token.fold b :=
  beq_iff_eq

@[simp] theorem sameName_self (a : String) : sameName a a = true :=
  sameName_iff.mpr rfl

theorem sameName_comm (a b : String) : sameName a b = sameName b a := by
  rw [Bool.eq_iff_iff, sameName_iff, sameName_iff, eq_comm]

theorem sameName_trans {a b c : String} (left : sameName a b = true)
    (right : sameName b c = true) : sameName a c = true :=
  sameName_iff.mpr ((sameName_iff.mp left).trans (sameName_iff.mp right))

/-- Names that are one are told apart from any third name alike. -/
theorem sameName_congr {a b : String} (same : sameName a b = true) (c : String) :
    sameName a c = sameName b c := by
  rw [Bool.eq_iff_iff, sameName_iff, sameName_iff, sameName_iff.mp same]

/-- The tables to which the clauses of a column refer. -/
def ColumnDefinition.parents (definition : ColumnDefinition) : List String :=
  definition.clauses.filterMap fun
    | .references parent _ => some parent
    | _ => none

/-- The tables to which a table's definition refers. -/
def TableDefinition.parents (definition : TableDefinition) : List String :=
  definition.columns.flatMap ColumnDefinition.parents ++
    definition.clauses.filterMap fun
      | .foreignKey _ parent _ => some parent
      | _ => none

/-- The tables that a change of a table's definition names beside that table. -/
def Alteration.tables : Alteration → List String
  | .addColumn column => column.parents
  | .rename name => [name]
  | .dropColumn .. | .renameColumn .. => []

/-- The tables that a statement names. -/
def Statement.tables : Statement → List String
  | .createTable _ definition => definition.name :: definition.parents
  | .dropTable _ table => [table]
  | .createIndex _ _ _ table _ => [table]
  | .dropIndex .. => []
  | .alterTable table alteration => table :: alteration.tables
  | .insert table .. => [table]
  | .update table .. => [table]
  | .delete table .. => [table]
  | .select _ table _ _ => table.toList
  | .values _ | .begin | .commit | .rollback | .vacuum => []

/-- Whether one of the names stands for a table of the given name. -/
def Mentions (named : List String) (table : String) : Prop :=
  ∃ name ∈ named, sameName name table = true

instance (named : List String) (table : String) : Decidable (Mentions named table) :=
  inferInstanceAs (Decidable (∃ name ∈ named, sameName name table = true))

/-! ## Results of checks and folds -/

section Results

variable {ε α β σ : Type}

/-- A chain that succeeds: its first part does, and what follows it does on the answer. -/
theorem bind_eq_ok {first : Except ε α} {next : α → Except ε β} {b : β} :
    (first >>= next) = .ok b ↔ ∃ a, first = .ok a ∧ next a = .ok b := by
  cases first with
  | error e =>
      constructor
      · intro done
        cases done
      · rintro ⟨_, done, _⟩
        cases done
  | ok a =>
      constructor
      · exact fun done => ⟨a, rfl, done⟩
      · rintro ⟨_, same, done⟩
        cases same
        exact done

/-- What each step of a fold keeps, a successful fold keeps. -/
theorem foldlM_keeps {P : σ → Prop} {step : σ → α → Except ε σ} {items : List α}
    (keeps : ∀ item ∈ items, ∀ before after, P before → step before item = .ok after → P after)
    {start final : σ} (holds : P start) (done : items.foldlM step start = .ok final) : P final := by
  induction items generalizing start with
  | nil => cases done; exact holds
  | cons item rest ih =>
      rw [List.foldlM_cons] at done
      obtain ⟨middle, first, done⟩ := bind_eq_ok.mp done
      refine ih (fun other member => keeps other (List.mem_cons_of_mem _ member)) ?_ done
      exact keeps item List.mem_cons_self start middle holds first

end Results

/-! ## Tables that grow -/

/-- A table goes on under its name and gains no references but to the given tables. -/
def Table.Grows (parents : List String) (before after : Table) : Prop :=
  after.name = before.name ∧
    ∀ key ∈ after.foreignKeys, key ∈ before.foreignKeys ∨ key.parent ∈ parents

theorem Table.Grows.refl {parents : List String} (table : Table) :
    Table.Grows parents table table :=
  ⟨rfl, fun _ member => .inl member⟩

theorem Table.Grows.trans {parents : List String} {a b c : Table}
    (first : Table.Grows parents a b) (second : Table.Grows parents b c) :
    Table.Grows parents a c :=
  ⟨second.1.trans first.1, fun key member =>
    (second.2 key member).elim (first.2 key) .inr⟩

theorem Table.Grows.mono {parents more : List String} {a b : Table}
    (grows : Table.Grows parents a b) (within : ∀ name ∈ parents, name ∈ more) :
    Table.Grows more a b :=
  ⟨grows.1, fun key member => (grows.2 key member).imp_right (within _)⟩

theorem withPrimaryKey_grows {parents : List String} {table after : Table} {names : List String}
    {isRowNumber autoincrement : Bool}
    (done : withPrimaryKey table names isRowNumber autoincrement = .ok after) :
    Table.Grows parents table after := by
  unfold withPrimaryKey at done
  split at done
  · cases done
  · split at done <;> cases done <;> exact .refl table

theorem withColumnClause_grows {definition : ColumnDefinition} {table after : Table}
    {clause : ColumnClause} (member : clause ∈ definition.clauses)
    (done : withColumnClause definition table clause = .ok after) :
    Table.Grows definition.parents table after := by
  obtain ⟨changed, added, done⟩ := bind_eq_ok.mp done
  obtain ⟨_, _, done⟩ := bind_eq_ok.mp done
  cases done
  cases clause with
  | primaryKey descending autoincrement => exact withPrimaryKey_grows added
  | unique | notNull | nullable | default value => cases added; exact .refl table
  | references parent columns =>
      cases added
      refine ⟨rfl, fun key added => ?_⟩
      rcases List.mem_append.mp added with old | new
      · exact .inl old
      · cases List.mem_singleton.mp new
        exact .inr (List.mem_filterMap.mpr ⟨_, member, rfl⟩)

theorem withColumn_grows {definition : ColumnDefinition} {table after : Table}
    (done : withColumn table definition = .ok after) :
    Table.Grows definition.parents table after := by
  obtain ⟨_, _, done⟩ := bind_eq_ok.mp done
  refine foldlM_keeps (P := Table.Grows definition.parents table) ?_ ?_ done
  · intro clause member before after grown step
    exact grown.trans (withColumnClause_grows member step)
  · exact .refl table

theorem withTableClause_grows {definition : TableDefinition} {table after : Table}
    {clause : TableClause} (member : clause ∈ definition.clauses)
    (done : withTableClause definition table clause = .ok after) :
    Table.Grows definition.parents table after := by
  cases clause with
  | primaryKey columns autoincrement =>
      obtain ⟨keyed, first, done⟩ := bind_eq_ok.mp done
      obtain ⟨_, _, done⟩ := bind_eq_ok.mp done
      obtain ⟨_, _, done⟩ := bind_eq_ok.mp done
      cases done
      exact withPrimaryKey_grows first
  | unique columns =>
      obtain ⟨_, _, done⟩ := bind_eq_ok.mp done
      cases done
      exact .refl table
  | foreignKey columns parent parentColumns =>
      obtain ⟨_, _, done⟩ := bind_eq_ok.mp done
      obtain ⟨_, _, done⟩ := bind_eq_ok.mp done
      cases done
      refine ⟨rfl, fun key added => ?_⟩
      rcases List.mem_append.mp added with old | new
      · exact .inl old
      · cases List.mem_singleton.mp new
        exact .inr (List.mem_append_right _ (List.mem_filterMap.mpr ⟨_, member, rfl⟩))

/-- A table that is defined has the name of its definition and refers where the definition says. -/
theorem TableDefinition.table_grows {definition : TableDefinition} {table : Table}
    (done : definition.table = .ok table) :
    Table.Grows definition.parents { name := definition.name, columns := [] } table := by
  obtain ⟨columned, first, second⟩ := bind_eq_ok.mp done
  have grown :
      Table.Grows definition.parents { name := definition.name, columns := [] } columned := by
    refine foldlM_keeps (P := Table.Grows definition.parents _) ?_ (.refl _) first
    intro column member before after grown step
    refine grown.trans ((withColumn_grows step).mono fun name isParent => ?_)
    exact List.mem_append_left _ (List.mem_flatMap.mpr ⟨column, member, isParent⟩)
  refine foldlM_keeps (P := Table.Grows definition.parents _) ?_ grown second
  intro clause member before after grown step
  exact grown.trans (withTableClause_grows member step)

/-! ## Effects -/

namespace Database

theorem mem_of_table? {db : Database} {name : String} {table : Table}
    (found : db.table? name = some table) :
    table ∈ db.tables ∧ sameName table.name name = true :=
  ⟨List.mem_of_find?_eq_some found,
    List.find?_some (p := fun table : Table => sameName table.name name) found⟩

theorem changeable_eq_ok {db : Database} {refusal : String → Fault} {name : String} {table : Table}
    (done : db.changeable refusal name = .ok table) : db.table? name = some table := by
  unfold changeable at done
  split at done
  · rename_i found
    cases done
    exact found
  · split at done <;> cases done

theorem indexable_eq_ok {db : Database} {name : String} {table : Table}
    (done : db.indexable name = .ok table) : db.table? name = some table := by
  unfold indexable at done
  split at done
  · rename_i found
    cases done
    exact found
  · split at done <;> cases done

theorem keepReferences_eq_ok {before after kept : Database}
    (done : keepReferences before after = .ok kept) : kept = after := by
  unfold keepReferences at done
  split at done
  · cases done
  · cases done
    rfl

/-- What a statement that names the given tables may make of a content. -/
inductive Change (named : List String) (db : Database) : Database → Prop
  | nothing : Change named db db
  | tableAdded {table : Table} (fresh : db.table? table.name = none)
      (isNamed : table.name ∈ named)
      (parents : ∀ key ∈ table.foreignKeys, key.parent ∈ named) :
      Change named db { db with tables := db.tables ++ [table] }
  | tableDropped {table : Table} (isNamed : Mentions named table.name) :
      Change named db (db.withoutTable table)
  | indexAdded {table : Table} {index : Index} (found : table ∈ db.tables)
      (indexed : index.table = table.name) :
      Change named db { db with indexes := db.indexes ++ [index] }
  | indexesDropped (keep : Index → Bool) :
      Change named db { db with indexes := db.indexes.filter keep }
  | tablePut {old table : Table} (found : old ∈ db.tables) (isNamed : Mentions named old.name)
      (grows : Table.Grows named old table) : Change named db (db.put table)
  | tableRenamed {table : Table} {name : String} {after : Database}
      (isNamed : Mentions named table.name) (newNamed : name ∈ named)
      (renamed : db.renameTable table name = .ok after) : Change named db after
  | columnRenamed {table : Table} {column spelling name : String} {after : Database}
      (isNamed : Mentions named table.name)
      (renamed : db.renameColumn table column spelling name = .ok after) : Change named db after
  | vacuumed : Change named db db.vacuumed

/-- Only the rows of a table that is named, and what it keeps of their numbers, may be others. -/
theorem Change.rowsPut {named : List String} {db : Database} {name : String} {table : Table}
    {rows : List Row} {sequence : Option Int} (found : db.table? name = some table)
    (isNamed : name ∈ named) : Change named db (db.put { table with rows, sequence }) :=
  have ⟨member, same⟩ := mem_of_table? found
  .tablePut member ⟨name, isNamed, sameName_comm _ _ ▸ same⟩ ⟨rfl, fun _ member => .inl member⟩

section Statements

variable {db after : Database}

/-- Where there is no table of the name, a creation adds the table of its definition. -/
theorem of_createTable_ok {ifNotExists : Bool} {definition : TableDefinition}
    (absent : db.table? definition.name = none)
    (made : db.createTable ifNotExists definition = .ok after) :
    ∃ table, definition.table = .ok table ∧ after = { db with tables := db.tables ++ [table] } := by
  obtain ⟨_, _, made⟩ := bind_eq_ok.mp made
  rw [absent] at made
  obtain ⟨_, _, made⟩ := bind_eq_ok.mp made
  obtain ⟨table, defined, made⟩ := bind_eq_ok.mp made
  cases made
  exact ⟨table, defined, rfl⟩

/-- Without `IF NOT EXISTS` a creation succeeds only where there is no table of the name. -/
theorem absent_of_createTable_ok {definition : TableDefinition}
    (made : db.createTable false definition = .ok after) : db.table? definition.name = none := by
  obtain ⟨_, _, made⟩ := bind_eq_ok.mp made
  split at made
  · obtain ⟨_, refused, _⟩ := bind_eq_ok.mp made
    cases refused
  · rename_i absent
    rw [Option.not_isSome_iff_eq_none] at absent
    exact absent

/-- An index changes no table. -/
theorem createIndex_tables {unique ifNotExists : Bool} {index table : String}
    {columns : List String}
    (made : db.createIndex unique ifNotExists index table columns = .ok after) :
    after.tables = db.tables := by
  obtain ⟨_, _, made⟩ := bind_eq_ok.mp made
  obtain ⟨_, _, made⟩ := bind_eq_ok.mp made
  obtain ⟨_, _, made⟩ := bind_eq_ok.mp made
  split at made
  · obtain ⟨_, _, made⟩ := bind_eq_ok.mp made
    cases made
    rfl
  · obtain ⟨_, _, made⟩ := bind_eq_ok.mp made
    obtain ⟨_, _, made⟩ := bind_eq_ok.mp made
    cases made
    rfl

theorem createTable_change {ifNotExists : Bool} {definition : TableDefinition}
    (done : db.createTable ifNotExists definition = .ok after) :
    Change (definition.name :: definition.parents) db after := by
  obtain ⟨_, _, done⟩ := bind_eq_ok.mp done
  split at done
  · obtain ⟨_, _, done⟩ := bind_eq_ok.mp done
    cases done
    exact .nothing
  · rename_i fresh
    obtain ⟨_, _, done⟩ := bind_eq_ok.mp done
    obtain ⟨table, defined, done⟩ := bind_eq_ok.mp done
    cases done
    have grown := TableDefinition.table_grows defined
    refine .tableAdded ?_ ?_ ?_
    · rw [grown.1]
      simpa using fresh
    · rw [grown.1]
      exact List.mem_cons_self
    · intro key member
      rcases grown.2 key member with old | new
      · cases old
      · exact List.mem_cons_of_mem _ new

theorem dropTable_change {ifExists : Bool} {name : String}
    (done : db.dropTable ifExists name = .ok after) : Change [name] db after := by
  unfold dropTable at done
  split at done
  · cases done
    exact .nothing
  · obtain ⟨table, found, done⟩ := bind_eq_ok.mp done
    obtain ⟨_, _, done⟩ := bind_eq_ok.mp done
    cases done
    have ⟨_, same⟩ := mem_of_table? (changeable_eq_ok found)
    exact .tableDropped ⟨name, List.mem_singleton_self _, sameName_comm _ _ ▸ same⟩

theorem createIndex_change {unique ifNotExists : Bool} {name tableName : String}
    {columns : List String}
    (done : db.createIndex unique ifNotExists name tableName columns = .ok after) :
    Change [tableName] db after := by
  obtain ⟨table, found, done⟩ := bind_eq_ok.mp done
  obtain ⟨_, _, done⟩ := bind_eq_ok.mp done
  obtain ⟨_, _, done⟩ := bind_eq_ok.mp done
  split at done
  · obtain ⟨_, _, done⟩ := bind_eq_ok.mp done
    cases done
    exact .nothing
  · obtain ⟨_, _, done⟩ := bind_eq_ok.mp done
    obtain ⟨_, _, done⟩ := bind_eq_ok.mp done
    cases done
    exact .indexAdded (mem_of_table? (indexable_eq_ok found)).1 rfl

theorem dropIndex_change {ifExists : Bool} {name : String}
    (done : db.dropIndex ifExists name = .ok after) : Change [] db after := by
  unfold dropIndex at done
  split at done
  · cases done
    exact .indexesDropped _
  · split at done
    · cases done
    · split at done
      · cases done
        exact .nothing
      · cases done

theorem alterTable_change {name : String} {alteration : Alteration}
    (done : db.alterTable name alteration = .ok after) :
    Change (name :: alteration.tables) db after := by
  obtain ⟨table, found, done⟩ := bind_eq_ok.mp done
  have ⟨member, same⟩ := mem_of_table? (changeable_eq_ok found)
  have isNamed : Mentions (name :: alteration.tables) table.name :=
    ⟨name, List.mem_cons_self, sameName_comm _ _ ▸ same⟩
  cases alteration with
  | addColumn definition =>
      obtain ⟨_, _, done⟩ := bind_eq_ok.mp done
      obtain ⟨_, _, done⟩ := bind_eq_ok.mp done
      obtain ⟨_, _, done⟩ := bind_eq_ok.mp done
      obtain ⟨_, _, done⟩ := bind_eq_ok.mp done
      obtain ⟨changed, grown, done⟩ := bind_eq_ok.mp done
      obtain ⟨_, _, done⟩ := bind_eq_ok.mp done
      cases done
      have grows := (withColumn_grows grown).mono fun _ => List.mem_cons_of_mem name
      refine .tablePut member isNamed ⟨grows.1, fun key added => grows.2 key ?_⟩
      rcases List.mem_append.mp added with early | late
      · exact (List.mem_filter.mp early).1
      · exact (List.mem_filter.mp late).1
  | dropColumn column spelling =>
      obtain ⟨_, _, done⟩ := bind_eq_ok.mp done
      obtain ⟨_, _, done⟩ := bind_eq_ok.mp done
      obtain ⟨_, _, done⟩ := bind_eq_ok.mp done
      obtain ⟨_, _, done⟩ := bind_eq_ok.mp done
      obtain ⟨_, _, done⟩ := bind_eq_ok.mp done
      obtain ⟨_, _, done⟩ := bind_eq_ok.mp done
      obtain ⟨_, _, done⟩ := bind_eq_ok.mp done
      cases done
      exact .tablePut member isNamed ⟨rfl, fun key kept => .inl (List.mem_filter.mp kept).1⟩
  | rename new =>
      exact .tableRenamed isNamed (List.mem_cons_of_mem _ (List.mem_singleton_self _)) done
  | renameColumn column spelling new => exact .columnRenamed isNamed done

/-- Rows that are inserted change nothing of a table but its rows and what it keeps of their
numbers. -/
theorem insertRows_fold {table changed : Table} {sets : List (List String)} {names : List String}
    {rows : List (List Value)} (done : rows.foldlM (insertRow sets names) table = .ok changed) :
    ∃ rows sequence, changed = { table with rows, sequence } := by
  refine foldlM_keeps (P := fun other => ∃ rows sequence, other = { table with rows, sequence })
    ?_ ⟨table.rows, table.sequence, rfl⟩ done
  intro values _ before after same step
  obtain ⟨rows, sequence, rfl⟩ := same
  obtain ⟨_, _, step⟩ := bind_eq_ok.mp step
  obtain ⟨_, _, step⟩ := bind_eq_ok.mp step
  cases step
  exact ⟨_, _, rfl⟩

theorem insert_change {name : String} {columns : Option (List String)} {rows : List (List Expr)}
    (done : db.insert name columns rows = .ok after) : Change [name] db after := by
  obtain ⟨_, _, done⟩ := bind_eq_ok.mp done
  obtain ⟨table, found, done⟩ := bind_eq_ok.mp done
  obtain ⟨_, _, done⟩ := bind_eq_ok.mp done
  obtain ⟨_, _, done⟩ := bind_eq_ok.mp done
  obtain ⟨_, _, done⟩ := bind_eq_ok.mp done
  obtain ⟨_, _, done⟩ := bind_eq_ok.mp done
  obtain ⟨_, _, done⟩ := bind_eq_ok.mp done
  obtain ⟨changed, inserted, done⟩ := bind_eq_ok.mp done
  obtain ⟨rows, sequence, rfl⟩ := insertRows_fold inserted
  cases keepReferences_eq_ok done
  exact .rowsPut (changeable_eq_ok found) (List.mem_singleton_self _)

theorem update_change {name : String} {assignments : List (String × Expr)}
    {condition : Option Expr} (done : db.update name assignments condition = .ok after) :
    Change [name] db after := by
  obtain ⟨table, found, done⟩ := bind_eq_ok.mp done
  obtain ⟨_, _, done⟩ := bind_eq_ok.mp done
  obtain ⟨_, _, done⟩ := bind_eq_ok.mp done
  obtain ⟨_, _, done⟩ := bind_eq_ok.mp done
  obtain ⟨_, _, done⟩ := bind_eq_ok.mp done
  cases keepReferences_eq_ok done
  exact .rowsPut (changeable_eq_ok found) (List.mem_singleton_self _)

theorem delete_change {name : String} {condition : Option Expr}
    (done : db.delete name condition = .ok after) : Change [name] db after := by
  obtain ⟨table, found, done⟩ := bind_eq_ok.mp done
  obtain ⟨_, _, done⟩ := bind_eq_ok.mp done
  obtain ⟨_, _, done⟩ := bind_eq_ok.mp done
  obtain ⟨_, _, done⟩ := bind_eq_ok.mp done
  cases keepReferences_eq_ok done
  exact .rowsPut (changeable_eq_ok found) (List.mem_singleton_self _)

/-- A selection changes nothing. -/
theorem of_select_ok {items : List (Option Expr)} {table : Option String}
    {condition limit : Option Expr} (done : db.select items table condition limit = .ok after) :
    after = db := by
  obtain ⟨_, _, done⟩ := bind_eq_ok.mp done
  obtain ⟨_, _, done⟩ := bind_eq_ok.mp done
  obtain ⟨_, _, done⟩ := bind_eq_ok.mp done
  obtain ⟨_, _, done⟩ := bind_eq_ok.mp done
  obtain ⟨_, _, done⟩ := bind_eq_ok.mp done
  obtain ⟨_, _, done⟩ := bind_eq_ok.mp done
  cases done
  rfl

/-- Rows of values change nothing. -/
theorem of_values_ok {rows : List (List Expr)} (done : db.values rows = .ok after) :
    after = db := by
  obtain ⟨_, _, done⟩ := bind_eq_ok.mp done
  obtain ⟨_, _, done⟩ := bind_eq_ok.mp done
  cases done
  rfl

/-- **What a statement does to a content.** Whatever statement succeeds, it has one of the effects
of `Change`, on tables that it names. -/
theorem execute_change {statement : Statement} (done : db.execute statement = .ok after) :
    Change statement.tables db after := by
  cases statement with
  | createTable ifNotExists definition => exact createTable_change done
  | dropTable ifExists table => exact dropTable_change done
  | createIndex unique ifNotExists index table columns => exact createIndex_change done
  | dropIndex ifExists index => exact dropIndex_change done
  | alterTable table alteration => exact alterTable_change done
  | insert table columns rows => exact insert_change done
  | update table assignments condition => exact update_change done
  | delete table condition => exact delete_change done
  | select items table condition limit => cases of_select_ok done; exact .nothing
  | values rows => cases of_values_ok done; exact .nothing
  | begin | commit | rollback => cases done; exact .nothing
  | vacuum => cases done; exact .vacuumed

end Statements

/-! ## What every change keeps -/

/-- No reference of the content goes to the table of a name. -/
def Unreferenced (db : Database) (name : String) : Prop :=
  ∀ table ∈ db.tables, ∀ key ∈ table.foreignKeys, sameName key.parent name = false

instance (db : Database) (name : String) : Decidable (db.Unreferenced name) :=
  inferInstanceAs (Decidable (∀ table ∈ db.tables, ∀ key ∈ table.foreignKeys,
    sameName key.parent name = false))

/-- Tables are told apart by their names, and each index is on a table. -/
structure WellFormed (db : Database) : Prop where
  distinct : db.tables.Pairwise fun a b => sameName a.name b.name = false
  indexed : ∀ index ∈ db.indexes, ∃ table ∈ db.tables, sameName table.name index.table = true

/-- There is one table of a name. -/
theorem WellFormed.eq_of_sameName {db : Database} {a b : Table} (wellFormed : db.WellFormed)
    (left : a ∈ db.tables) (right : b ∈ db.tables) (same : sameName a.name b.name = true) :
    a = b := by
  let One (a b : Table) : Prop := sameName a.name b.name = true → a = b
  have forwards : db.tables.Pairwise One :=
    wellFormed.distinct.imp fun apart same => by rw [apart] at same; cases same
  have backwards : db.tables.Pairwise (flip One) :=
    wellFormed.distinct.imp fun apart same => by rw [sameName_comm, apart] at same; cases same
  exact List.Pairwise.forall_of_forall_of_flip (fun _ _ _ => rfl) forwards backwards
    left right same

/-- A table of the content that is put in its own place changes nothing. -/
theorem WellFormed.put_self {db : Database} {table : Table} (wellFormed : db.WellFormed)
    (present : table ∈ db.tables) : db.put table = db := by
  have kept : ∀ other ∈ db.tables,
      (if sameName other.name table.name then table else other) = other := by
    intro other otherPresent
    split
    · rename_i same
      exact (wellFormed.eq_of_sameName otherPresent present same).symm
    · rfl
  have tables : db.tables.map _ = db.tables := (List.map_congr_left kept).trans db.tables.map_id
  exact congrArg (Database.mk · db.indexes) tables

theorem not_sameName_of_not_mentions {named : List String} {name other : String}
    (apart : ¬ Mentions named name) (isNamed : Mentions named other) :
    sameName other name = false := by
  obtain ⟨spelling, member, same⟩ := isNamed
  rw [← sameName_congr same, Bool.eq_false_iff]
  exact fun clash => apart ⟨spelling, member, clash⟩

theorem table?_eq_none {db : Database} {name : String} :
    db.table? name = none ↔ ∀ table ∈ db.tables, sameName table.name name = false := by
  simp only [table?, List.find?_eq_none, Bool.not_eq_true]

/-- A table is found where it was put. -/
theorem table?_put {db : Database} {name : String} {old table : Table}
    (found : db.table? name = some old) (same : sameName table.name name = true) :
    (db.put table).table? name = some table := by
  have isOld : sameName old.name table.name = true := by
    rw [sameName_congr (mem_of_table? found).2, sameName_comm]
    exact same
  unfold table? put at *
  rw [List.find?_map]
  have names : db.tables.find? ((fun other => sameName other.name name) ∘ fun other =>
      if sameName other.name table.name then table else other) = some old := by
    rw [← found]
    refine List.find?_congr fun other _ => ?_
    simp only [Function.comp_apply]
    split
    · rename_i isOther
      rw [same, sameName_congr isOther, same]
    · rfl
  rw [names, Option.map_some, if_pos isOld]

/-- Of two tables of one name that are put, the later one counts. -/
theorem put_put {db : Database} {first second : Table}
    (same : sameName first.name second.name = true) :
    (db.put first).put second = db.put second := by
  unfold put
  simp only [List.map_map, Database.mk.injEq, and_true]
  refine List.map_congr_left fun other _ => ?_
  simp only [Function.comp_apply]
  split
  · rename_i isFirst
    rw [if_pos (sameName_trans isFirst same)]
  · rfl

/-- A change of each table that leaves names alone leaves a table in view, changed. -/
theorem find?_map_of_names {tables : List Table} {name : String} {table : Table}
    {f : Table → Table} (found : tables.find? (fun other => sameName other.name name) = some table)
    (names : ∀ other ∈ tables, sameName (f other).name name = sameName other.name name) :
    (tables.map f).find? (fun other => sameName other.name name) = some (f table) := by
  rw [List.find?_map]
  have same : tables.find? ((fun other => sameName other.name name) ∘ f) =
      tables.find? fun other => sameName other.name name :=
    List.find?_congr names
  rw [same, found, Option.map_some]

theorem raiseIf_eq_ok {condition : Bool} {fault : Fault} {answer : Unit} :
    Fault.raiseIf condition fault = .ok answer ↔ condition = false := by
  cases condition <;> simp [Fault.raiseIf]

/-- A table is renamed to a free name, everywhere. -/
theorem renameTable_eq_ok {db after : Database} {table : Table} {name : String}
    (done : db.renameTable table name = .ok after) :
    db.table? name = none ∧
      after.tables = db.tables.map (·.afterTableRenamed table.name name) ∧
      after.indexes = db.indexes.map fun index =>
        { index with table := renamed table.name name index.table } := by
  obtain ⟨_, free, done⟩ := bind_eq_ok.mp done
  obtain ⟨_, _, done⟩ := bind_eq_ok.mp done
  cases done
  refine ⟨?_, rfl, rfl⟩
  cases lookup : db.table? name with
  | none => rfl
  | some other => simp [lookup, raiseIf_eq_ok] at free

/-- A column is renamed everywhere; tables keep their names and indexes their tables. -/
theorem renameColumn_eq_ok {db after : Database} {table : Table} {column spelling name : String}
    (done : db.renameColumn table column spelling name = .ok after) :
    after.tables = db.tables.map (·.afterColumnRenamed table.name column name) ∧
      after.indexes.map (·.table) = db.indexes.map (·.table) := by
  obtain ⟨_, _, done⟩ := bind_eq_ok.mp done
  obtain ⟨_, _, done⟩ := bind_eq_ok.mp done
  cases done
  refine ⟨rfl, ?_⟩
  rw [List.map_map]
  refine List.map_congr_left fun index _ => ?_
  simp only [Function.comp_apply]
  split <;> rfl

@[simp] theorem name_afterColumnRenamed (owner column new : String) (table : Table) :
    (table.afterColumnRenamed owner column new).name = table.name := by
  unfold Table.afterColumnRenamed
  split <;> rfl

@[simp] theorem foreignKeys_afterColumnRenamed (owner column new : String) (table : Table) :
    (table.afterColumnRenamed owner column new).foreignKeys =
      table.foreignKeys.map (·.afterColumnRenamed owner column new table.name) := by
  unfold Table.afterColumnRenamed
  split <;> rfl

/-- Rows that are numbered from 1 on. -/
def Numbered (rows : List Row) : Prop :=
  renumbered rows = rows

instance (rows : List Row) : Decidable (Numbered rows) :=
  inferInstanceAs (Decidable (renumbered rows = rows))

/-- Numbers are all that is new of rows that are numbered anew. -/
theorem cells_renumbered (rows : List Row) :
    (renumbered rows).map (·.cells) = rows.map (·.cells) := by
  have first : rows.zipIdx.map (·.1) = rows := List.zipIdx_map_fst 0 rows
  unfold renumbered
  rw [List.map_map]
  conv_rhs => rw [← first, List.map_map]
  rfl

/-- A table is as it was, but for the names that its references go by and the numbers of its
rows. -/
structure Table.Kept (before after : Table) : Prop where
  same : after = { before with foreignKeys := after.foreignKeys, rows := after.rows }
  rows : after.rows = before.rows ∨ after.rows = renumbered before.rows
  noKeys : before.foreignKeys = [] → after.foreignKeys = []

theorem Table.Kept.refl (table : Table) : Table.Kept table table :=
  ⟨rfl, .inl rfl, id⟩

theorem Table.Kept.cells {before after : Table} (kept : Table.Kept before after) :
    after.rows.map (·.cells) = before.rows.map (·.cells) := by
  rcases kept.rows with same | anew
  · rw [same]
  · rw [anew, cells_renumbered]

/-- A table that refers to nothing, and whose rows are numbered from 1 on, is as it was. -/
theorem Table.Kept.eq {before after : Table} (kept : Table.Kept before after)
    (noKeys : before.foreignKeys = []) (numbered : Numbered before.rows) : after = before := by
  have rows : after.rows = before.rows := kept.rows.elim id fun anew => anew.trans numbered
  rw [kept.same, kept.noKeys noKeys, rows, ← noKeys]

theorem kept_afterTableRenamed {old new : String} {table : Table}
    (apart : sameName table.name old = false) :
    Table.Kept table (table.afterTableRenamed old new) where
  same := by simp only [Table.afterTableRenamed, renamed, apart, Bool.false_eq_true, if_false]
  rows := .inl rfl
  noKeys none := List.map_eq_nil_iff.mpr none

theorem kept_afterColumnRenamed {owner column new : String} {table : Table}
    (apart : sameName table.name owner = false) :
    Table.Kept table (table.afterColumnRenamed owner column new) where
  same := by simp only [Table.afterColumnRenamed, apart, Bool.false_eq_true, if_false]
  rows := .inl (by simp only [Table.afterColumnRenamed, apart, Bool.false_eq_true, if_false])
  noKeys none := by
    rw [foreignKeys_afterColumnRenamed, none, List.map_nil]

@[simp] theorem name_packed (db : Database) (table : Table) :
    (db.packed table).name = table.name :=
  rfl

@[simp] theorem foreignKeys_packed (db : Database) (table : Table) :
    (db.packed table).foreignKeys = table.foreignKeys :=
  rfl

theorem kept_packed (db : Database) (table : Table) : Table.Kept table (db.packed table) where
  same := rfl
  rows := by
    unfold packed
    split
    · exact .inr rfl
    · exact .inl rfl
  noKeys := id

section Lookup

variable {db after : Database} {name : String} {table other : Table}

theorem table?_withoutTable_of_apart (apart : sameName other.name name = false) :
    (db.withoutTable other).table? name = db.table? name := by
  unfold table? withoutTable
  rw [List.find?_filter]
  refine List.find?_congr fun candidate _ => ?_
  cases same : sameName candidate.name name with
  | false => simp
  | true => simp [sameName_congr same, sameName_comm name, apart]

theorem table?_put_of_apart (apart : sameName name table.name = false) :
    (db.put table).table? name = db.table? name := by
  unfold table? put
  rw [List.find?_map]
  have names : db.tables.find? ((fun candidate => sameName candidate.name name) ∘ fun candidate =>
      if sameName candidate.name table.name then table else candidate) =
        db.tables.find? fun candidate => sameName candidate.name name := by
    refine List.find?_congr fun candidate _ => ?_
    simp only [Function.comp_apply]
    split
    · rename_i same
      rw [sameName_congr same, sameName_comm, apart]
    · rfl
  rw [names]
  cases found : db.tables.find? fun candidate => sameName candidate.name name with
  | none => rfl
  | some candidate =>
      have same : sameName candidate.name name = true := (mem_of_table? found).2
      rw [Option.map_some, if_neg]
      rw [sameName_congr same, apart]
      exact Bool.false_ne_true

theorem table?_renameTable {new : String} (found : db.table? name = some table)
    (moved : db.renameTable other new = .ok after)
    (apart : sameName other.name name = false) (newApart : sameName new name = false) :
    after.table? name = some (table.afterTableRenamed other.name new) := by
  unfold table?
  rw [(renameTable_eq_ok moved).2.1]
  refine find?_map_of_names found fun candidate _ => ?_
  simp only [Table.afterTableRenamed, renamed]
  split
  · rename_i same
    rw [newApart, sameName_congr same, apart]
  · rfl

theorem table?_renameColumn {column spelling new : String} (found : db.table? name = some table)
    (moved : db.renameColumn other column spelling new = .ok after) :
    after.table? name = some (table.afterColumnRenamed other.name column new) := by
  unfold table?
  rw [(renameColumn_eq_ok moved).1]
  refine find?_map_of_names found fun candidate _ => ?_
  rw [name_afterColumnRenamed]

theorem table?_vacuumed (found : db.table? name = some table) :
    db.vacuumed.table? name = some (db.packed table) := by
  unfold table? at found ⊢
  exact find?_map_of_names found fun other _ => by rw [name_packed]

/-- A table that no name stands for stays, but for the names that its references go by and the
numbers of its rows. -/
theorem Change.table?_kept {named : List String} (change : Change named db after)
    (apart : ¬ Mentions named name) (found : db.table? name = some table) :
    ∃ other, after.table? name = some other ∧ Table.Kept table other := by
  have tableApart : ∀ {other : Table}, Mentions named other.name →
      sameName table.name other.name = false := by
    intro other isNamed
    rw [sameName_congr (mem_of_table? found).2, sameName_comm]
    exact not_sameName_of_not_mentions apart isNamed
  cases change with
  | nothing => exact ⟨table, found, .refl table⟩
  | tableAdded fresh isNamed parents =>
      refine ⟨table, ?_, .refl table⟩
      unfold table? at found ⊢
      rw [List.find?_append, found, Option.some_or]
  | tableDropped isNamed =>
      refine ⟨table, ?_, .refl table⟩
      rw [table?_withoutTable_of_apart (not_sameName_of_not_mentions apart isNamed)]
      exact found
  | indexAdded present indexed => exact ⟨table, found, .refl table⟩
  | indexesDropped keep => exact ⟨table, found, .refl table⟩
  | @tablePut old new present isNamed grows =>
      have newApart : sameName name new.name = false := by
        rw [grows.1, sameName_comm]
        exact not_sameName_of_not_mentions apart isNamed
      refine ⟨table, ?_, .refl table⟩
      rw [table?_put_of_apart newApart]
      exact found
  | @tableRenamed other new _ isNamed newNamed moved =>
      have newApart := not_sameName_of_not_mentions apart ⟨new, newNamed, sameName_self new⟩
      exact ⟨_,
        table?_renameTable found moved (not_sameName_of_not_mentions apart isNamed) newApart,
        kept_afterTableRenamed (tableApart isNamed)⟩
  | columnRenamed isNamed moved =>
      exact ⟨_, table?_renameColumn found moved, kept_afterColumnRenamed (tableApart isNamed)⟩
  | vacuumed => exact ⟨_, table?_vacuumed found, kept_packed db table⟩

/-- A table that no name stands for, that refers to nothing and whose rows are numbered from 1 on,
stays as it is. -/
theorem Change.table?_eq {named : List String} (change : Change named db after)
    (apart : ¬ Mentions named name) (found : db.table? name = some table)
    (noKeys : table.foreignKeys = []) (numbered : Numbered table.rows) :
    after.table? name = some table := by
  obtain ⟨other, stays, kept⟩ := change.table?_kept apart found
  rw [stays, kept.eq noKeys numbered]

end Lookup

/-- A table that no name stands for gets no reference. -/
theorem Change.unreferenced {named : List String} {db after : Database} {name : String}
    (change : Change named db after) (apart : ¬ Mentions named name)
    (unreferenced : db.Unreferenced name) : after.Unreferenced name := by
  have parentApart : ∀ {parent : String}, parent ∈ named → sameName parent name = false :=
    fun isNamed => not_sameName_of_not_mentions apart ⟨_, isNamed, sameName_self _⟩
  cases change with
  | nothing => exact unreferenced
  | tableAdded fresh isNamed parents =>
      intro table member key keyMember
      rcases List.mem_append.mp member with old | new
      · exact unreferenced table old key keyMember
      · cases List.mem_singleton.mp new
        exact parentApart (parents key keyMember)
  | tableDropped isNamed =>
      exact fun table member => unreferenced table (List.mem_filter.mp member).1
  | indexAdded present indexed => exact unreferenced
  | indexesDropped keep => exact unreferenced
  | @tablePut old new present isNamed grows =>
      intro table member key keyMember
      obtain ⟨other, otherMember, rfl⟩ := List.mem_map.mp member
      split at keyMember
      · rcases grows.2 key keyMember with kept | added
        · exact unreferenced old present key kept
        · exact parentApart added
      · exact unreferenced other otherMember key keyMember
  | @tableRenamed other new _ isNamed newNamed moved =>
      intro table member key keyMember
      rw [(renameTable_eq_ok moved).2.1] at member
      obtain ⟨candidate, candidateMember, rfl⟩ := List.mem_map.mp member
      obtain ⟨before, beforeMember, rfl⟩ := List.mem_map.mp keyMember
      simp only [renamed]
      split
      · exact parentApart newNamed
      · exact unreferenced candidate candidateMember before beforeMember
  | @columnRenamed other column spelling new _ isNamed moved =>
      intro table member key keyMember
      rw [(renameColumn_eq_ok moved).1] at member
      obtain ⟨candidate, candidateMember, rfl⟩ := List.mem_map.mp member
      rw [foreignKeys_afterColumnRenamed] at keyMember
      obtain ⟨before, beforeMember, rfl⟩ := List.mem_map.mp keyMember
      exact unreferenced candidate candidateMember before beforeMember
  | vacuumed =>
      intro table member key keyMember
      obtain ⟨candidate, candidateMember, rfl⟩ := List.mem_map.mp member
      rw [foreignKeys_packed] at keyMember
      exact unreferenced candidate candidateMember key keyMember

/-- Tables that keep their names, and indexes that stay on their tables, stay well formed. -/
theorem WellFormed.map {db after : Database} (wellFormed : db.WellFormed) {f : Table → Table}
    (names : ∀ table, sameName (f table).name table.name = true)
    (tables : after.tables = db.tables.map f)
    (indexes : ∀ index ∈ after.indexes, ∃ before ∈ db.indexes, before.table = index.table) :
    after.WellFormed where
  distinct := by
    rw [tables, List.pairwise_map]
    refine wellFormed.distinct.imp fun {a b} apart => ?_
    rw [sameName_congr (names a), sameName_comm, sameName_congr (names b), sameName_comm]
    exact apart
  indexed := by
    intro index member
    obtain ⟨before, beforeMember, same⟩ := indexes index member
    obtain ⟨table, found, named⟩ := wellFormed.indexed before beforeMember
    refine ⟨f table, tables ▸ List.mem_map_of_mem found, ?_⟩
    rw [sameName_congr (names table), ← same]
    exact named

section WellFormed

variable {db after : Database} {table : Table}

theorem WellFormed.add_table (wellFormed : db.WellFormed) (fresh : db.table? table.name = none) :
    ({ db with tables := db.tables ++ [table] } : Database).WellFormed := by
  refine ⟨List.pairwise_append.mpr ⟨wellFormed.distinct, List.pairwise_singleton _ _, ?_⟩, ?_⟩
  · intro old member new newMember
    cases List.mem_singleton.mp newMember
    exact table?_eq_none.mp fresh old member
  · intro index member
    obtain ⟨owner, found, same⟩ := wellFormed.indexed index member
    exact ⟨owner, List.mem_append_left _ found, same⟩

theorem WellFormed.withoutTable (wellFormed : db.WellFormed) (table : Table) :
    (db.withoutTable table).WellFormed := by
  refine ⟨wellFormed.distinct.filter _, fun index member => ?_⟩
  obtain ⟨kept, apart⟩ := List.mem_filter.mp member
  obtain ⟨owner, found, same⟩ := wellFormed.indexed index kept
  refine ⟨owner, List.mem_filter.mpr ⟨found, ?_⟩, same⟩
  rw [sameName_congr same]
  exact apart

theorem WellFormed.add_index (wellFormed : db.WellFormed) {index : Index}
    (found : table ∈ db.tables) (indexed : index.table = table.name) :
    ({ db with indexes := db.indexes ++ [index] } : Database).WellFormed := by
  refine ⟨wellFormed.distinct, fun other member => ?_⟩
  rcases List.mem_append.mp member with old | new
  · exact wellFormed.indexed other old
  · cases List.mem_singleton.mp new
    exact ⟨table, found, indexed ▸ sameName_self _⟩

theorem WellFormed.put (wellFormed : db.WellFormed) (table : Table) :
    (db.put table).WellFormed := by
  refine wellFormed.map (f := fun other => if sameName other.name table.name then table else other)
    ?_ rfl fun index member => ⟨index, member, rfl⟩
  intro other
  split
  · rename_i same
    rw [sameName_comm]
    exact same
  · exact sameName_self _

/-- The new name is free, so that the renamed table stays apart from the others. -/
theorem WellFormed.renameTable (wellFormed : db.WellFormed) {new : String}
    (moved : db.renameTable table new = .ok after) : after.WellFormed := by
  obtain ⟨free, tables, indexes⟩ := renameTable_eq_ok moved
  have newApart := table?_eq_none.mp free
  constructor
  · rw [tables, List.pairwise_map]
    refine wellFormed.distinct.imp_of_mem fun {a b} aMember bMember apart => ?_
    simp only [Table.afterTableRenamed, renamed]
    split <;> split
    · rename_i aSame bSame
      rw [sameName_congr aSame, sameName_comm, bSame] at apart
      cases apart
    · rw [sameName_comm]
      exact newApart b bMember
    · exact newApart a aMember
    · exact apart
  · intro index member
    rw [indexes] at member
    obtain ⟨before, beforeMember, rfl⟩ := List.mem_map.mp member
    obtain ⟨owner, found, same⟩ := wellFormed.indexed before beforeMember
    refine ⟨owner.afterTableRenamed table.name new, ?_, ?_⟩
    · rw [tables]
      exact List.mem_map_of_mem found
    · simp only [Table.afterTableRenamed, renamed, sameName_congr same]
      split
      · exact sameName_self _
      · exact same

theorem WellFormed.renameColumn (wellFormed : db.WellFormed) {column spelling new : String}
    (moved : db.renameColumn table column spelling new = .ok after) : after.WellFormed := by
  obtain ⟨tables, indexes⟩ := renameColumn_eq_ok moved
  refine wellFormed.map (f := (·.afterColumnRenamed table.name column new)) ?_ tables ?_
  · intro other
    rw [name_afterColumnRenamed]
    exact sameName_self _
  · intro index member
    have kept := List.mem_map_of_mem (f := (·.table)) member
    rw [indexes] at kept
    exact List.mem_map.mp kept

theorem WellFormed.vacuumed (wellFormed : db.WellFormed) : db.vacuumed.WellFormed := by
  refine wellFormed.map (f := db.packed) (fun other => ?_) rfl
    fun index member => ⟨index, member, rfl⟩
  rw [name_packed]
  exact sameName_self _

/-- Whatever a statement makes of a well-formed content is well formed. -/
theorem Change.wellFormed {named : List String} (change : Change named db after)
    (wellFormed : db.WellFormed) : after.WellFormed := by
  cases change with
  | nothing => exact wellFormed
  | tableAdded fresh isNamed parents => exact wellFormed.add_table fresh
  | @tableDropped table isNamed => exact wellFormed.withoutTable table
  | indexAdded found indexed => exact wellFormed.add_index found indexed
  | indexesDropped keep =>
      exact ⟨wellFormed.distinct, fun index member =>
        wellFormed.indexed index (List.mem_filter.mp member).1⟩
  | @tablePut old new found isNamed grows => exact wellFormed.put new
  | tableRenamed isNamed newNamed moved => exact wellFormed.renameTable moved
  | columnRenamed isNamed moved => exact wellFormed.renameColumn moved
  | vacuumed => exact wellFormed.vacuumed

end WellFormed

end Database

end SchemaMigration.Sql
