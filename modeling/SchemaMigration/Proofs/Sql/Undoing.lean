import SchemaMigration.Proofs.Sql.Change

/-!
# Statements that undo statements

What a statement created can be dropped again, and nothing else has changed.

* `Statement.Undoes`: a statement gives back what another one was run on;
* `Statement.dropTable_undoes`: dropping a table undoes creating it;
* `Statement.dropIndex_undoes`: dropping an index undoes creating it.
-/

namespace SchemaMigration.Sql

/-! ## Definitions make no rows -/

section Rows

variable {table after : Table}

theorem withPrimaryKey_rows {names : List String} {isRowNumber autoincrement : Bool}
    (done : withPrimaryKey table names isRowNumber autoincrement = .ok after) :
    after.rows = table.rows := by
  unfold withPrimaryKey at done
  split at done
  · cases done
  · split at done
    · cases done
      rfl
    · cases done
      rfl

theorem withColumnClause_rows {definition : ColumnDefinition} {clause : ColumnClause}
    (done : withColumnClause definition table clause = .ok after) : after.rows = table.rows := by
  obtain ⟨changed, added, done⟩ := bind_eq_ok.mp done
  obtain ⟨_, _, done⟩ := bind_eq_ok.mp done
  cases done
  cases clause with
  | primaryKey descending autoincrement => exact withPrimaryKey_rows added
  | unique | notNull | nullable | default value | references parent columns =>
      cases added
      rfl

theorem withColumn_rows {definition : ColumnDefinition}
    (done : withColumn table definition = .ok after) : after.rows = table.rows := by
  obtain ⟨_, _, done⟩ := bind_eq_ok.mp done
  refine foldlM_keeps (P := fun other => other.rows = table.rows) ?_ rfl done
  intro clause _ before after same step
  exact (withColumnClause_rows step).trans same

theorem withTableClause_rows {definition : TableDefinition} {clause : TableClause}
    (done : withTableClause definition table clause = .ok after) : after.rows = table.rows := by
  cases clause with
  | primaryKey columns autoincrement =>
      obtain ⟨keyed, first, done⟩ := bind_eq_ok.mp done
      obtain ⟨_, _, done⟩ := bind_eq_ok.mp done
      obtain ⟨_, _, done⟩ := bind_eq_ok.mp done
      cases done
      exact withPrimaryKey_rows first
  | unique columns =>
      obtain ⟨_, _, done⟩ := bind_eq_ok.mp done
      cases done
      rfl
  | foreignKey columns parent parentColumns =>
      obtain ⟨_, _, done⟩ := bind_eq_ok.mp done
      obtain ⟨_, _, done⟩ := bind_eq_ok.mp done
      cases done
      rfl

/-- A table that is defined is empty. -/
theorem TableDefinition.table_rows {definition : TableDefinition}
    (done : definition.table = .ok table) : table.rows = [] := by
  obtain ⟨columned, first, second⟩ := bind_eq_ok.mp done
  have empty : columned.rows = [] := by
    refine foldlM_keeps (P := fun other => other.rows = []) ?_ rfl first
    intro column _ before after same step
    exact (withColumn_rows step).trans same
  refine foldlM_keeps (P := fun other => other.rows = []) ?_ empty second
  intro clause _ before after same step
  exact (withTableClause_rows step).trans same

end Rows

namespace Database

variable {db after : Database}

/-! ## What a creation adds -/

theorem of_createIndex_ok {unique : Bool} {index table : String} {columns : List String}
    (made : db.createIndex unique false index table columns = .ok after) :
    db.index? index = none ∧ ∃ owner,
      after = { db with indexes := db.indexes ++ [⟨index, owner, columns, unique⟩] } := by
  obtain ⟨_, _, made⟩ := bind_eq_ok.mp made
  obtain ⟨_, _, made⟩ := bind_eq_ok.mp made
  obtain ⟨_, _, made⟩ := bind_eq_ok.mp made
  split at made
  · obtain ⟨_, refused, _⟩ := bind_eq_ok.mp made
    cases refused
  · rename_i absent
    obtain ⟨_, _, made⟩ := bind_eq_ok.mp made
    obtain ⟨_, _, made⟩ := bind_eq_ok.mp made
    cases made
    refine ⟨?_, _, rfl⟩
    unfold hasIndex at absent
    cases found : db.index? index with
    | none => rfl
    | some other =>
        rw [found] at absent
        exact absurd rfl absent

/-! ## What a drop takes away -/

theorem filter_apart {α : Type} {same : α → Bool} {items : List α}
    (apart : ∀ item ∈ items, same item = false) : items.filter (!same ·) = items := by
  refine List.filter_eq_self.mpr fun item member => ?_
  rw [apart item member]
  rfl

/-- A table that was just added, and its indexes, of which there are none, are all that is taken
away with it. -/
theorem withoutTable_append {table : Table} (wellFormed : db.WellFormed)
    (absent : db.table? table.name = none) :
    ({ db with tables := db.tables ++ [table] } : Database).withoutTable table = db := by
  have others : ∀ other ∈ db.tables, sameName other.name table.name = false :=
    table?_eq_none.mp absent
  have tables : (db.tables ++ [table]).filter (fun other => !sameName other.name table.name) =
      db.tables := by
    rw [List.filter_append, filter_apart others, List.filter_cons_of_neg, List.filter_nil,
      List.append_nil]
    rw [sameName_self]
    exact Bool.false_ne_true
  have indexes : db.indexes.filter (fun index => !sameName index.table table.name) =
      db.indexes := by
    refine filter_apart fun index member => ?_
    obtain ⟨owner, present, same⟩ := wellFormed.indexed index member
    rw [← sameName_congr same]
    exact others owner present
  unfold withoutTable
  rw [tables, indexes]

/-! ## Inverses -/

/-- **Dropping a table undoes creating it.** -/
theorem dropTable_createTable {definition : TableDefinition} (wellFormed : db.WellFormed)
    (made : db.createTable false definition = .ok after) :
    after.dropTable false definition.name = .ok db := by
  have afterWellFormed : after.WellFormed := (createTable_change made).wellFormed wellFormed
  have absent := absent_of_createTable_ok made
  obtain ⟨table, defined, rfl⟩ := of_createTable_ok absent made
  have name : table.name = definition.name := (TableDefinition.table_grows defined).1
  have present : table ∈ db.tables ++ [table] := List.mem_append_right _ List.mem_cons_self
  have found : ({ db with tables := db.tables ++ [table] } : Database).table? definition.name =
      some table := by
    unfold table? at absent ⊢
    rw [List.find?_append, absent, Option.none_or, ← name]
    exact List.find?_cons_of_pos (sameName_self _)
  have emptied : ({ table with rows := [] } : Table) = table := by
    rw [← TableDefinition.table_rows defined]
  unfold dropTable changeable
  rw [if_neg (by simp), found]
  simp only [bind, Except.bind, emptied]
  rw [afterWellFormed.put_self present]
  unfold keepReferences
  rw [if_neg (Nat.lt_irrefl _)]
  exact congrArg Except.ok (withoutTable_append wellFormed (name ▸ absent))

/-- **Dropping an index undoes creating it.** -/
theorem dropIndex_createIndex {unique : Bool} {index table : String} {columns : List String}
    (made : db.createIndex unique false index table columns = .ok after) :
    after.dropIndex false index = .ok db := by
  obtain ⟨absent, owner, rfl⟩ := of_createIndex_ok made
  have others : ∀ other ∈ db.indexes, sameName other.name index = false := by
    intro other member
    exact Bool.eq_false_iff.mpr (List.find?_eq_none.mp absent other member)
  have found : ({ db with indexes := db.indexes ++ [⟨index, owner, columns, unique⟩] } :
      Database).index? index = some ⟨index, owner, columns, unique⟩ := by
    unfold index? at absent ⊢
    rw [List.find?_append, absent, Option.none_or]
    exact List.find?_cons_of_pos (sameName_self _)
  unfold dropIndex
  rw [found]
  simp only [List.filter_append, filter_apart others]
  rw [List.filter_cons_of_neg (by rw [sameName_self]; exact Bool.false_ne_true)]
  simp

end Database

/-- Whatever the first statement made of a well-formed content, the second one gives it back. -/
def Statement.Undoes (second first : Statement) : Prop :=
  ∀ db after : Database, db.WellFormed → db.execute first = .ok after →
    after.execute second = .ok db

theorem Statement.dropTable_undoes (definition : TableDefinition) :
    Statement.Undoes (.dropTable false definition.name) (.createTable false definition) :=
  fun _ _ wellFormed made => Database.dropTable_createTable wellFormed made

theorem Statement.dropIndex_undoes (unique : Bool) (index table : String)
    (columns : List String) :
    Statement.Undoes (.dropIndex false index) (.createIndex unique false index table columns) :=
  fun _ _ _ made => Database.dropIndex_createIndex made

end SchemaMigration.Sql
