import SchemaMigration.Proofs.Sql.Session

/-!
# Which tables and indexes there are

A statement says by name which tables and indexes it makes, changes or drops: `Statement.defines`.
Every other table and index is there afterwards as it was before, whatever happened to rows.

* `Database.Spares`: tables and indexes of other names are there as before;
* `Database.execute_spares`: every statement spares what it does not define.
-/

namespace SchemaMigration.Sql

/-- The tables and indexes that a statement makes, changes or drops. -/
def Statement.defines : Statement → List String
  | .createTable _ definition => [definition.name]
  | .dropTable _ table => [table]
  | .createIndex _ _ index _ _ => [index]
  | .dropIndex _ index => [index]
  | .alterTable table (.rename name) => [table, name]
  | .alterTable table _ => [table]
  | .insert .. | .update .. | .delete .. | .select .. | .values _ | .begin | .commit | .rollback
  | .vacuum => []

/-- The tables and indexes that an item of a batch defines. One that is not understood defines
nothing. -/
def BatchItem.defines : BatchItem → List String
  | .statement issued => issued.defines
  | .broken .. | .unread _ => []

/-- The tables and indexes that the statements of a text define. -/
def Batch.defines (text : String) : List String :=
  (Batch.read text).flatMap BatchItem.defines

namespace Database

/-- Tables and indexes of other names are there as before. An index is there for the name of its
table too. -/
structure Spares (defined : List String) (db after : Database) : Prop where
  table : ∀ name, ¬ Mentions defined name → (after.table? name).isSome = (db.table? name).isSome
  index : ∀ name index, db.index? name = some index → ¬ Mentions defined name →
    ¬ Mentions defined index.table → after.index? name = some index

variable {defined : List String} {db after : Database}

/-- What is found under a name is found after a change that keeps names. -/
theorem isSome_find?_map {α : Type} {items : List α} {p : α → Bool} {f : α → α}
    (kept : ∀ item ∈ items, p (f item) = p item) :
    ((items.map f).find? p).isSome = (items.find? p).isSome := by
  have same : items.find? (p ∘ f) = items.find? p := List.find?_congr kept
  rw [List.find?_map, Option.isSome_map, same]

/-- What is found is still found where it is kept. -/
theorem find?_filter_of_kept {α : Type} {items : List α} {p keep : α → Bool} {item : α}
    (found : items.find? p = some item) (kept : keep item = true) :
    (items.filter keep).find? p = some item := by
  induction items with
  | nil => cases found
  | cons first rest ih =>
      rw [List.find?_cons] at found
      cases isFirst : p first with
      | true =>
          rw [isFirst] at found
          cases found
          rw [List.filter_cons, if_pos kept, List.find?_cons, isFirst]
      | false =>
          rw [isFirst] at found
          rw [List.filter_cons]
          split
          · rw [List.find?_cons, isFirst]
            exact ih found
          · exact ih found

theorem Spares.refl (defined : List String) (db : Database) : Spares defined db db :=
  ⟨fun _ _ => rfl, fun _ _ found _ _ => found⟩

/-- A table that is put in the place of the one of its name. -/
theorem spares_put (defined : List String) (db : Database) (table : Table) :
    Spares defined db (db.put table) where
  table name _ := by
    refine isSome_find?_map fun other _ => ?_
    split
    · next same => exact (sameName_congr same name).symm
    · rfl
  index _ _ found _ _ := found

section Statements

theorem createTable_spares {ifNotExists : Bool} {definition : TableDefinition}
    (done : db.createTable ifNotExists definition = .ok after) :
    Spares [definition.name] db after := by
  obtain ⟨_, _, done⟩ := bind_eq_ok.mp done
  split at done
  · obtain ⟨_, _, done⟩ := bind_eq_ok.mp done
    cases done
    exact .refl _ _
  · obtain ⟨_, _, done⟩ := bind_eq_ok.mp done
    obtain ⟨table, defined, done⟩ := bind_eq_ok.mp done
    cases done
    refine ⟨fun name apart => ?_, fun _ _ found _ _ => found⟩
    have other : sameName table.name name = false := by
      rw [(TableDefinition.table_grows defined).1]
      exact not_sameName_of_not_mentions apart ⟨_, List.mem_singleton_self _, sameName_self _⟩
    rw [table?, table?, List.find?_append, List.find?_cons, other, List.find?_nil, Option.or_none]

theorem dropTable_spares {ifExists : Bool} {name : String}
    (done : db.dropTable ifExists name = .ok after) : Spares [name] db after := by
  unfold dropTable at done
  split at done
  · cases done
    exact .refl _ _
  · obtain ⟨table, found, done⟩ := bind_eq_ok.mp done
    obtain ⟨_, _, done⟩ := bind_eq_ok.mp done
    cases done
    have ⟨_, same⟩ := mem_of_table? (changeable_eq_ok found)
    have isNamed : Mentions [name] table.name :=
      ⟨name, List.mem_singleton_self _, sameName_comm _ _ ▸ same⟩
    refine ⟨fun other apart => ?_, fun other index found _ apart => ?_⟩
    · rw [table?_withoutTable_of_apart (not_sameName_of_not_mentions apart isNamed)]
    · have kept : sameName index.table table.name = false := by
        rw [sameName_comm]
        exact not_sameName_of_not_mentions apart isNamed
      exact find?_filter_of_kept found (by rw [kept]; rfl)

theorem createIndex_spares {unique ifNotExists : Bool} {name tableName : String}
    {columns : List String}
    (done : db.createIndex unique ifNotExists name tableName columns = .ok after) :
    Spares [name] db after := by
  refine ⟨fun other _ => ?_, fun other index found _ _ => ?_⟩
  · rw [table?, table?, createIndex_tables done]
  · obtain ⟨_, _, done⟩ := bind_eq_ok.mp done
    obtain ⟨_, _, done⟩ := bind_eq_ok.mp done
    obtain ⟨_, _, done⟩ := bind_eq_ok.mp done
    split at done
    · obtain ⟨_, _, done⟩ := bind_eq_ok.mp done
      cases done
      exact found
    · obtain ⟨_, _, done⟩ := bind_eq_ok.mp done
      obtain ⟨_, _, done⟩ := bind_eq_ok.mp done
      cases done
      rw [index?] at found ⊢
      rw [List.find?_append, found, Option.some_or]

theorem dropIndex_spares {ifExists : Bool} {name : String}
    (done : db.dropIndex ifExists name = .ok after) : Spares [name] db after := by
  unfold dropIndex at done
  split at done
  · next dropped dropFound =>
    cases done
    refine ⟨fun _ _ => rfl, fun other index found apart _ => find?_filter_of_kept found ?_⟩
    have isDropped : sameName dropped.name name = true :=
      List.find?_some (p := fun index : Index => sameName index.name name) dropFound
    have isOther : sameName index.name other = true :=
      List.find?_some (p := fun index : Index => sameName index.name other) found
    have notNamed := not_sameName_of_not_mentions apart
      ⟨name, List.mem_singleton_self _, sameName_self name⟩
    rw [sameName_congr isOther, sameName_comm, sameName_congr isDropped, notNamed]
    rfl
  · split at done
    · cases done
    · split at done
      · cases done
        exact .refl _ _
      · cases done

theorem addColumn_spares {table : Table} {definition : ColumnDefinition} (defined : List String)
    (done : db.addColumn table definition = .ok after) : Spares defined db after := by
  obtain ⟨_, _, done⟩ := bind_eq_ok.mp done
  obtain ⟨_, _, done⟩ := bind_eq_ok.mp done
  obtain ⟨_, _, done⟩ := bind_eq_ok.mp done
  obtain ⟨_, _, done⟩ := bind_eq_ok.mp done
  obtain ⟨_, _, done⟩ := bind_eq_ok.mp done
  obtain ⟨_, _, done⟩ := bind_eq_ok.mp done
  cases done
  exact spares_put defined db _

theorem dropColumn_spares {table : Table} {column spelling : String} (defined : List String)
    (done : db.dropColumn table column spelling = .ok after) : Spares defined db after := by
  obtain ⟨_, _, done⟩ := bind_eq_ok.mp done
  obtain ⟨_, _, done⟩ := bind_eq_ok.mp done
  obtain ⟨_, _, done⟩ := bind_eq_ok.mp done
  obtain ⟨_, _, done⟩ := bind_eq_ok.mp done
  obtain ⟨_, _, done⟩ := bind_eq_ok.mp done
  obtain ⟨_, _, done⟩ := bind_eq_ok.mp done
  obtain ⟨_, _, done⟩ := bind_eq_ok.mp done
  cases done
  exact spares_put defined db _

/-- An index is found after a change that keeps the names of indexes and leaves it alone. -/
theorem index?_map {f : Index → Index} (indexes : after.indexes = db.indexes.map f)
    (names : ∀ index, (f index).name = index.name) {name : String} {index : Index}
    (found : db.index? name = some index) (fixed : f index = index) :
    after.index? name = some index := by
  have same : (fun index : Index => sameName (f index).name name) =
      fun index => sameName index.name name := by
    funext index
    rw [names]
  rw [index?] at found ⊢
  rw [indexes, List.find?_map]
  change (db.indexes.find? fun index => sameName (f index).name name).map f = _
  rw [same, found, Option.map_some, fixed]

theorem renameTable_spares {table : Table} {name old : String}
    (same : sameName table.name old = true) (done : db.renameTable table name = .ok after) :
    Spares [old, name] db after := by
  obtain ⟨-, tables, indexes⟩ := renameTable_eq_ok done
  have apartOld : ∀ {other}, ¬ Mentions [old, name] other → sameName table.name other = false :=
    fun apart => not_sameName_of_not_mentions apart
      ⟨old, List.mem_cons_self, sameName_comm _ _ ▸ same⟩
  constructor
  · intro other apart
    have newApart : sameName name other = false := not_sameName_of_not_mentions apart
      ⟨name, List.mem_cons_of_mem _ (List.mem_singleton_self _), sameName_self _⟩
    rw [table?, table?, tables]
    refine isSome_find?_map fun candidate _ => ?_
    simp only [Table.afterTableRenamed, renamed]
    split
    · next isOld => rw [newApart, sameName_congr isOld, apartOld apart]
    · rfl
  · intro other index found _ apart
    refine index?_map indexes (fun _ => rfl) found ?_
    have kept : sameName index.table table.name = false := by
      rw [sameName_comm]
      exact apartOld apart
    simp only [renamed, kept, Bool.false_eq_true, if_false]

theorem renameColumn_spares {table : Table} {column spelling name old : String}
    (same : sameName table.name old = true)
    (done : db.renameColumn table column spelling name = .ok after) : Spares [old] db after := by
  obtain ⟨_, _, done⟩ := bind_eq_ok.mp done
  obtain ⟨_, _, done⟩ := bind_eq_ok.mp done
  cases done
  constructor
  · intro other _
    refine isSome_find?_map fun candidate _ => ?_
    rw [name_afterColumnRenamed]
  · intro other index found _ apart
    have kept : sameName index.table table.name = false := by
      rw [sameName_comm]
      exact not_sameName_of_not_mentions apart
        ⟨old, List.mem_singleton_self _, sameName_comm _ _ ▸ same⟩
    refine index?_map rfl (fun index => ?_) found ?_
    · split <;> rfl
    · rw [if_neg (by rw [kept]; exact Bool.false_ne_true)]

theorem alterTable_spares {name : String} {alteration : Alteration}
    (done : db.alterTable name alteration = .ok after) :
    Spares (Statement.alterTable name alteration).defines db after := by
  obtain ⟨table, found, done⟩ := bind_eq_ok.mp done
  have same := (mem_of_table? (changeable_eq_ok found)).2
  cases alteration with
  | addColumn definition => exact addColumn_spares _ done
  | dropColumn column spelling => exact dropColumn_spares _ done
  | rename new => exact renameTable_spares same done
  | renameColumn column spelling new => exact renameColumn_spares same done

theorem insert_spares {name : String} {columns : Option (List String)} {rows : List (List Expr)}
    (done : db.insert name columns rows = .ok after) : Spares [] db after := by
  obtain ⟨_, _, done⟩ := bind_eq_ok.mp done
  obtain ⟨_, _, done⟩ := bind_eq_ok.mp done
  obtain ⟨_, _, done⟩ := bind_eq_ok.mp done
  obtain ⟨_, _, done⟩ := bind_eq_ok.mp done
  obtain ⟨_, _, done⟩ := bind_eq_ok.mp done
  obtain ⟨_, _, done⟩ := bind_eq_ok.mp done
  obtain ⟨_, _, done⟩ := bind_eq_ok.mp done
  obtain ⟨_, _, done⟩ := bind_eq_ok.mp done
  cases keepReferences_eq_ok done
  exact spares_put [] db _

theorem update_spares {name : String} {assignments : List (String × Expr)}
    {condition : Option Expr} (done : db.update name assignments condition = .ok after) :
    Spares [] db after := by
  obtain ⟨_, _, done⟩ := bind_eq_ok.mp done
  obtain ⟨_, _, done⟩ := bind_eq_ok.mp done
  obtain ⟨_, _, done⟩ := bind_eq_ok.mp done
  obtain ⟨_, _, done⟩ := bind_eq_ok.mp done
  obtain ⟨_, _, done⟩ := bind_eq_ok.mp done
  cases keepReferences_eq_ok done
  exact spares_put [] db _

theorem delete_spares {name : String} {condition : Option Expr}
    (done : db.delete name condition = .ok after) : Spares [] db after := by
  obtain ⟨_, _, done⟩ := bind_eq_ok.mp done
  obtain ⟨_, _, done⟩ := bind_eq_ok.mp done
  obtain ⟨_, _, done⟩ := bind_eq_ok.mp done
  obtain ⟨_, _, done⟩ := bind_eq_ok.mp done
  cases keepReferences_eq_ok done
  exact spares_put [] db _

/-- Packing a content anew makes and drops nothing. -/
theorem vacuumed_spares (db : Database) : Spares [] db db.vacuumed where
  table _ _ := isSome_find?_map fun _ _ => rfl
  index _ _ found _ _ := found

/-- **What a statement leaves.** Every statement that succeeds spares the tables and indexes that it
does not define. -/
theorem execute_spares {statement : Statement} (done : db.execute statement = .ok after) :
    Spares statement.defines db after := by
  cases statement with
  | createTable ifNotExists definition => exact createTable_spares done
  | dropTable ifExists table => exact dropTable_spares done
  | createIndex unique ifNotExists index table columns => exact createIndex_spares done
  | dropIndex ifExists index => exact dropIndex_spares done
  | alterTable table alteration => exact alterTable_spares done
  | insert table columns rows => exact insert_spares done
  | update table assignments condition => exact update_spares done
  | delete table condition => exact delete_spares done
  | select items table condition limit => cases of_select_ok done; exact .refl [] db
  | values rows => cases of_values_ok done; exact .refl [] db
  | begin | commit | rollback => cases done; exact .refl [] db
  | vacuum => cases done; exact vacuumed_spares db

end Statements

end Database

end SchemaMigration.Sql
