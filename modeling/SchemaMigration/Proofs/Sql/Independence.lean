import Mathlib.Algebra.Order.BigOperators.Group.List
import Mathlib.Algebra.Order.Group.Nat
import Mathlib.Data.List.Basic
import SchemaMigration.Proofs.Sql.Change

/-!
# Statements do not see the rows of a table that they do not name

`Database.withRows name rows` puts other rows into the table of a name. When nothing refers to that
table and it refers to nothing, and the rows are numbered from 1 on, `Database.execute_withRows`
says that a statement which does not name it does the same on both contents: it fails with the same
fault, or leaves the same changes beside the given rows. So what a statement does to all other
tables is a function of them alone. -/

namespace SchemaMigration.Sql

variable {ε α β γ : Type}

/-- Two chains that start alike differ by a map of the answer if their ends do, from every answer
of the start. -/
theorem bind_eq_map {g : β → γ} {first : Except ε α} {left : α → Except ε γ}
    {right : α → Except ε β} (agree : ∀ a, first = .ok a → left a = (right a).map g) :
    first >>= left = (first >>= right).map g := by
  cases first with
  | error e => rfl
  | ok a => exact agree a rfl

/-- Two walks along a list agree if they do at each item. -/
theorem forM_congr {items : List α} {left right : α → Except ε PUnit}
    (agree : ∀ item ∈ items, left item = right item) : items.forM left = items.forM right := by
  induction items with
  | nil => rfl
  | cons item rest ih =>
      show (left item >>= fun _ => rest.forM left) = (right item >>= fun _ => rest.forM right)
      rw [agree item List.mem_cons_self, ih fun other member => agree other (.tail _ member)]

/-- The table with other rows, if it has the given name. -/
def Table.withRows (name : String) (rows : List Row) (table : Table) : Table :=
  if sameName table.name name then { table with rows } else table

section Table

variable {name : String} {rows : List Row}

@[simp] theorem name_withRows (table : Table) : (table.withRows name rows).name = table.name := by
  unfold Table.withRows
  split <;> rfl

@[simp] theorem keyIndexNames_withRows (table : Table) :
    (table.withRows name rows).keyIndexNames = table.keyIndexNames := by
  unfold Table.withRows
  split <;> rfl

@[simp] theorem foreignKeys_withRows (table : Table) :
    (table.withRows name rows).foreignKeys = table.foreignKeys := by
  unfold Table.withRows
  split <;> rfl

theorem withRows_of_apart {table : Table} (apart : sameName table.name name = false) :
    table.withRows name rows = table := by
  unfold Table.withRows
  rw [if_neg (by simp [apart])]

end Table

namespace Database

/-! ## Tables to which nothing refers -/

section Unreferenced

variable {db : Database} {table : Table}

theorem Unreferenced.congr {name other : String} (unreferenced : db.Unreferenced name)
    (same : sameName name other = true) : db.Unreferenced other := by
  intro child member key keyMember
  have apart := unreferenced child member key keyMember
  rw [sameName_comm, sameName_congr same, sameName_comm] at apart
  exact apart

theorem referencesTo_eq_nil (unreferenced : db.Unreferenced table.name) :
    db.referencesTo table = [] := by
  unfold referencesTo
  refine List.flatMap_eq_nil_iff.mpr fun child member => ?_
  rw [List.map_eq_nil_iff, List.filter_eq_nil_iff]
  intro key keyMember
  rw [unreferenced child member key keyMember]
  exact Bool.false_ne_true

/-- Putting a table that refers nowhere, and to which nothing refers, leaves no new reference that
goes nowhere. -/
theorem danglingCount_put_le (unreferenced : db.Unreferenced table.name)
    (noKeys : table.foreignKeys = []) : danglingCount (db.put table) ≤ danglingCount db := by
  unfold danglingCount
  rw [show (db.put table).tables = db.tables.map fun other =>
    if sameName other.name table.name then table else other from rfl, List.flatMap_map,
    List.length_flatMap, List.length_flatMap]
  refine List.sum_le_sum fun child member => ?_
  split
  · rw [noKeys]
    exact Nat.zero_le _
  · rw [List.length_flatMap, List.length_flatMap]
    refine List.sum_le_sum fun key keyMember => ?_
    have parent : (db.put table).table? key.parent = db.table? key.parent :=
      table?_put_of_apart (unreferenced child member key keyMember)
    have same : dangles (db.put table) child key = dangles db child key := by
      funext row
      unfold dangles
      rw [parent]
      rfl
    rw [same]

theorem keepReferences_put (unreferenced : db.Unreferenced table.name)
    (noKeys : table.foreignKeys = []) :
    keepReferences db (db.put table) = .ok (db.put table) := by
  unfold keepReferences
  rw [if_neg (Nat.not_lt.mpr (danglingCount_put_le unreferenced noKeys))]

theorem Unreferenced.put {name : String} (unreferenced : db.Unreferenced name)
    (noKeys : table.foreignKeys = []) : (db.put table).Unreferenced name := by
  intro child member
  obtain ⟨before, beforeMember, rfl⟩ := List.mem_map.mp member
  split
  · rw [noKeys]
    exact fun key keyMember => nomatch keyMember
  · exact unreferenced before beforeMember

end Unreferenced

/-! ## Other rows in one table -/

/-- The content with other rows in the table of a name. -/
def withRows (db : Database) (name : String) (rows : List Row) : Database :=
  { db with tables := db.tables.map (Table.withRows name rows) }

/-- No reference goes to the table of a name, and none goes out of it. -/
structure Isolated (db : Database) (name : String) : Prop where
  unreferenced : db.Unreferenced name
  refersNowhere : ∀ table ∈ db.tables, sameName table.name name = true → table.foreignKeys = []

section

variable {db : Database} {name : String} {rows : List Row}

/-! ## Looking things up -/

@[simp] theorem indexes_withRows : (db.withRows name rows).indexes = db.indexes :=
  rfl

theorem table?_withRows (other : String) :
    (db.withRows name rows).table? other = (db.table? other).map (Table.withRows name rows) := by
  unfold table? withRows
  rw [List.find?_map]
  refine congrArg (Option.map _) (List.find?_congr fun table _ => ?_)
  rw [Function.comp_apply, name_withRows]

theorem table?_withRows_of_apart {other : String} (apart : sameName other name = false) :
    (db.withRows name rows).table? other = db.table? other := by
  rw [table?_withRows]
  cases found : db.table? other with
  | none => rfl
  | some table =>
      rw [Option.map_some, withRows_of_apart]
      rw [sameName_congr (mem_of_table? found).2]
      exact apart

theorem isSome_table?_withRows (other : String) :
    ((db.withRows name rows).table? other).isSome = (db.table? other).isSome := by
  rw [table?_withRows, Option.isSome_map]

theorem hasIndex_withRows (index : String) :
    (db.withRows name rows).hasIndex index = db.hasIndex index := by
  unfold hasIndex index? withRows
  simp only [List.any_map, Function.comp_def, keyIndexNames_withRows]

theorem changeable_withRows {refusal : String → Fault} {other : String}
    (apart : sameName other name = false) :
    (db.withRows name rows).changeable refusal other = db.changeable refusal other := by
  unfold changeable
  rw [table?_withRows_of_apart apart]

theorem indexable_withRows {other : String} (apart : sameName other name = false) :
    (db.withRows name rows).indexable other = db.indexable other := by
  unfold indexable
  rw [table?_withRows_of_apart apart]

theorem readable_withRows {other : String} (apart : sameName other name = false) :
    (db.withRows name rows).readable other = db.readable other := by
  unfold readable
  rw [table?_withRows_of_apart apart]

theorem put_withRows {table : Table} (apart : sameName table.name name = false) :
    (db.withRows name rows).put table = (db.put table).withRows name rows := by
  unfold put withRows
  simp only [List.map_map, Database.mk.injEq, and_true]
  refine List.map_congr_left fun other _ => ?_
  simp only [Function.comp_apply, name_withRows]
  split
  · rw [withRows_of_apart apart]
  · rfl

/-! ## References -/

theorem referencesTo_withRows (isolated : db.Isolated name) (table : Table) :
    (db.withRows name rows).referencesTo table = db.referencesTo table := by
  unfold referencesTo withRows
  rw [List.flatMap_map]
  refine List.flatMap_congr fun child member => ?_
  cases same : sameName child.name name with
  | false => rw [withRows_of_apart same]
  | true => simp [isolated.refersNowhere child member same]

theorem dangles_withRows {key : ForeignKey} (apart : sameName key.parent name = false)
    (child : Table) (row : Row) :
    dangles (db.withRows name rows) child key row = dangles db child key row := by
  unfold dangles
  rw [table?_withRows_of_apart apart]
  rfl

theorem danglingCount_withRows (isolated : db.Isolated name) :
    danglingCount (db.withRows name rows) = danglingCount db := by
  unfold danglingCount
  rw [show (db.withRows name rows).tables = db.tables.map (Table.withRows name rows) from rfl,
    List.flatMap_map]
  refine congrArg List.length (List.flatMap_congr fun child member => ?_)
  simp only [foreignKeys_withRows]
  cases same : sameName child.name name with
  | true => simp [isolated.refersNowhere child member same]
  | false =>
      rw [withRows_of_apart same]
      refine List.flatMap_congr fun key keyMember => ?_
      have apart := isolated.unreferenced child member key keyMember
      simp only [funext (dangles_withRows apart child)]

theorem keepReferences_withRows {after : Database} (before : db.Isolated name)
    (isolated : after.Isolated name) :
    keepReferences (db.withRows name rows) (after.withRows name rows) =
      (keepReferences db after).map (·.withRows name rows) := by
  unfold keepReferences
  rw [danglingCount_withRows before, danglingCount_withRows isolated]
  split <;> rfl

theorem checkParents_withRows {table : Table} {keys : List ForeignKey}
    (apart : ∀ key ∈ keys, sameName key.parent name = false) :
    checkParents (db.withRows name rows) table keys = checkParents db table keys := by
  unfold checkParents
  refine forM_congr fun key member => ?_
  rw [table?_withRows_of_apart (apart key (List.mem_reverse.mp member))]
  rfl

theorem checkChildren_withRows (table : Table) (references : List (Table × ForeignKey)) :
    checkChildren (db.withRows name rows) table references = checkChildren db table references :=
  rfl


/-! ## Statements -/

theorem Isolated.put {table : Table} {others : List Row} {sequence : Option Int}
    (isolated : db.Isolated name) (found : table ∈ db.tables) :
    (db.put { table with rows := others, sequence }).Isolated name where
  unreferenced := by
    intro other member
    obtain ⟨before, beforeMember, rfl⟩ := List.mem_map.mp member
    split
    · exact isolated.unreferenced table found
    · exact isolated.unreferenced before beforeMember
  refersNowhere := by
    intro other member
    obtain ⟨before, beforeMember, rfl⟩ := List.mem_map.mp member
    split
    · exact isolated.refersNowhere table found
    · exact isolated.refersNowhere before beforeMember

/-- A change of the rows of another table is the same change beside the given rows. -/
theorem keepReferences_put_withRows {table : Table} {others : List Row} {sequence : Option Int}
    (isolated : db.Isolated name) (found : table ∈ db.tables)
    (apart : sameName table.name name = false) :
    keepReferences (db.withRows name rows)
        ((db.withRows name rows).put { table with rows := others, sequence }) =
      (keepReferences db (db.put { table with rows := others, sequence })).map
        (·.withRows name rows) := by
  have moved : (db.withRows name rows).put { table with rows := others, sequence } =
      (db.put { table with rows := others, sequence }).withRows name rows := put_withRows apart
  rw [moved]
  exact keepReferences_withRows isolated (isolated.put found)

theorem withoutTable_withRows (table : Table) :
    (db.withRows name rows).withoutTable table = (db.withoutTable table).withRows name rows := by
  unfold withoutTable withRows
  simp only [List.filter_map, Function.comp_def, name_withRows]

/-- The table that a statement changes is not the one of the name. -/
theorem apart_of_changeable {refusal : String → Fault} {other : String} {table : Table}
    (apart : sameName other name = false) (found : db.changeable refusal other = .ok table) :
    sameName table.name name = false := by
  rw [sameName_congr (mem_of_table? (changeable_eq_ok found)).2]
  exact apart

theorem createTable_withRows {ifNotExists : Bool} {definition : TableDefinition}
    (apart : sameName definition.name name = false) :
    (db.withRows name rows).createTable ifNotExists definition =
      (db.createTable ifNotExists definition).map (·.withRows name rows) := by
  unfold createTable
  refine bind_eq_map fun _ _ => ?_
  rw [isSome_table?_withRows]
  split
  · exact bind_eq_map fun _ _ => rfl
  · rw [hasIndex_withRows]
    refine bind_eq_map fun _ _ => ?_
    refine bind_eq_map fun table defined => ?_
    have tableApart : sameName table.name name = false := by
      rw [(TableDefinition.table_grows defined).1]
      exact apart
    simp [withRows, withRows_of_apart tableApart, pure, Except.pure, Except.map]

theorem dropTable_withRows {ifExists : Bool} {other : String} (isolated : db.Isolated name)
    (apart : sameName other name = false) :
    (db.withRows name rows).dropTable ifExists other =
      (db.dropTable ifExists other).map (·.withRows name rows) := by
  unfold dropTable
  rw [table?_withRows_of_apart apart, changeable_withRows apart]
  split
  · rfl
  · refine bind_eq_map fun table found => ?_
    have tableApart := apart_of_changeable apart found
    have member := (mem_of_table? (changeable_eq_ok found)).1
    rw [keepReferences_put_withRows isolated member tableApart, withoutTable_withRows]
    cases keepReferences db (db.put { table with rows := [] }) <;> rfl

theorem createIndex_withRows {unique ifNotExists : Bool} {index other : String}
    {columns : List String} (apart : sameName other name = false) :
    (db.withRows name rows).createIndex unique ifNotExists index other columns =
      (db.createIndex unique ifNotExists index other columns).map (·.withRows name rows) := by
  unfold createIndex
  rw [indexable_withRows apart]
  refine bind_eq_map fun table _ => ?_
  refine bind_eq_map fun _ _ => ?_
  rw [isSome_table?_withRows]
  refine bind_eq_map fun _ _ => ?_
  rw [hasIndex_withRows]
  split
  · exact bind_eq_map fun _ _ => rfl
  · refine bind_eq_map fun _ _ => ?_
    exact bind_eq_map fun _ _ => rfl

theorem dropIndex_withRows {ifExists : Bool} {index : String} :
    (db.withRows name rows).dropIndex ifExists index =
      (db.dropIndex ifExists index).map (·.withRows name rows) := by
  unfold dropIndex
  rw [show (db.withRows name rows).index? index = db.index? index from rfl, hasIndex_withRows]
  split
  · rfl
  · split
    · rfl
    · split <;> rfl

theorem addColumn_withRows {table : Table} {definition : ColumnDefinition}
    (apart : sameName table.name name = false) :
    (db.withRows name rows).addColumn table definition =
      (db.addColumn table definition).map (·.withRows name rows) := by
  unfold addColumn
  refine bind_eq_map fun _ _ => ?_
  refine bind_eq_map fun _ _ => ?_
  refine bind_eq_map fun _ _ => ?_
  refine bind_eq_map fun _ _ => ?_
  refine bind_eq_map fun changed grown => ?_
  refine bind_eq_map fun _ _ => congrArg Except.ok ?_
  refine put_withRows ?_
  rw [show ∀ keys rows, ({ changed with foreignKeys := keys, rows } : Table).name = changed.name
    from fun _ _ => rfl, (withColumn_grows grown).1]
  exact apart

theorem dropColumn_withRows {table : Table} {column spelling : String}
    (apart : sameName table.name name = false) :
    (db.withRows name rows).dropColumn table column spelling =
      (db.dropColumn table column spelling).map (·.withRows name rows) := by
  unfold dropColumn
  refine bind_eq_map fun _ _ => ?_
  refine bind_eq_map fun _ _ => ?_
  refine bind_eq_map fun _ _ => ?_
  refine bind_eq_map fun _ _ => ?_
  refine bind_eq_map fun _ _ => ?_
  refine bind_eq_map fun _ _ => ?_
  exact bind_eq_map fun _ _ => congrArg Except.ok (put_withRows apart)

/-- A change of tables that is the same on all rows, and after which the same tables have the name,
is the same beside the given rows. -/
theorem map_withRows {f : Table → Table}
    (names : ∀ table, sameName (f table).name name = sameName table.name name)
    (uniform : ∀ table rows, f { table with rows } = { f table with rows }) :
    f ∘ Table.withRows name rows = Table.withRows name rows ∘ f := by
  funext table
  simp only [Function.comp_apply, Table.withRows, names]
  split
  · exact uniform table rows
  · rfl

theorem renameTable_withRows {table : Table} {new : String}
    (apart : sameName table.name name = false) (newApart : sameName new name = false) :
    (db.withRows name rows).renameTable table new =
      (db.renameTable table new).map (·.withRows name rows) := by
  have names : ∀ other : Table,
      sameName (other.afterTableRenamed table.name new).name name = sameName other.name name := by
    intro other
    simp only [Table.afterTableRenamed, renamed]
    split
    · rename_i same
      rw [newApart, sameName_congr same, apart]
    · rfl
  unfold renameTable
  rw [hasIndex_withRows, table?_withRows]
  refine (congrArg (· >>= _) ?_).trans (bind_eq_map fun _ _ => ?_)
  · cases db.table? new <;> rfl
  · refine bind_eq_map fun _ _ => ?_
    simp only [withRows, pure, Except.pure, Except.map, Except.ok.injEq, Database.mk.injEq,
      and_true, List.map_map]
    rw [map_withRows names fun _ _ => rfl]

theorem renameColumn_withRows {table : Table} {column spelling new : String} :
    (db.withRows name rows).renameColumn table column spelling new =
      (db.renameColumn table column spelling new).map (·.withRows name rows) := by
  have uniform : ∀ (other : Table) (rows : List Row),
      ({ other with rows } : Table).afterColumnRenamed table.name column new =
        { other.afterColumnRenamed table.name column new with rows } := by
    intro other rows
    simp only [Table.afterColumnRenamed]
    split <;> rfl
  unfold renameColumn
  refine bind_eq_map fun _ _ => ?_
  refine bind_eq_map fun _ _ => ?_
  simp only [withRows, pure, Except.pure, Except.map, Except.ok.injEq, Database.mk.injEq,
    and_true, List.map_map]
  have names : ∀ other : Table,
      sameName (other.afterColumnRenamed table.name column new).name name =
        sameName other.name name := by
    intro other
    rw [name_afterColumnRenamed]
  rw [map_withRows names uniform]

theorem alterTable_withRows {other : String} {alteration : Alteration}
    (apart : ¬ Mentions (other :: alteration.tables) name) :
    (db.withRows name rows).alterTable other alteration =
      (db.alterTable other alteration).map (·.withRows name rows) := by
  have otherApart : sameName other name = false :=
    not_sameName_of_not_mentions apart ⟨other, List.mem_cons_self, sameName_self other⟩
  unfold alterTable
  rw [changeable_withRows otherApart]
  refine bind_eq_map fun table found => ?_
  have tableApart := apart_of_changeable otherApart found
  cases alteration with
  | addColumn definition => exact addColumn_withRows tableApart
  | dropColumn column spelling => exact dropColumn_withRows tableApart
  | rename new =>
      refine renameTable_withRows tableApart ?_
      exact not_sameName_of_not_mentions apart ⟨new, by simp [Alteration.tables], sameName_self new⟩
  | renameColumn column spelling new => exact renameColumn_withRows

theorem insert_withRows {other : String} {columns : Option (List String)}
    {values : List (List Expr)} (isolated : db.Isolated name)
    (apart : sameName other name = false) :
    (db.withRows name rows).insert other columns values =
      (db.insert other columns values).map (·.withRows name rows) := by
  unfold insert
  refine bind_eq_map fun _ _ => ?_
  rw [changeable_withRows apart]
  refine bind_eq_map fun table found => ?_
  have tableApart := apart_of_changeable apart found
  have member := (mem_of_table? (changeable_eq_ok found)).1
  refine bind_eq_map fun _ _ => ?_
  refine bind_eq_map fun _ _ => ?_
  refine bind_eq_map fun _ _ => ?_
  rw [checkParents_withRows (isolated.unreferenced table member)]
  refine bind_eq_map fun _ _ => ?_
  rw [referencesTo_withRows isolated, checkChildren_withRows]
  refine bind_eq_map fun _ _ => ?_
  unfold insertRows
  refine bind_eq_map fun changed inserted => ?_
  obtain ⟨_, _, rfl⟩ := insertRows_fold inserted
  exact keepReferences_put_withRows isolated member tableApart

theorem checkReferences_withRows {table : Table} {touches : List String → Bool}
    (isolated : db.Isolated name) (member : table ∈ db.tables) :
    update.checkReferences (db.withRows name rows) table touches =
      update.checkReferences db table touches := by
  unfold update.checkReferences
  rw [referencesTo_withRows isolated, checkParents_withRows fun key keyMember =>
    isolated.unreferenced table member key (List.mem_filter.mp keyMember).1]
  simp only [checkChildren_withRows]

theorem update_withRows {other : String} {assignments : List (String × Expr)}
    {condition : Option Expr} (isolated : db.Isolated name)
    (apart : sameName other name = false) :
    (db.withRows name rows).update other assignments condition =
      (db.update other assignments condition).map (·.withRows name rows) := by
  unfold update
  rw [changeable_withRows apart]
  refine bind_eq_map fun table found => ?_
  have tableApart := apart_of_changeable apart found
  have member := (mem_of_table? (changeable_eq_ok found)).1
  refine bind_eq_map fun _ _ => ?_
  refine bind_eq_map fun _ _ => ?_
  rw [checkReferences_withRows isolated member]
  refine bind_eq_map fun _ _ => ?_
  unfold updateRows
  exact bind_eq_map fun _ _ => keepReferences_put_withRows isolated member tableApart

theorem delete_withRows {other : String} {condition : Option Expr} (isolated : db.Isolated name)
    (apart : sameName other name = false) :
    (db.withRows name rows).delete other condition =
      (db.delete other condition).map (·.withRows name rows) := by
  unfold delete
  rw [changeable_withRows apart]
  refine bind_eq_map fun table found => ?_
  have tableApart := apart_of_changeable apart found
  have member := (mem_of_table? (changeable_eq_ok found)).1
  refine bind_eq_map fun _ _ => ?_
  rw [checkParents_withRows (isolated.unreferenced table member)]
  refine bind_eq_map fun _ _ => ?_
  rw [referencesTo_withRows isolated, checkChildren_withRows]
  exact bind_eq_map fun _ _ => keepReferences_put_withRows isolated member tableApart

theorem select_withRows {items : List (Option Expr)} {table : Option String}
    {condition limit : Option Expr} (apart : ∀ other ∈ table, sameName other name = false) :
    (db.withRows name rows).select items table condition limit =
      (db.select items table condition limit).map (·.withRows name rows) := by
  have readables : table.mapM (db.withRows name rows).readable = table.mapM db.readable := by
    cases table with
    | none => rfl
    | some other =>
        simp only [Option.mapM_some, readable_withRows (apart other rfl)]
  unfold select
  rw [readables]
  refine bind_eq_map fun _ _ => ?_
  refine bind_eq_map fun _ _ => ?_
  refine bind_eq_map fun _ _ => ?_
  refine bind_eq_map fun _ _ => ?_
  refine bind_eq_map fun _ _ => ?_
  exact bind_eq_map fun _ _ => rfl

theorem values_withRows {values : List (List Expr)} :
    (db.withRows name rows).values values = (db.values values).map (·.withRows name rows) := by
  unfold Database.values
  refine bind_eq_map fun _ _ => ?_
  exact bind_eq_map fun _ _ => rfl

/-- Rows that are numbered from 1 on stay as they are when the content is packed anew. -/
theorem vacuumed_withRows (numbered : Numbered rows) :
    (db.withRows name rows).vacuumed = db.vacuumed.withRows name rows := by
  unfold vacuumed withRows
  simp only [List.map_map, Database.mk.injEq, and_true]
  refine List.map_congr_left fun table _ => ?_
  rw [Function.comp_apply, Function.comp_apply]
  cases same : sameName table.name name with
  | false =>
      have apart : sameName (db.packed table).name name = false := same
      rw [withRows_of_apart same, withRows_of_apart apart]
      rfl
  | true =>
      have stays : renumbered rows = rows := numbered
      simp only [Table.withRows, packed, same, if_true, stays, ite_self]

/-- **Independence of rows.** A statement that does not name an isolated table does the same
whatever rows that table has, as long as they are numbered from 1 on. -/
theorem execute_withRows {statement : Statement} (isolated : db.Isolated name)
    (apart : ¬ Mentions statement.tables name) (numbered : Numbered rows) :
    (db.withRows name rows).execute statement =
      (db.execute statement).map (·.withRows name rows) := by
  have tableApart : ∀ {other : String}, other ∈ statement.tables → sameName other name = false :=
    fun named => not_sameName_of_not_mentions apart ⟨_, named, sameName_self _⟩
  cases statement with
  | createTable ifNotExists definition => exact createTable_withRows (tableApart List.mem_cons_self)
  | dropTable ifExists table => exact dropTable_withRows isolated (tableApart List.mem_cons_self)
  | createIndex unique ifNotExists index table columns =>
      exact createIndex_withRows (tableApart List.mem_cons_self)
  | dropIndex ifExists index => exact dropIndex_withRows
  | alterTable table alteration => exact alterTable_withRows apart
  | insert table columns values => exact insert_withRows isolated (tableApart List.mem_cons_self)
  | update table assignments condition =>
      exact update_withRows isolated (tableApart List.mem_cons_self)
  | delete table condition => exact delete_withRows isolated (tableApart List.mem_cons_self)
  | select items table condition limit =>
      exact select_withRows fun other found => tableApart (Option.mem_toList.mpr found)
  | values => exact values_withRows
  | begin | commit | rollback => rfl
  | vacuum => exact congrArg Except.ok (vacuumed_withRows numbered)

end

/-! ## Staying isolated -/

/-- A table that no name stands for stays isolated. -/
theorem Change.isolated {named : List String} {db after : Database} {name : String}
    (change : Change named db after) (apart : ¬ Mentions named name)
    (isolated : db.Isolated name) : after.Isolated name := by
  refine ⟨change.unreferenced apart isolated.unreferenced, ?_⟩
  have otherApart : ∀ {other : String}, Mentions named other → sameName other name = false :=
    not_sameName_of_not_mentions apart
  cases change with
  | nothing => exact isolated.refersNowhere
  | tableAdded fresh isNamed parents =>
      intro table member same
      rcases List.mem_append.mp member with old | new
      · exact isolated.refersNowhere table old same
      · cases List.mem_singleton.mp new
        rw [otherApart ⟨_, isNamed, sameName_self _⟩] at same
        cases same
  | tableDropped isNamed =>
      exact fun table member => isolated.refersNowhere table (List.mem_filter.mp member).1
  | indexAdded present indexed => exact isolated.refersNowhere
  | indexesDropped keep => exact isolated.refersNowhere
  | @tablePut old new present isNamed grows =>
      intro table member same
      obtain ⟨other, otherMember, rfl⟩ := List.mem_map.mp member
      split at same
      · rw [grows.1, otherApart isNamed] at same
        cases same
      · rename_i kept
        rw [if_neg kept]
        exact isolated.refersNowhere other otherMember same
  | @tableRenamed old new _ isNamed newNamed moved =>
      intro table member same
      rw [(renameTable_eq_ok moved).2.1] at member
      obtain ⟨other, otherMember, rfl⟩ := List.mem_map.mp member
      simp only [Table.afterTableRenamed, renamed] at same ⊢
      split at same
      · rw [otherApart ⟨new, newNamed, sameName_self new⟩] at same
        cases same
      · rw [isolated.refersNowhere other otherMember same, List.map_nil]
  | @columnRenamed old column spelling new _ isNamed moved =>
      intro table member same
      rw [(renameColumn_eq_ok moved).1] at member
      obtain ⟨other, otherMember, rfl⟩ := List.mem_map.mp member
      rw [name_afterColumnRenamed] at same
      rw [foreignKeys_afterColumnRenamed, isolated.refersNowhere other otherMember same,
        List.map_nil]
  | vacuumed =>
      intro table member same
      obtain ⟨other, otherMember, rfl⟩ := List.mem_map.mp member
      rw [name_packed] at same
      rw [foreignKeys_packed]
      exact isolated.refersNowhere other otherMember same

theorem Isolated.withRows {db : Database} {name : String} (isolated : db.Isolated name)
    (rows : List Row) : (db.withRows name rows).Isolated name where
  unreferenced := by
    intro table member
    obtain ⟨before, beforeMember, rfl⟩ := List.mem_map.mp member
    rw [foreignKeys_withRows]
    exact isolated.unreferenced before beforeMember
  refersNowhere := by
    intro table member same
    obtain ⟨before, beforeMember, rfl⟩ := List.mem_map.mp member
    rw [foreignKeys_withRows]
    rw [name_withRows] at same
    exact isolated.refersNowhere before beforeMember same

theorem WellFormed.withRows {db : Database} (wellFormed : db.WellFormed) (name : String)
    (rows : List Row) : (db.withRows name rows).WellFormed :=
  wellFormed.map (f := Table.withRows name rows)
    (fun table => by rw [name_withRows]; exact sameName_self _) rfl
    fun index member => ⟨index, member, rfl⟩

end Database

end SchemaMigration.Sql
