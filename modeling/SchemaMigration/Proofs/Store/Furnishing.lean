import Mathlib.Data.List.Infix
import SchemaMigration.Proofs.Store.SettingUp

/-!
# What setting up adds

Setting up a store issues two statements, one for the version table and one for its index, and each
of them is committed by itself. A set-up that succeeds has furnished the content: it added what was
missing of the two and touched nothing else. One that fails has changed nothing, except where the
first statement made a new version table and the second one cannot name its index.

* `StoreOptions.Furnished`: a content with what was missing;
* `StoreOptions.Stranded`: the contents on which a set-up stops half-way;
* `StoreOptions.setUp_cases`: a set-up furnishes the content, leaves it, or is stranded;
* `Store.ofConnection_furnishes`: so does whoever opens a store over a connection.
-/

namespace SchemaMigration

open Sql (Session Connection Database Index Outcome sameName)

namespace StoreOptions

variable {options : StoreOptions} {db after : Database}

/-! ## The version table -/

/-- The content with an empty version table behind its other tables. -/
def withNewTable (options : StoreOptions) (db : Database) : Database :=
  { db with tables := db.tables ++ [versionTable options.table []] }

/-- The content with a version table, a new one if there was none. -/
def withTable (options : StoreOptions) (db : Database) : Database :=
  if (db.table? options.table).isSome then db else options.withNewTable db

theorem table?_withNewTable (name : String) :
    (options.withNewTable db).table? name =
      (db.table? name).or
        (if sameName options.table name then some (versionTable options.table []) else none) := by
  rw [withNewTable, Database.table?, Database.table?, List.find?_append, List.find?_cons,
    List.find?_nil, show (versionTable options.table []).name = options.table from rfl]
  cases sameName options.table name with
  | true => rfl
  | false => rfl

theorem withTable_of_present {table : Sql.Table} (present : db.table? options.table = some table) :
    options.withTable db = db := by
  rw [withTable, present, if_pos (Option.isSome_some)]

theorem withTable_of_absent (absent : db.table? options.table = none) :
    options.withTable db = options.withNewTable db := by
  rw [withTable, absent, Option.isSome_none, if_neg Bool.false_ne_true]

theorem isSome_table?_withTable : ((options.withTable db).table? options.table).isSome = true := by
  unfold withTable
  split
  · next present => exact present
  · rw [table?_withNewTable, Sql.sameName_self, if_pos rfl, Option.isSome_or, Option.isSome_some,
      Bool.or_true]

/-- A name for an index is no name for its table. -/
theorem not_sameName_indexName (options : StoreOptions) :
    sameName options.table options.indexName = false := by
  rw [Bool.eq_false_iff]
  intro same
  have lengths := congrArg (fun name => name.toList.length) (Sql.sameName_iff.mp same)
  simp only [Sql.Token.fold, String.toList_ofList, List.length_map, indexName, String.toList_append,
    List.length_append] at lengths
  have suffix : "_version_unique".toList.length = 15 := by decide
  omega

theorem table?_indexName_withTable :
    (options.withTable db).table? options.indexName = db.table? options.indexName := by
  unfold withTable
  split
  · rfl
  · rw [table?_withNewTable, not_sameName_indexName, if_neg Bool.false_ne_true, Option.or_none]

/-- A version table brings no index along. -/
theorem hasIndex_withTable (name : String) :
    (options.withTable db).hasIndex name = db.hasIndex name := by
  unfold withTable
  split
  · rfl
  · rw [withNewTable, Database.hasIndex, Database.hasIndex, List.any_append]
    have noKeys : [versionTable options.table []].any
        (fun table => table.keyIndexNames.any (sameName name)) = false := rfl
    rw [noKeys, Bool.or_false]
    rfl

/-- Why the version table is not created. -/
def RefusesTable (options : StoreOptions) (db : Database) : Prop :=
  Database.isReservedName options.table = true ∨
    db.table? options.table = none ∧ db.hasIndex options.table = true

theorem createTable_cases (options : StoreOptions) (db : Database) :
    (options.RefusesTable db ∧
      ∃ fault, db.createTable true options.tableDefinition = .error fault) ∨
    (¬ options.RefusesTable db ∧
      db.createTable true options.tableDefinition = .ok (options.withTable db)) := by
  unfold Database.createTable Database.checkName RefusesTable withTable
  rw [show options.tableDefinition.name = options.table from rfl, tableDefinition_table]
  cases reserved : Database.isReservedName options.table with
  | true => exact .inl ⟨.inl rfl, _, rfl⟩
  | false =>
      cases present : db.table? options.table with
      | some table => exact .inr ⟨by simp, rfl⟩
      | none =>
          cases taken : db.hasIndex options.table with
          | true => exact .inl ⟨.inr ⟨rfl, rfl⟩, _, rfl⟩
          | false => exact .inr ⟨by simp, rfl⟩

/-! ## Its index -/

/-- The only new table whose index gets a reserved name is `sqlite`. -/
theorem isReservedName_indexName (unreserved : Database.isReservedName options.table = false) :
    Database.isReservedName options.indexName = true ↔ sameName options.table "sqlite" = true := by
  have folded : (Sql.Token.fold options.indexName).toList =
      (Sql.Token.fold options.table).toList ++ "_VERSION_UNIQUE".toList := by
    have suffix : "_version_unique".toList.map Char.toUpper = "_VERSION_UNIQUE".toList := by decide
    simp only [Sql.Token.fold, String.toList_ofList, indexName, String.toList_append,
      List.map_append, suffix]
  have sqlite : sameName options.table "sqlite" = true ↔
      (Sql.Token.fold options.table).toList = "SQLITE".toList := by
    have upper : Sql.Token.fold "sqlite" = "SQLITE" := by decide
    rw [Sql.sameName_iff, upper, String.toList_inj]
  unfold Database.isReservedName at unreserved ⊢
  rw [List.isPrefixOf_iff_prefix, folded, sqlite]
  have notLead : ¬ "SQLITE_".toList <+: (Sql.Token.fold options.table).toList := fun lead =>
    Bool.false_ne_true (unreserved.symm.trans (List.isPrefixOf_iff_prefix.mpr lead))
  generalize (Sql.Token.fold options.table).toList = name at notLead ⊢
  constructor
  · intro lead
    -- The name is a part of `SQLITE_`, and what it lacks begins with an underscore.
    have within : name <+: "SQLITE_".toList := by
      rcases List.prefix_or_prefix_of_prefix lead (List.prefix_append name _) with other | within
      · exact absurd other notLead
      · exact within
    have member : name ∈ "SQLITE_".toList.inits := (List.mem_inits _ _).mpr within
    have all : ∀ name ∈ "SQLITE_".toList.inits, ¬ "SQLITE_".toList <+: name →
        "SQLITE_".toList <+: name ++ "_VERSION_UNIQUE".toList → name = "SQLITE".toList := by
      decide
    exact all name member notLead lead
  · rintro rfl
    decide

/-- The content has what was missing of the version table and its index, and is else as it was. -/
structure Furnished (options : StoreOptions) (db after : Database) : Prop where
  tables : after.tables = (options.withTable db).tables
  indexes : if db.hasIndex options.indexName then after.indexes = db.indexes
    else ∃ table, after.table? options.table = some table ∧
      after.indexes = db.indexes ++ [⟨options.indexName, table.name, ["version"], true⟩]

theorem Furnished.table? (furnished : options.Furnished db after) (name : String) :
    after.table? name = (options.withTable db).table? name := by
  rw [Database.table?, Database.table?, furnished.tables]

theorem indexes_withTable (options : StoreOptions) (db : Database) :
    (options.withTable db).indexes = db.indexes := by
  unfold withTable
  split <;> rfl

/-- An index that can be created on a content with a version table furnishes it. -/
theorem furnished_of_createIndex
    (made : (options.withTable db).createIndex true true options.indexName options.table
      ["version"] = .ok after) : options.Furnished db after := by
  obtain ⟨carrier, found, made⟩ := Sql.bind_eq_ok.mp made
  obtain ⟨_, -, made⟩ := Sql.bind_eq_ok.mp made
  obtain ⟨_, -, made⟩ := Sql.bind_eq_ok.mp made
  rw [hasIndex_withTable] at made
  split at made
  · next has =>
      obtain ⟨_, -, made⟩ := Sql.bind_eq_ok.mp made
      cases made
      exact ⟨rfl, by rw [if_pos has, indexes_withTable]⟩
  · next hasNot =>
      obtain ⟨_, -, made⟩ := Sql.bind_eq_ok.mp made
      obtain ⟨_, -, made⟩ := Sql.bind_eq_ok.mp made
      cases made
      refine ⟨rfl, ?_⟩
      rw [if_neg hasNot]
      exact ⟨carrier, Database.indexable_eq_ok found, by rw [indexes_withTable]⟩

/-- Why a new version table cannot have its index: the name of the index is reserved, or a table has
it. -/
def RefusesIndex (options : StoreOptions) (db : Database) : Prop :=
  sameName options.table "sqlite" = true ∨ (db.table? options.indexName).isSome = true

/-- On a new version table only the name of the index can be refused. -/
theorem createIndex_withNewTable (absent : db.table? options.table = none)
    (creatable : ¬ options.RefusesTable db) :
    (∃ fault, (options.withNewTable db).createIndex true true options.indexName options.table
      ["version"] = .error fault) ↔ options.RefusesIndex db := by
  have unreserved : Database.isReservedName options.table = false :=
    Bool.eq_false_iff.mpr fun reserved => creatable (.inl reserved)
  have new := withTable_of_absent absent
  have found : (options.withNewTable db).indexable options.table =
      .ok (versionTable options.table []) := by
    rw [Database.indexable, table?_withNewTable, absent, Sql.sameName_self, if_pos rfl]
    rfl
  have column : Sql.checkColumns (versionTable options.table []) .noSuchColumn ["version"] =
      .ok () := by
    simp [Sql.checkColumns, columnIndex?_version, Sql.Fault.raise]
  rw [← new] at found ⊢
  unfold Database.createIndex Database.checkName RefusesIndex
  rw [found, hasIndex_withTable, table?_indexName_withTable, ← isReservedName_indexName unreserved]
  cases reserved : Database.isReservedName options.indexName with
  | true => exact iff_of_true ⟨_, rfl⟩ (.inl rfl)
  | false =>
      cases taken : (db.table? options.indexName).isSome with
      | true => exact iff_of_true ⟨_, rfl⟩ (.inr rfl)
      | false =>
          refine iff_of_false ?_ (by simp)
          rintro ⟨fault, failed⟩
          cases has : db.hasIndex options.indexName with
          | true =>
              rw [has] at failed
              cases failed
          | false =>
              rw [has] at failed
              simp only [column, Sql.Fault.raiseIf, bind, Except.bind, Bool.false_eq_true,
                if_false] at failed
              cases failed

/-! ## Setting up -/

/-- A set-up on the content stops half-way: the version table can be made, and its index cannot. -/
structure Stranded (options : StoreOptions) (db : Database) : Prop where
  pattern : isTableName options.table = true
  unreserved : Sql.Token.canBeName options.table = true
  absent : db.table? options.table = none
  creatable : ¬ options.RefusesTable db
  unindexed : options.RefusesIndex db

/-- How a set-up outside a transaction goes. -/
inductive SettingUp (options : StoreOptions) (db : Database) : Outcome Error Unit → Prop
  /-- It was refused and changed nothing. -/
  | refused {e : Error} {trail : List Connection} (whole : ¬ options.Stranded db) :
      SettingUp options db ⟨.error e, ⟨db, none⟩, trail⟩
  /-- It made the version table and was refused the index. -/
  | stranded {e : Error} {trail : List Connection} (half : options.Stranded db) :
      SettingUp options db ⟨.error e, ⟨options.withNewTable db, none⟩, trail⟩
  /-- It furnished the content. -/
  | done {after : Database} {trail : List Connection} (whole : ¬ options.Stranded db)
      (furnished : options.Furnished db after) :
      SettingUp options db ⟨.ok (), ⟨after, none⟩, trail⟩

/-- Outside a transaction a statement that is no transaction control is committed. -/
theorem issue_outside (db : Database) (statement : Sql.Statement)
    (ordinary : statement.isTransactionControl = false) :
    (∃ fault, db.execute statement = .error fault ∧
      Session.issue statement ⟨db, none⟩ = ⟨.error fault, ⟨db, none⟩, [⟨db, none⟩]⟩) ∨
    ∃ after, db.execute statement = .ok after ∧
      Session.issue statement ⟨db, none⟩ = ⟨.ok (), ⟨after, none⟩, [⟨after, none⟩]⟩ := by
  have executed := Connection.execute_outside db ordinary
  cases ran : db.execute statement with
  | error fault =>
      rw [ran] at executed
      exact .inl ⟨fault, rfl, Session.issue_of_error executed⟩
  | ok after =>
      rw [ran] at executed
      exact .inr ⟨after, rfl, Session.issue_of_ok executed⟩

/-- **How a set-up goes.** -/
theorem setUp_cases (options : StoreOptions) (db : Database) :
    SettingUp options db (options.setUp ⟨db, none⟩) := by
  cases pattern : isTableName options.table with
  | false =>
      unfold setUp
      rw [pattern]
      exact .refused fun half => Bool.false_ne_true (pattern.symm.trans half.pattern)
  | true =>
      rw [setUp_eq pattern]
      cases unreserved : Sql.Token.canBeName options.table with
      | false =>
          unfold ensureTable
          rw [unreserved, Session.mapError_apply]
          exact .refused fun half => Bool.false_ne_true (unreserved.symm.trans half.unreserved)
      | true =>
          rw [ensureTable_eq unreserved, Session.mapError_apply]
          rcases issue_outside db (.createTable true options.tableDefinition) rfl with
            ⟨fault, failed, first⟩ | ⟨middle, made, first⟩
          · rw [Session.bind_of_error first]
            refine .refused fun half => half.creatable ?_
            rcases createTable_cases options db with ⟨refuses, _⟩ | ⟨_, made⟩
            · exact refuses
            · cases made.symm.trans failed
          · obtain ⟨creatable, rfl⟩ :
                ¬ options.RefusesTable db ∧ middle = options.withTable db := by
              rcases createTable_cases options db with ⟨_, fault, failed⟩ | ⟨creatable, made'⟩
              · cases failed.symm.trans made
              · exact ⟨creatable, Except.ok.inj (made.symm.trans made')⟩
            rw [Session.bind_of_ok first]
            rcases issue_outside (options.withTable db)
                (.createIndex true true options.indexName options.table ["version"]) rfl with
              ⟨fault, failed, second⟩ | ⟨after, indexed, second⟩
            · rw [second]
              cases present : db.table? options.table with
              | some table =>
                  rw [withTable_of_present present]
                  exact .refused fun half => nomatch present.symm.trans half.absent
              | none =>
                  rw [withTable_of_absent present] at failed ⊢
                  exact .stranded ⟨pattern, unreserved, present, creatable,
                    (createIndex_withNewTable present creatable).mp ⟨fault, failed⟩⟩
            · rw [second]
              refine .done (fun half => ?_) (furnished_of_createIndex indexed)
              obtain ⟨fault, failed⟩ :=
                (createIndex_withNewTable half.absent creatable).mpr half.unindexed
              rw [withTable_of_absent half.absent] at indexed
              cases failed.symm.trans indexed

end StoreOptions

namespace Store

open StoreOptions (versionTable)

/-- **Opening adds what is missing, or nothing, or half of it.** Let a store be opened over a
connection outside a transaction, on any content and with any options. If it opens, the content has
the version table; an empty one and the index were added where they were missing, and every table
with its rows and every other index is as before. If it does not open, the content is as before,
except where a new version table could be made and its index could not, because the table is called
`sqlite` or because another table has the name of the index: there the opening always fails, and the
new table stays. -/
theorem ofConnection_furnishes (medium : Medium) (db : Database) (options : StoreOptions) :
    match ofConnection medium ⟨db, none⟩ options with
    | (left, .ok store) =>
      ∃ after, store = ⟨medium, ⟨after, none⟩, options⟩ ∧ left = ⟨after, none⟩ ∧
        (after.table? options.table).isSome = true ∧ options.Furnished db after ∧
        ¬ options.Stranded db
    | (left, .error _) =>
      (options.Stranded db ∧
        left = ⟨{ db with tables := db.tables ++ [versionTable options.table []] }, none⟩) ∨
      (¬ options.Stranded db ∧ left = ⟨db, none⟩) := by
  have goes := options.setUp_cases db
  unfold ofConnection
  generalize options.setUp ⟨db, none⟩ = outcome at goes
  cases goes with
  | refused whole => exact .inr ⟨whole, rfl⟩
  | stranded half => exact .inl ⟨half, rfl⟩
  | @done after trail whole furnished =>
      refine ⟨after, rfl, rfl, ?_, furnished, whole⟩
      rw [furnished.table?]
      exact StoreOptions.isSome_table?_withTable

/-- A store with the version table `sqlite` does not open on an empty content, and leaves the table
there. -/
theorem ofConnection_sqlite :
    let (left, result) := ofConnection .memory {} { table := "sqlite" }
    result = .error (.versionTableRefused (.reservedName "sqlite_version_unique")) ∧
      left ≠ {} ∧ left.content = { tables := [versionTable "sqlite" []] } := by
  decide +kernel

end Store

end SchemaMigration
