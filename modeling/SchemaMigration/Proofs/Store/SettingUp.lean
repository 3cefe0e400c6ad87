import SchemaMigration.Proofs.Sql.Catalogue
import SchemaMigration.Proofs.Store.Body

/-!
# Setting up, and setting up again

Setting up makes what is missing of the version table and its index. Where both are there it changes
nothing, so that a store may be opened as often as one likes.

* `StoreOptions.prepared`: the content of a store that is set up on a content;
* `StoreOptions.settled_prepared`: it has the version table and an index of the name;
* `StoreOptions.setUp_of_settled`: setting up such a content changes nothing;
* `StoreOptions.record_keeps_settled`, `StoreOptions.run_keeps_settled`: recording a state keeps
  them, and so does a body that does not define them.
-/

namespace SchemaMigration

open Sql (Session Connection Database Index sameName)

/-! ## Setting up -/

namespace StoreOptions

variable {options : StoreOptions} {content : Database}

/-- Setting up opens no transaction. -/
theorem setUp_closes (options : StoreOptions) : Session.Closes options.setUp := by
  have statements : Session.Closes (do
      Session.issue (.createTable true options.tableDefinition)
      Session.issue (.createIndex true true options.indexName options.table ["version"])) :=
    (Session.Closes.issue rfl).bind fun _ => Session.Closes.issue rfl
  have ensured : Session.Closes options.ensureTable := by
    refine Session.Closes.mapError _ ?_
    split
    · exact (Session.Closes.throw _).bind fun _ => statements
    · exact statements
  rw [setUp]
  split
  · exact (Session.Closes.throw _).bind fun _ => ensured
  · exact ensured

/-- The content of a store that is set up on a content. -/
def prepared (options : StoreOptions) (content : Database) : Database :=
  (options.setUp ⟨content, none⟩).connection.committed

theorem connection_setUp (options : StoreOptions) (content : Database) :
    (options.setUp ⟨content, none⟩).connection = ⟨options.prepared content, none⟩ := by
  have closed := setUp_closes options content
  rw [prepared]
  generalize (options.setUp ⟨content, none⟩).connection = left at closed
  obtain ⟨committed, working⟩ := left
  exact congrArg (Connection.mk committed) closed

/-! ## Setting up again -/

/-- Names that a version table and its index can have. -/
structure Nameable (options : StoreOptions) : Prop where
  pattern : isTableName options.table = true
  unreserved : Sql.Token.canBeName options.table = true
  table : Database.checkName options.table = .ok ()
  index : Database.checkName options.indexName = .ok ()

/-- The version table is there, and an index of the name of its index; no table has that name. -/
structure Settled (options : StoreOptions) (index : Index) (db : Database) : Prop where
  table : (db.table? options.table).isSome = true
  noTable : (db.table? options.indexName).isSome = false
  index : db.index? options.indexName = some index

variable {index : Index} {db after : Database}

/-- The names of the version table, of its index, and of the table that the index is on. -/
def standing (options : StoreOptions) (index : Index) : List String :=
  [options.table, options.indexName, index.table]

/-- What defines neither the version table nor its index leaves them standing. -/
theorem Settled.spared {defined : List String} (settled : options.Settled index db)
    (spares : Database.Spares defined db after)
    (apart : ∀ name ∈ options.standing index, ¬ Sql.Mentions defined name) :
    options.Settled index after := by
  have apartTable := apart options.table List.mem_cons_self
  have apartIndex := apart options.indexName (List.mem_cons_of_mem _ List.mem_cons_self)
  have apartCarrier := apart index.table
    (List.mem_cons_of_mem _ (List.mem_cons_of_mem _ List.mem_cons_self))
  exact ⟨(spares.table _ apartTable).trans settled.table,
    (spares.table _ apartIndex).trans settled.noTable,
    spares.index _ _ settled.index apartIndex apartCarrier⟩

theorem issue_of_unchanged {statement : Sql.Statement}
    (ordinary : statement.isTransactionControl = false) (done : db.execute statement = .ok db) :
    Session.issue statement ⟨db, none⟩ = ⟨.ok (), ⟨db, none⟩, [⟨db, none⟩]⟩ := by
  refine Session.issue_of_ok ?_
  rw [Connection.execute_outside _ ordinary, done]
  rfl

theorem createTable_of_settled (nameable : options.Nameable) (settled : options.Settled index db) :
    db.createTable true options.tableDefinition = .ok db := by
  refine Sql.bind_eq_ok.mpr ⟨(), nameable.table, ?_⟩
  exact if_pos settled.table

theorem createIndex_of_settled (nameable : options.Nameable) (settled : options.Settled index db) :
    db.createIndex true true options.indexName options.table ["version"] = .ok db := by
  obtain ⟨table, found⟩ := Option.isSome_iff_exists.mp settled.table
  have indexable : db.indexable options.table = .ok table := by
    rw [Database.indexable, found]
  have has : db.hasIndex options.indexName = true := by
    rw [Database.hasIndex, settled.index]
    rfl
  refine Sql.bind_eq_ok.mpr ⟨table, indexable, ?_⟩
  refine Sql.bind_eq_ok.mpr ⟨(), nameable.index, ?_⟩
  refine Sql.bind_eq_ok.mpr ⟨(), Database.raiseIf_eq_ok.mpr settled.noTable, ?_⟩
  exact if_pos has

theorem setUp_eq (pattern : isTableName options.table = true) :
    options.setUp = options.ensureTable := by
  rw [setUp, pattern]
  rfl

/-- **Setting up again changes nothing.** -/
theorem setUp_of_settled (nameable : options.Nameable) (settled : options.Settled index db) :
    options.setUp ⟨db, none⟩ = ⟨.ok (), ⟨db, none⟩, [⟨db, none⟩, ⟨db, none⟩]⟩ := by
  have created : Session.issue (.createTable true options.tableDefinition) ⟨db, none⟩ =
      ⟨.ok (), ⟨db, none⟩, [⟨db, none⟩]⟩ :=
    issue_of_unchanged rfl (createTable_of_settled nameable settled)
  have indexed :
      Session.issue (.createIndex true true options.indexName options.table ["version"])
          ⟨db, none⟩ =
        ⟨.ok (), ⟨db, none⟩, [⟨db, none⟩]⟩ :=
    issue_of_unchanged rfl (createIndex_of_settled nameable settled)
  rw [setUp_eq nameable.pattern, ensureTable_eq nameable.unreserved, Session.mapError_apply,
    Session.bind_of_ok created, indexed]
  rfl

theorem prepared_of_settled (nameable : options.Nameable) (settled : options.Settled index db) :
    options.prepared db = db := by
  rw [prepared, setUp_of_settled nameable settled]

theorem isReservedName_append (rest : String) :
    Database.isReservedName ("sqlite_" ++ rest) = true := by
  have lead : "sqlite_".toList.map Char.toUpper = "SQLITE_".toList := by decide
  have folded : ("sqlite_" ++ rest).toList.map Char.toUpper =
      "SQLITE_".toList ++ rest.toList.map Char.toUpper := by
    rw [String.toList_append, List.map_append, lead]
  have upper : (Sql.Token.fold ("sqlite_" ++ rest)).toList =
      "SQLITE_".toList ++ rest.toList.map Char.toUpper := String.toList_ofList.trans folded
  rw [Database.isReservedName, upper]
  exact List.isPrefixOf_iff_prefix.mpr (List.prefix_append _ _)

theorem isReservedName_congr {a b : String} (same : sameName a b = true) :
    Database.isReservedName a = Database.isReservedName b := by
  rw [Database.isReservedName, Database.isReservedName, Sql.sameName_iff.mp same]

/-- The indexes that keep a table's own keys unique have reserved names. -/
theorem index?_of_hasIndex {name : String} (unreserved : Database.checkName name = .ok ())
    (has : db.hasIndex name = true) : (db.index? name).isSome = true := by
  rw [Database.hasIndex, Bool.or_eq_true, List.any_eq_true] at has
  rcases has with found | ⟨table, -, keyed⟩
  · exact found
  · obtain ⟨key, isKey, same⟩ := List.any_eq_true.mp keyed
    obtain ⟨i, -, rfl⟩ := List.mem_map.mp isKey
    have reserved : Database.isReservedName name = true := by
      have lead : "sqlite_autoindex_" = "sqlite_" ++ "autoindex_" := by decide
      rw [isReservedName_congr same, lead, String.append_assoc, String.append_assoc,
        String.append_assoc]
      exact isReservedName_append _
    cases reserved.symm.trans (Database.raiseIf_eq_ok.mp unreserved)

/-- An index that is created where it is missing is there, and no table has its name. -/
theorem index?_of_createIndex {unique : Bool} {name table : String} {columns : List String}
    (made : db.createIndex unique true name table columns = .ok after) :
    Database.checkName name = .ok () ∧ (db.table? name).isSome = false ∧
      ∃ index, after.index? name = some index := by
  obtain ⟨carrier, -, made⟩ := Sql.bind_eq_ok.mp made
  obtain ⟨_, unreserved, made⟩ := Sql.bind_eq_ok.mp made
  obtain ⟨_, noTable, made⟩ := Sql.bind_eq_ok.mp made
  refine ⟨unreserved, Database.raiseIf_eq_ok.mp noTable, ?_⟩
  split at made
  · next has =>
    obtain ⟨_, -, made⟩ := Sql.bind_eq_ok.mp made
    cases made
    exact Option.isSome_iff_exists.mp (index?_of_hasIndex unreserved has)
  · next hasNot =>
    obtain ⟨_, -, made⟩ := Sql.bind_eq_ok.mp made
    obtain ⟨_, -, made⟩ := Sql.bind_eq_ok.mp made
    cases made
    have absent : db.index? name = none := by
      rw [Database.hasIndex, Bool.or_eq_true, not_or] at hasNot
      exact Option.not_isSome_iff_eq_none.mp hasNot.1
    rw [Database.index?] at absent ⊢
    exact ⟨_, by rw [List.find?_append, absent, Option.none_or, List.find?_cons, Sql.sameName_self]⟩

/-- A table that is created where it is missing is there. -/
theorem table?_of_createTable {definition : Sql.TableDefinition}
    (made : db.createTable true definition = .ok after) :
    Database.checkName definition.name = .ok () ∧
      (after.table? definition.name).isSome = true := by
  obtain ⟨_, unreserved, rest⟩ := Sql.bind_eq_ok.mp made
  refine ⟨unreserved, ?_⟩
  split at rest
  · next present =>
    obtain ⟨_, -, rest⟩ := Sql.bind_eq_ok.mp rest
    cases rest
    exact present
  · next missing =>
    have absent := Option.not_isSome_iff_eq_none.mp missing
    obtain ⟨table, defined, rfl⟩ := Database.of_createTable_ok absent made
    have name : table.name = definition.name := (Sql.TableDefinition.table_grows defined).1
    rw [Database.table?] at absent ⊢
    rw [List.find?_append, absent, Option.none_or, List.find?_cons, name, Sql.sameName_self]
    rfl

/-- **Setting up makes a store.** A content on which setting up succeeds has the version table
afterwards, and an index of the name of its index. -/
theorem settled_prepared {content : Database}
    (done : (options.setUp ⟨content, none⟩).result = .ok ()) :
    options.Nameable ∧ ∃ index, options.Settled index (options.prepared content) := by
  have pattern : isTableName options.table = true := by
    by_contra other
    rw [Bool.not_eq_true] at other
    rw [setUp, other] at done
    cases done
  have connected := options.connection_setUp content
  rw [setUp_eq pattern] at done connected
  obtain ⟨middle, created, indexed⟩ := of_ensureTable_ok done
  rw [connected] at indexed
  have table := table?_of_createTable (Connection.content_of_execute rfl created)
  have index := Connection.content_of_execute rfl indexed
  have tables := Database.createIndex_tables index
  obtain ⟨unreserved, noTable, found, isFound⟩ := index?_of_createIndex index
  refine ⟨⟨pattern, nameable_of_ensureTable_ok done, table.1, unreserved⟩, found, ?_⟩
  change options.Settled found (Connection.content ⟨options.prepared content, none⟩)
  refine ⟨?_, ?_, isFound⟩
  · rw [Database.table?, tables]
    exact table.2
  · rw [Database.table?, tables]
    exact noTable

/-! ## What leaves a store standing -/

theorem not_mentions_nil (name : String) : ¬ Sql.Mentions [] name := by
  rintro ⟨other, member, -⟩
  cases member

theorem execute_keeps_settled {statement : Sql.Statement}
    (apart : ∀ name ∈ options.standing index, ¬ Sql.Mentions statement.defines name)
    (before after : Database) (settled : options.Settled index before)
    (done : before.execute statement = .ok after) : options.Settled index after :=
  settled.spared (Database.execute_spares done) apart

theorem checkSize_closes (version : Option Version) : Session.Closes (checkSize version) :=
  fun db => (checkSize_keeps (P := (·.working = none)) version ⟨db, none⟩ rfl).1

theorem record_closes (version : Option Version) (dirty : Bool) :
    Session.Closes (options.record version dirty) :=
  (checkSize_closes version).bind fun _ => Session.Closes.transaction _

/-- Recording a state defines nothing. -/
theorem record_keeps_settled (version : Option Version) (dirty : Bool) :
    Session.Keeps (Connection.Has (options.Settled index)) (options.record version dirty) :=
  record_keeps_of_statements
    (execute_keeps_settled fun _ _ => not_mentions_nil _)
    (execute_keeps_settled fun _ _ => not_mentions_nil _)

/-- A body that defines none of the standing names leaves them standing. -/
theorem run_keeps_settled {body : String}
    (apart : ∀ name ∈ options.standing index, ¬ Sql.Mentions (Sql.Batch.defines body) name) :
    Session.Keeps (Connection.Has (options.Settled index)) (options.run body) := by
  refine run_keeps_of_statements fun statement member => execute_keeps_settled fun name stands => ?_
  rintro ⟨defined, isDefined, same⟩
  exact apart name stands ⟨defined, List.mem_flatMap.mpr ⟨_, member, isDefined⟩, same⟩

end StoreOptions

end SchemaMigration
