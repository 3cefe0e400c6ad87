import SchemaMigration.Proofs.Store.Body

/-!
# Contents without version rows

`StoreOptions.Blank` says that a content has an empty version table to which nothing refers. What a
body makes of such a content it makes of the content with any state recorded in it.

* `StoreOptions.setUp_blank`: setting up a store makes its content blank;
* `StoreOptions.Blank.run_recorded_of_ok`, `StoreOptions.Blank.run_recorded_of_error`: a body goes
  beside a recorded state as it goes without version rows.
-/

namespace SchemaMigration.StoreOptions

open Sql (Session Connection Database Row Statement)

/-- A content with an empty version table to which nothing refers. Every content that statements
make is well formed. -/
structure Blank (options : StoreOptions) (db : Database) : Prop where
  empty : options.HasRows db []
  unreferenced : db.Unreferenced options.table
  wellFormed : db.WellFormed

variable {options : StoreOptions} {db : Database}

theorem Blank.hasTable (blank : options.Blank db) : options.HasTable db :=
  ⟨[], blank.empty⟩

theorem Blank.free (blank : options.Blank db) : options.Free db :=
  ⟨blank.hasTable, blank.unreferenced⟩

/-! ## Setting up -/

/-- **Setting up makes a content blank.** It needs a content without a table of the name and without
references to one. -/
theorem setUp_blank {start : Connection} (absent : start.content.table? options.table = none)
    (unreferenced : start.content.Unreferenced options.table)
    (wellFormed : start.content.WellFormed) (done : (options.setUp start).result = .ok ()) :
    options.Blank (options.setUp start).connection.content := by
  have named : isTableName options.table = true := by
    cases named : isTableName options.table with
    | true => rfl
    | false =>
        unfold setUp at done
        rw [named] at done
        cases done
  have ensures : options.setUp = options.ensureTable := by
    unfold setUp
    rw [named]
    rfl
  rw [ensures] at done ⊢
  have tables := ensureTable_tables absent done
  refine ⟨ensureTable_hasRows absent done, fun child member => ?_, ?_⟩
  · rw [tables] at member
    rcases List.mem_append.mp member with old | new
    · exact unreferenced child old
    · cases List.mem_singleton.mp new
      exact fun _ impossible => nomatch impossible
  · obtain ⟨middle, created, indexed⟩ := of_ensureTable_ok done
    have first := Database.execute_change (Connection.content_of_execute rfl created)
    have second := Database.execute_change (Connection.content_of_execute rfl indexed)
    exact second.wellFormed (first.wellFormed wellFormed)

/-! ## Version rows -/

/-- Where names are unique, the rows of the version table are those of the table of its name. -/
theorem withVersionRows_eq (has : options.HasTable db) (wellFormed : db.WellFormed)
    (others : List Row) :
    options.withVersionRows others db = db.withRows options.table others := by
  obtain ⟨rows, spelling, found⟩ := has
  obtain ⟨member, same⟩ := Database.mem_of_table? found
  rw [withVersionRows_of_found found]
  have replaced : ∀ other ∈ db.tables,
      (if Sql.sameName other.name spelling then versionTable spelling others else other) =
        other.withRows options.table others := by
    intro other otherMember
    have names : Sql.sameName other.name options.table = Sql.sameName other.name spelling := by
      rw [Sql.sameName_comm, ← Sql.sameName_congr same, Sql.sameName_comm]
      rfl
    unfold Sql.Table.withRows
    rw [names]
    split
    · rename_i isVersionTable
      rw [wellFormed.eq_of_sameName otherMember member isVersionTable]
      rfl
    · rfl
  exact congrArg (Database.mk · db.indexes) (List.map_congr_left replaced)

theorem Blank.blind (blank : options.Blank db) : options.Blind db := by
  obtain ⟨spelling, found⟩ := blank.empty
  obtain ⟨member, same⟩ := Database.mem_of_table? found
  refine ⟨⟨blank.unreferenced, fun table tableMember isVersionTable => ?_⟩, blank.wellFormed⟩
  have names : Sql.sameName table.name (versionTable spelling []).name = true := by
    rw [Sql.sameName_congr isVersionTable, Sql.sameName_comm]
    exact same
  rw [blank.wellFormed.eq_of_sameName tableMember member names]
  rfl

/-- Emptying an empty version table changes nothing. -/
theorem Blank.withVersionRows_nil (blank : options.Blank db) :
    options.withVersionRows [] db = db := by
  obtain ⟨spelling, found⟩ := blank.empty
  have member := (Database.mem_of_table? found).1
  rw [withVersionRows_of_found found]
  exact blank.wellFormed.put_self member

/-- The content with a state recorded, as a connection. -/
theorem Blank.withRows_rowsOf (blank : options.Blank db) (version : Option Version)
    (dirty : Bool) :
    Connection.withRows options.table (rowsOf version dirty) ⟨db, none⟩ =
      ⟨options.recorded version dirty db, none⟩ := by
  rw [recorded, withVersionRows_eq blank.hasTable blank.wellFormed]
  rfl

/-! ## Bodies beside a recorded state -/

/-- A statement that does not name the version table keeps a content without version rows. -/
theorem execute_keeps_blank {statement : Statement}
    (apart : ¬ Sql.Mentions statement.tables options.table) (before after : Database)
    (blank : options.Blank before) (done : before.execute statement = .ok after) :
    options.Blank after :=
  ⟨execute_keeps_rows (numbered_rowsOf none false) apart before after blank.empty done,
    (Database.execute_change done).unreferenced apart blank.unreferenced,
    (Database.execute_change done).wellFormed blank.wellFormed⟩

section

variable {body : String} {after : Database} {trail : List Connection}

theorem Blank.after_run (blank : options.Blank db)
    (apart : ¬ Sql.Mentions (Sql.Batch.tables body) options.table)
    (ran : options.run body ⟨db, none⟩ = ⟨.ok (), ⟨after, none⟩, trail⟩) : options.Blank after :=
  of_run (fun _ notNamed => execute_keeps_blank notNamed) apart blank ran

theorem Blank.run_alike (blank : options.Blank db)
    (apart : ¬ Sql.Mentions (Sql.Batch.tables body) options.table) (version : Option Version)
    (dirty : Bool) :
    AlikeOutcomes (Connection.Has options.Blind)
      (Connection.withRows options.table (rowsOf version dirty))
      (options.run body ⟨db, none⟩)
      (options.run body ⟨options.recorded version dirty db, none⟩) := by
  rw [← blank.withRows_rowsOf]
  exact run_withRows apart (numbered_rowsOf version dirty) ⟨db, none⟩ (.outside blank.blind)

/-- A body that succeeds does beside a recorded state what it does without version rows. -/
theorem Blank.run_recorded_of_ok (blank : options.Blank db)
    (apart : ¬ Sql.Mentions (Sql.Batch.tables body) options.table)
    (ran : options.run body ⟨db, none⟩ = ⟨.ok (), ⟨after, none⟩, trail⟩)
    (version : Option Version) (dirty : Bool) :
    ∃ besides, options.run body ⟨options.recorded version dirty db, none⟩ =
      ⟨.ok (), ⟨options.recorded version dirty after, none⟩, besides⟩ := by
  have alike := blank.run_alike apart version dirty
  have afterBlank := blank.after_run apart ran
  rw [ran] at alike
  generalize options.run body ⟨options.recorded version dirty db, none⟩ = outcome at alike
  cases alike with
  | @answered _ _ _ besides _ =>
      rw [afterBlank.withRows_rowsOf]
      exact ⟨besides, rfl⟩

/-- A body that fails without version rows fails beside a recorded state. -/
theorem Blank.run_recorded_of_error (blank : options.Blank db) {e : Error}
    (apart : ¬ Sql.Mentions (Sql.Batch.tables body) options.table)
    (failed : (options.run body ⟨db, none⟩).result = .error e)
    (version : Option Version) (dirty : Bool) :
    ∃ e', (options.run body ⟨options.recorded version dirty db, none⟩).result = .error e' := by
  have alike := blank.run_alike apart version dirty
  generalize options.run body ⟨db, none⟩ = left at alike failed
  generalize options.run body ⟨options.recorded version dirty db, none⟩ = right at alike
  cases alike with
  | @failed _ e' _ _ _ _ => exact ⟨e', rfl⟩
  | answered _ => cases failed

end

end SchemaMigration.StoreOptions
