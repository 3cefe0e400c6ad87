import SchemaMigration.Proofs.Store.Record

/-!
# Replacing the recorded state

Recording clears the version table and fills it anew in one transaction. `StoreOptions.replaced` is
what the two statements make of a content, whatever table of that name it has; the transaction takes
that as a whole or leaves everything as it was.

* `StoreOptions.record_cases`: a recording commits what the two statements make, or changes nothing;
* `StoreOptions.Free.replaced`: with a version table to which nothing refers, they succeed;
* `StoreOptions.record_replaces`: what is recorded there is read back, and nothing else has changed,
  and a recording that one of the statements refuses changes nothing at all. -/

namespace SchemaMigration

open Sql (Session Connection Database Statement sameName)

/-- Putting a table in the place of one leaves the tables of other names. -/
theorem Sql.Database.filter_put {db : Database} {table : Sql.Table} {name : String}
    (same : sameName table.name name = true) :
    (db.put table).tables.filter (fun other => !sameName other.name name) =
      db.tables.filter fun other => !sameName other.name name := by
  unfold Database.put
  induction db.tables with
  | nil => rfl
  | cons other rest ih =>
      rw [List.map_cons]
      split
      · next replaced =>
          have gone := Sql.sameName_trans replaced same
          rw [List.filter_cons_of_neg (by simp [same]),
            List.filter_cons_of_neg (by simp [gone]), ih]
      · rw [List.filter_cons, List.filter_cons, ih]

namespace StoreOptions

variable {options : StoreOptions} {db : Database} {version : Option Version} {dirty : Bool}

/-! ## The two statements as one -/

/-- What clearing the version table and filling it with a state make of a content. -/
def replaced (options : StoreOptions) (version : Option Version) (dirty : Bool) (db : Database) :
    Except Sql.Fault Database := do
  let emptied ← db.delete options.table none
  if version.isSome || dirty then
    emptied.insert options.table (some ["version", "dirty"]) [rowOf version dirty]
  else return emptied

/-- A version that is too large for a cell. -/
def TooLarge (version : Option Version) : Prop :=
  ∃ number, version = some number ∧ Numeral.signedMax < number

theorem checkSize_of_fits (fits : ¬ TooLarge version) (start : Connection) :
    checkSize version start = ⟨.ok (), start, []⟩ := by
  cases version with
  | none => rfl
  | some number =>
      simp only [checkSize]
      rw [if_neg fun large => fits ⟨number, rfl, large⟩]
      rfl

theorem checkSize_of_tooLarge (large : TooLarge version) (start : Connection) :
    ∃ e, checkSize version start = ⟨.error e, start, []⟩ := by
  obtain ⟨number, rfl, exceeds⟩ := large
  simp only [checkSize]
  rw [if_pos exceeds]
  exact ⟨_, rfl⟩

/-- Inside a transaction a statement that heeds none works on the content there. -/
theorem issue_of_inside {ε : Type} (f : Sql.Fault → ε) (db content : Database)
    (statement : Statement) (ordinary : statement.heedsTransaction = false) :
    Session.mapError f (Session.issue statement) ⟨db, some content⟩ =
      match content.execute statement with
      | .ok after => ⟨.ok (), ⟨db, some after⟩, [⟨db, some after⟩]⟩
      | .error fault => ⟨.error (f fault), ⟨db, some content⟩, [⟨db, some content⟩]⟩ := by
  have executed := Connection.execute_eq ⟨db, some content⟩ ordinary
  rw [Session.mapError_apply]
  cases ran : Database.execute content statement with
  | ok after =>
      rw [show Connection.content _ = content from rfl, ran] at executed
      rw [Session.issue_of_ok executed]
      rfl
  | error fault =>
      rw [show Connection.content _ = content from rfl, ran] at executed
      rw [Session.issue_of_error executed]
      rfl

/-- Inside a transaction the row is replaced as the two statements say. -/
theorem replaceRow_cases (options : StoreOptions) (version : Option Version) (dirty : Bool)
    (db : Database) :
    (∃ after trail, options.replaced version dirty db = .ok after ∧
      options.replaceRow version dirty ⟨db, some db⟩ = ⟨.ok (), ⟨db, some after⟩, trail⟩) ∨
    ∃ fault e content trail, options.replaced version dirty db = .error fault ∧
      options.replaceRow version dirty ⟨db, some db⟩ =
        ⟨.error e, ⟨db, some content⟩, trail⟩ := by
  have clearing := issue_of_inside Error.versionNotCleared db db (.delete options.table none) rfl
  unfold replaceRow replaced
  rw [show db.execute (.delete options.table none) = db.delete options.table none from rfl]
    at clearing
  cases cleared : db.delete options.table none with
  | error fault =>
      rw [cleared] at clearing
      rw [Session.bind_of_error clearing]
      exact .inr ⟨fault, _, _, _, rfl, rfl⟩
  | ok emptied =>
      rw [cleared] at clearing
      rw [Session.bind_of_ok clearing]
      cases needed : version.isSome || dirty with
      | false => exact .inl ⟨emptied, _, rfl, rfl⟩
      | true =>
          have filling := issue_of_inside Error.versionNotRecorded db emptied
            (.insert options.table (some ["version", "dirty"]) [rowOf version dirty]) rfl
          simp only [if_true, filling]
          rw [show emptied.execute (.insert options.table (some ["version", "dirty"])
            [rowOf version dirty]) = emptied.insert options.table (some ["version", "dirty"])
              [rowOf version dirty] from rfl]
          cases filled : emptied.insert options.table (some ["version", "dirty"])
              [rowOf version dirty] with
          | error fault => exact .inr ⟨fault, _, _, _, filled, rfl⟩
          | ok after => exact .inl ⟨after, _, filled, rfl⟩

/-! ## All of it or nothing -/

/-- What a recording is refused for: the version does not fit into a cell, a transaction is open, or
the table does not take one of the two statements. -/
def RefusesRecord (options : StoreOptions) (version : Option Version) (dirty : Bool)
    (start : Connection) : Prop :=
  TooLarge version ∨ start.inTransaction ∨
    ∃ fault, options.replaced version dirty start.content = .error fault

/-- **All of it or nothing.** A recording is refused and leaves the connection, or it commits what
the two statements make of the content. -/
theorem record_cases (options : StoreOptions) (version : Option Version) (dirty : Bool)
    (start : Connection) :
    (∃ e trail, options.record version dirty start = ⟨.error e, start, trail⟩ ∧
      options.RefusesRecord version dirty start) ∨
    ∃ after trail, options.record version dirty start = ⟨.ok (), ⟨after, none⟩, trail⟩ ∧
      ¬ options.RefusesRecord version dirty start ∧
      options.replaced version dirty start.content = .ok after := by
  unfold record
  by_cases large : TooLarge version
  · obtain ⟨e, refused⟩ := checkSize_of_tooLarge large start
    rw [Session.bind_of_error refused]
    exact .inl ⟨e, [], rfl, .inl large⟩
  · rw [Session.bind_of_answer (checkSize_of_fits large start)]
    obtain ⟨db, working⟩ := start
    cases working with
    | some content =>
        rw [Session.transaction_nested]
        exact .inl ⟨_, _, rfl, .inr (.inl rfl)⟩
    | none =>
        rcases replaceRow_cases options version dirty db with
          ⟨after, trail, made, ran⟩ | ⟨fault, e, content, trail, made, ran⟩
        · rw [Session.transaction_of_ok ran]
          refine .inr ⟨after, _, rfl, ?_, made⟩
          rintro (tooLarge | impossible | ⟨fault, refused⟩)
          · exact large tooLarge
          · cases impossible
          · cases made.symm.trans refused
        · rw [Session.transaction_of_error ran]
          exact .inl ⟨e, _, rfl, .inr (.inr ⟨fault, made⟩)⟩

/-- What the two statements make of a content is committed if the version fits into a cell. -/
theorem record_of_replaced {after : Database} (fits : ¬ TooLarge version)
    (made : options.replaced version dirty db = .ok after) :
    ∃ trail, options.record version dirty ⟨db, none⟩ = ⟨.ok (), ⟨after, none⟩, trail⟩ := by
  rcases record_cases options version dirty ⟨db, none⟩ with
    ⟨_, _, _, tooLarge | impossible | ⟨_, failed⟩⟩ | ⟨other, trail, done, _, taken⟩
  · exact absurd tooLarge fits
  · cases impossible
  · cases made.symm.trans failed
  · cases made.symm.trans taken
    exact ⟨trail, done⟩

/-- With a version table to which nothing refers, both statements succeed. -/
theorem Free.replaced (free : options.Free db) (version : Option Version) (dirty : Bool) :
    options.replaced version dirty db = .ok (options.recorded version dirty db) := by
  unfold StoreOptions.replaced StoreOptions.recorded rowsOf
  rw [free.delete]
  cases needed : version.isSome || dirty with
  | false => rfl
  | true =>
      have empty := free.hasTable.withVersionRows []
      have filled := (free.withVersionRows []).insert empty version dirty
      rw [withVersionRows_withVersionRows free.hasTable] at filled
      exact filled

/-- **Recording replaces the state.** Let a content have a version table as a store makes it, with
any rows, to which nothing refers. Outside a transaction a state whose version fits into a cell is
recorded, and then it is what is read, in one row, or in none if it is clean and without version; no
other table has changed and no index. On any connection, a recording fails exactly if the version
does not fit, a transaction is open, or the version table, whatever it is, does not take one of the
two statements; and then the connection is as before. -/
theorem record_replaces (options : StoreOptions) (version : Option Version) (dirty : Bool) :
    (∀ db, options.HasTable db → db.Unreferenced options.table → ¬ TooLarge version →
      let outcome := options.record version dirty ⟨db, none⟩
      ∃ after, outcome.result = .ok () ∧ outcome.connection = ⟨after, none⟩ ∧
        (options.state ⟨after, none⟩).result = .ok ⟨version, dirty⟩ ∧
        (∃ rows, options.HasRows after rows ∧
          rows.length = if version.isSome || dirty then 1 else 0) ∧
        after.indexes = db.indexes ∧
        after.tables.filter (fun table => !sameName table.name options.table) =
          db.tables.filter fun table => !sameName table.name options.table) ∧
    ∀ start,
      ((∃ e, (options.record version dirty start).result = .error e) ↔
        options.RefusesRecord version dirty start) ∧
      ∀ e, (options.record version dirty start).result = .error e →
        (options.record version dirty start).connection = start := by
  constructor
  · intro db table unreferenced fits
    have rows := table.recorded version dirty
    have made := Free.replaced ⟨table, unreferenced⟩ version dirty
    obtain ⟨trail, done⟩ := record_of_replaced fits made
    rw [done]
    refine ⟨_, rfl, rfl, stateIn_rowsOf rows, ⟨_, rows, ?_⟩, ?_⟩
    · unfold rowsOf
      split
      · rfl
      · rfl
    · obtain ⟨_, spelling, found⟩ := table
      unfold StoreOptions.recorded
      rw [withVersionRows_of_found found]
      exact ⟨rfl, Sql.Database.filter_put (HasRows.sameName found)⟩
  · intro start
    rcases record_cases options version dirty start with
      ⟨e, trail, failed, refused⟩ | ⟨after, trail, done, taken, _⟩
    · rw [failed]
      exact ⟨⟨fun _ => refused, fun _ => ⟨e, rfl⟩⟩, fun _ _ => rfl⟩
    · rw [done]
      refine ⟨⟨?_, fun refused => absurd refused taken⟩, ?_⟩
      · rintro ⟨e, failed⟩
        cases failed
      · intro e failed
        cases failed

/-- A version table in another spelling, with rows that no store writes, and an index on it. -/
def oddRows : Database where
  tables := [versionTable "Schema_Migrations"
    [⟨1, [.null, .text "x"]⟩, ⟨2, [.integer 7, .integer 0]⟩, ⟨3, [.integer 7, .null]⟩]]
  indexes := [⟨"i", "schema_migrations", ["dirty"], true⟩]

/-- A version table with a column that a store knows nothing of. -/
def signedRows : Database where
  tables := [{
    name := "schema_migrations"
    columns := versionColumns ++ [⟨"author", .text, true, .null⟩]
    rows := [⟨1, [.integer 7, .integer 0, .text "a"]⟩] }]

/-- A dirty state without version replaces the first, and nothing replaces the second. -/
theorem record_replaces_sample :
    (∃ after, (StoreOptions.record {} none true ⟨oddRows, none⟩).connection = ⟨after, none⟩ ∧
      (StoreOptions.state {} ⟨after, none⟩).result = .ok ⟨none, true⟩) ∧
    StoreOptions.RefusesRecord {} none true ⟨signedRows, none⟩ ∧
    (StoreOptions.record {} none true ⟨signedRows, none⟩).connection = ⟨signedRows, none⟩ := by
  obtain ⟨replaces, keeps⟩ := record_replaces {} none true
  have found : oddRows.table? "schema_migrations" = oddRows.tables.head? := by decide +kernel
  have table : StoreOptions.HasTable {} oddRows := ⟨_, _, found⟩
  obtain ⟨after, _, stop, read, _⟩ := replaces oddRows table (by decide +kernel)
    fun ⟨_, impossible, _⟩ => nomatch impossible
  have refused : StoreOptions.replaced {} none true signedRows =
      .error (.null "schema_migrations" "author") := by
    decide +kernel
  have refuses : StoreOptions.RefusesRecord {} none true ⟨signedRows, none⟩ :=
    .inr (.inr ⟨_, refused⟩)
  obtain ⟨e, failed⟩ := (keeps ⟨signedRows, none⟩).1.mpr refuses
  exact ⟨⟨after, stop, read⟩, refuses, (keeps _).2 e failed⟩

end StoreOptions

end SchemaMigration
