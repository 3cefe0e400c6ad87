import SchemaMigration.Proofs.Store.Furnishing
import SchemaMigration.Proofs.Store.Reading

/-!
# Requests to a store

A store is asked to record a state, to run a body, to be read and to be opened anew. What it
answers for its state is told by the requests: the state that was recorded last, or what stood there
in the beginning.

* `StoreOptions.Request`: what a store is asked;
* `StoreOptions.lastOf`: the state recorded last by requests that are made until one fails;
* `StoreOptions.perform_answers`, `StoreOptions.makeAll_answers`: that is the state afterwards;
* `StoreOptions.perform_keeps`: what the statements of a store keep that name its own table alone.
-/

namespace SchemaMigration

open Sql (Session Connection Database Column Statement Value sameName)

/-- A reading leaves the connection. -/
theorem Sql.Session.keeps_query {ε α : Type} {P : Connection → Prop}
    (read : Database → Except ε α) : Session.Keeps P (Session.query read) :=
  fun _ holds => ⟨holds, fun _ member => nomatch member⟩

namespace StoreOptions

/-- What a store is asked. -/
inductive Request where
  | record (version : Option Version) (dirty : Bool)
  | run (body : String)
  | read
  /-- To be set up anew on what is there. -/
  | reopen
  deriving DecidableEq, Repr

namespace Request

/-- Does what is asked. -/
def perform (options : StoreOptions) : Request → Session Error Unit
  | .record version dirty => options.record version dirty
  | .run body => options.run body
  | .read => options.state >>= fun _ => pure ()
  | .reopen => options.setUp

/-- The state that is to be recorded. -/
def state? : Request → Option SchemaState
  | .record version dirty => some ⟨version, dirty⟩
  | .run _ | .read | .reopen => none

/-- No body names the table. -/
def Apart (name : String) : Request → Prop
  | .run body => ¬ Sql.Mentions (Sql.Batch.tables body) name
  | .record .. | .read | .reopen => True

/-- The state that was recorded last, once a request was made. -/
def last (options : StoreOptions) (request : Request) (start : Connection)
    (earlier : Option SchemaState) : Option SchemaState :=
  match (request.perform options start).result with
  | .ok _ => request.state?.or earlier
  | .error _ => earlier

end Request

/-- The state that was recorded last, once requests were made one after the other up to the first
that fails. -/
def lastOf (options : StoreOptions) :
    List Request → Connection → Option SchemaState → Option SchemaState
  | [], _, earlier => earlier
  | request :: rest, start, earlier =>
    let outcome := request.perform options start
    match outcome.result with
    | .ok _ => options.lastOf rest outcome.connection (request.last options start earlier)
    | .error _ => earlier

variable {options : StoreOptions} {columns : List Column}
  {cells : List (List Value)}
  {earlier : Option SchemaState} {db after : Database} {request : Request}

/-! ## What requests keep -/

/-- What its two statements keep, a set-up keeps. -/
theorem setUp_keeps_of_statements {Q : Database → Prop}
    (creates : ∀ before after, Q before →
      before.execute (.createTable true options.tableDefinition) = .ok after → Q after)
    (indexes : ∀ before after, Q before →
      before.execute (.createIndex true true options.indexName options.table ["version"]) =
        .ok after → Q after) :
    Session.Keeps (Connection.Has Q) options.setUp := by
  have statements : Session.Keeps (Connection.Has Q) (do
      Session.issue (.createTable true options.tableDefinition)
      Session.issue (.createIndex true true options.indexName options.table ["version"])) :=
    (Session.keeps_issue fun _ _ has done => has.execute creates done).bind fun _ =>
      Session.keeps_issue fun _ _ has done => has.execute indexes done
  have ensured : Session.Keeps (Connection.Has Q) options.ensureTable := by
    refine Session.Keeps.mapError _ ?_
    split
    · exact (Session.keeps_throw _).bind fun _ => statements
    · exact statements
  rw [setUp]
  split
  · exact (Session.keeps_throw _).bind fun _ => ensured
  · exact ensured

/-- **What a request keeps.** The statements of a store name its own version table, and those of a
body are the body's: what all of them keep that do not name a certain table, a request keeps if
neither its store nor its body does. -/
theorem perform_keeps {Q : Database → Prop} {name : String}
    (step : ∀ statement, ¬ Sql.Mentions statement.tables name →
      ∀ before after, Q before → before.execute statement = .ok after → Q after)
    (different : sameName options.table name = false) (apart : request.Apart name) :
    Session.Keeps (Connection.Has Q) (request.perform options) := by
  have own : ∀ {statement : Statement}, statement.tables = [options.table] →
      ∀ before after, Q before → before.execute statement = .ok after → Q after := by
    intro statement tables
    refine step statement ?_
    rw [tables]
    rintro ⟨other, member, same⟩
    rw [List.mem_singleton.mp member] at same
    cases different.symm.trans same
  cases request with
  | record version dirty => exact record_keeps_of_statements (own rfl) (own rfl)
  | run body =>
      exact run_keeps_of_statements fun statement member =>
        step statement (not_mentions_of_statement apart member)
  | read => exact (Session.keeps_query _).bind fun _ => Session.keeps_pure _
  | reopen => exact setUp_keeps_of_statements (own rfl) (own rfl)

/-! ## Answers -/

/-- What is read from a content: the state recorded last, or what stood there in the beginning. -/
def Answers (options : StoreOptions) (columns : List Column) (cells : List (List Value)) :
    Option SchemaState → Database → Prop
  | none => options.Shows columns cells
  | some state => options.Records columns state

/-- What is shown is all that is answered. -/
theorem Answers.of_shows (answers : options.Answers columns cells earlier db)
    (keeps : ∀ cells, options.Shows columns cells db → options.Shows columns cells after) :
    options.Answers columns cells earlier after := by
  cases earlier with
  | none => exact keeps cells answers
  | some state => exact Records.of_shows answers keeps

theorem Answers.exists_shows (answers : options.Answers columns cells earlier db) :
    ∃ shown, options.Shows columns shown db := by
  cases earlier with
  | none => exact ⟨cells, answers⟩
  | some state =>
      obtain ⟨shown, shows, _⟩ := Records.row answers
      exact ⟨shown, shows⟩

/-- On a table that was empty in the beginning, no version and clean counts as recorded. -/
theorem Answers.records (answers : options.Answers columns [] earlier db) :
    options.Records columns (earlier.getD {}) db := by
  cases earlier with
  | none => exact Shows.records answers
  | some state => exact answers

theorem execute_keeps_answers (statement : Statement)
    (apart : ¬ Sql.Mentions statement.tables options.table) (before after : Database)
    (answers : options.Answers columns cells earlier before)
    (done : before.execute statement = .ok after) : options.Answers columns cells earlier after :=
  answers.of_shows fun _ shows => execute_keeps_shows apart before after shows done

/-- Opening anew finds the version table and leaves it. -/
theorem setUp_keeps_answers :
    Session.Keeps (Connection.Has (options.Answers columns cells earlier)) options.setUp := by
  refine setUp_keeps_of_statements ?_ ?_
  · intro before after answers done
    obtain ⟨shown, table, found, _⟩ := answers.exists_shows
    rcases createTable_cases options before with ⟨_, fault, failed⟩ | ⟨_, made⟩
    · cases failed.symm.trans done
    · cases made.symm.trans done
      rw [withTable_of_present found]
      exact answers
  · intro before after answers done
    exact answers.of_shows fun _ shows => shows.of_tables (Database.createIndex_tables done)

/-- A store that is set up where no version row stands has an empty version table, with the columns
that were there before or its own. -/
theorem shows_of_setUp (empty : ∀ table, db.table? options.table = some table → table.rows = [])
    (ready : (options.setUp ⟨db, none⟩).result = .ok ()) :
    ∃ columns, (options.setUp ⟨db, none⟩).connection.Has (options.Shows columns []) ∧
      ((∀ table, db.table? options.table = some table → legible table.columns = true) →
        legible columns = true) := by
  have goes := options.setUp_cases db
  generalize options.setUp ⟨db, none⟩ = outcome at goes ready
  cases goes with
  | refused | stranded => cases ready
  | @done after trail whole furnished =>
      have shown : ∃ table, after.table? options.table = some table ∧ table.rows = [] ∧
          ((∀ table, db.table? options.table = some table → legible table.columns = true) →
            legible table.columns = true) := by
        rw [furnished.table?]
        cases present : db.table? options.table with
        | some table =>
            rw [withTable_of_present present, present]
            exact ⟨table, rfl, empty table present, fun all => all table rfl⟩
        | none =>
            rw [withTable_of_absent present, table?_withNewTable, present, Sql.sameName_self]
            exact ⟨_, rfl, rfl, fun _ => legible_versionColumns⟩
      obtain ⟨table, found, rows, isLegible⟩ := shown
      exact ⟨table.columns, .outside ⟨table, found, rfl, List.map_eq_nil_iff.mpr rows⟩, isLegible⟩

/-- Requests that record nothing keep what is answered. -/
theorem perform_keeps_answers (apart : request.Apart options.table)
    (silent : request.state? = none) :
    Session.Keeps (Connection.Has (options.Answers columns cells earlier))
      (request.perform options) := by
  cases request with
  | record version dirty => cases silent
  | run body => exact run_keeps execute_keeps_answers apart
  | read => exact (Session.keeps_query _).bind fun _ => Session.keeps_pure _
  | reopen => exact setUp_keeps_answers

/-- **What a store answers after a request** is the state that was recorded last by then. -/
theorem perform_answers (apart : request.Apart options.table) {start : Connection}
    (has : start.Has (options.Answers columns cells earlier)) :
    (request.perform options start).connection.Has
      (options.Answers columns cells (request.last options start earlier)) := by
  cases asked : request.state? with
  | none =>
      have same : request.last options start earlier = earlier := by
        unfold Request.last
        split
        · rw [asked, Option.none_or]
        · rfl
      rw [same]
      exact (perform_keeps_answers apart asked start has).1
  | some state =>
      cases request with
      | run | read | reopen => cases asked
      | record version dirty =>
          have performed : (Request.record version dirty).perform options start =
              options.record version dirty start := rfl
          rcases record_cases options version dirty start with
            ⟨e, trail, refused, _⟩ | ⟨after, trail, done, _, made⟩
          · rw [Request.last, performed, refused]
            exact has
          · obtain ⟨shown, shows⟩ := has.content.exists_shows
            rw [Request.last, performed, done]
            exact .outside (records_of_replaced shows made)

/-- **What a store answers after requests**, made one after the other up to the first that fails. -/
theorem makeAll_answers (requests : List Request)
    (apart : ∀ request ∈ requests, request.Apart options.table) {start : Connection}
    (has : start.Has (options.Answers columns cells earlier)) :
    (requests.forM (Request.perform options) start).connection.Has
      (options.Answers columns cells (options.lastOf requests start earlier)) := by
  induction requests generalizing start earlier with
  | nil => exact has
  | cons request rest ih =>
      have first := perform_answers (apart request List.mem_cons_self) has
      rw [Session.forM_cons_apply, lastOf]
      cases made : request.perform options start with
      | mk result stop trail =>
          rw [made] at first
          cases result with
          | error e =>
              rw [Session.bind_of_error made]
              unfold Request.last at first
              rw [made] at first
              exact first
          | ok value =>
              rw [Session.bind_of_ok made]
              exact ih (fun other member => apart other (List.mem_cons_of_mem _ member)) first

/-- What was recorded last is one of the states that were asked for, or what was there before. -/
theorem lastOf_cases (options : StoreOptions) (requests : List Request) (start : Connection)
    (earlier : Option SchemaState) :
    options.lastOf requests start earlier = earlier ∨
      ∃ request ∈ requests, ∃ state, request.state? = some state ∧
        options.lastOf requests start earlier = some state := by
  induction requests generalizing start earlier with
  | nil => exact .inl rfl
  | cons request rest ih =>
      rw [lastOf]
      cases made : (request.perform options start).result with
      | error e => exact .inl rfl
      | ok value =>
          have here : request.last options start earlier = request.state?.or earlier := by
            rw [Request.last, made]
          rcases ih (request.perform options start).connection
              (request.last options start earlier) with same | ⟨other, member, state, asked, isLast⟩
          · cases asked : request.state? with
            | none =>
                rw [asked, Option.none_or] at here
                exact .inl (same.trans here)
            | some state =>
                rw [asked, Option.some_or] at here
                exact .inr ⟨request, List.mem_cons_self, state, asked, same.trans here⟩
          · exact .inr ⟨other, List.mem_cons_of_mem _ member, state, asked, isLast⟩

end StoreOptions

end SchemaMigration
